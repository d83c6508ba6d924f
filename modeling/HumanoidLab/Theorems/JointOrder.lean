import HumanoidLab.Simulators.Publication
import HumanoidLab.Theorems.EffortSafety
import HumanoidLab.Theorems.MalformedCommands

/-! The order of the joints. The positions of a layout are the joints of the asset that bear its names, each once, so that
    what is gathered from a joint and what is staged at the same position are of one joint. -/

namespace HumanoidLab
open Fallible Std.Do

set_option mvcgen.warning false

/-! ### Layouts -/

/-- A layout has the declared names, at distinct joints of the asset, and each name is borne by one joint alone. -/
structure Placed (available names : List String) (l : JointLayout) : Prop where
  declared : l.names = names
  nodup : l.indices.Nodup
  bears : JointLayout.Bears available names l.indices
  only : ∀ n ∈ names, ∀ i j : Nat, available[i]? = some n → available[j]? = some n → i = j

variable {available names : List String} {what : String} {l : JointLayout} {i : Nat}

theorem lookup_only {name : String} (h : JointLayout.lookup available what name = .ok i) {j : Nat}
    (hj : available[j]? = some name) : j = i := by
  unfold JointLayout.lookup at h
  split at h
  · cases h
  · rename_i x index hx
    cases h
    have hmem : (name, j) ∈ available.zipIdx.filter (·.1 = name) :=
      List.mem_filter.mpr ⟨List.mk_mem_zipIdx_iff_getElem?.mpr hj, decide_eq_true rfl⟩
    rw [hx] at hmem
    exact congrArg Prod.snd (List.mem_singleton.mp hmem)
  · cases h

theorem exists_of_forall₂ {α β : Type} {R : α → β → Prop} {as : List α} {bs : List β} (h : List.Forall₂ R as bs) {a : α}
    (ha : a ∈ as) : ∃ b, R a b := by
  induction h with
  | nil => cases ha
  | cons hab _ ih =>
    rcases List.mem_cons.mp ha with rfl | ha
    · exact ⟨_, hab⟩
    · exact ih ha

theorem resolve_placed (h : JointLayout.resolve names available what = .ok l) : Placed available names l := by
  obtain ⟨hnames, hnodup, hbears⟩ := JointLayout.resolve_ok h
  refine ⟨hnames, hnodup, hbears, fun n hn i j hi hj => ?_⟩
  unfold JointLayout.resolve at h
  split at h
  · obtain ⟨is, his, -⟩ := bind_ok h
    obtain ⟨k, hk⟩ := exists_of_forall₂ (mapM_ok his) hn
    exact (lookup_only hk hi).trans (lookup_only hk hj).symm
  · cases h

/-- A layout is refused with a `CommandError`. -/
theorem resolve_checks (names available : List String) (what : String) : Checks (JointLayout.resolve names available what) := by
  unfold JointLayout.resolve
  split
  · refine Checks.bind (checks_mapM (fun name => ?_) _) fun is _ => ?_
    · unfold JointLayout.lookup
      split <;> simp [Checks]
    · simp [Checks, pure, Except.pure]
  · simp [Checks]

theorem resolveHand_checks (names available : List String) (side : Side) : Checks (resolveHand names available side) := by
  unfold resolveHand
  split
  · simp [Checks]
  · have hchecks := resolve_checks names available (side.text ++ " hand")
    cases hresolve : JointLayout.resolve names available (side.text ++ " hand") with
    | error e =>
      rw [hresolve] at hchecks
      simpa [Checks, Except.map] using hchecks
    | ok l => simp [Checks, Except.map]

theorem resolveHand_placed {side : Side} {hand : Option JointLayout} (h : resolveHand names available side = .ok hand) :
    (hand = none ↔ names = []) ∧ ∀ l ∈ hand, Placed available names l := by
  unfold resolveHand at h
  split at h
  · rename_i hnil
    cases h
    exact ⟨⟨fun _ => hnil, fun _ => rfl⟩, by simp⟩
  · rename_i hne
    obtain ⟨layout, hlayout, rfl⟩ := map_ok h
    refine ⟨iff_of_false (Option.some_ne_none layout) hne, fun l hl => ?_⟩
    obtain rfl := Option.some.inj hl
    exact resolve_placed hlayout

/-! ### When a layout is resolved -/

/-- The names are distinct, and each is borne by one joint of the asset. -/
def Resolvable (available names : List String) : Prop := names.Nodup ∧ ∀ n ∈ names, available.count n = 1

theorem lookup_returns {name : String} : (∃ i, JointLayout.lookup available what name = .ok i) ↔ available.count name = 1 := by
  have hcount : (available.zipIdx.filter (·.1 = name)).length = available.count name := by
    rw [List.count_eq_countP, ← List.countP_eq_length_filter]
    conv_rhs => rw [← List.zipIdx_map_fst 0 available, List.countP_map]
    exact List.countP_congr fun x _ => by simp
  unfold JointLayout.lookup
  rw [← hcount]
  split
  · rename_i hnone
    simp [hnone]
  · rename_i hone
    simp [hone]
  · rename_i hnone hone
    refine iff_of_false (by rintro ⟨i, h⟩; cases h) fun hlength => ?_
    obtain ⟨⟨x, index⟩, hx⟩ := List.length_eq_one_iff.mp hlength
    exact hone x index hx

theorem resolve_returns : (∃ l, JointLayout.resolve names available what = .ok l) ↔ Resolvable available names := by
  unfold JointLayout.resolve Resolvable
  by_cases hnodup : names.Nodup
  · rw [if_pos hnodup, and_iff_right hnodup]
    constructor
    · rintro ⟨l, h⟩ n hn
      obtain ⟨is, his, -⟩ := bind_ok h
      exact lookup_returns.mp (exists_of_forall₂ (mapM_ok his) hn)
    · intro hall
      obtain ⟨is, his⟩ := mapM_returns fun n hn => (@lookup_returns _ what _).mpr (hall n hn)
      rw [his]
      exact ⟨_, rfl⟩
  · rw [if_neg hnodup]
    exact iff_of_false (by rintro ⟨l, h⟩; cases h) fun h => hnodup h.1

theorem resolveHand_returns {side : Side} : (∃ l, resolveHand names available side = .ok l) ↔ Resolvable available names := by
  unfold resolveHand
  by_cases hnil : names = []
  · rw [if_pos hnil, hnil]
    exact iff_of_true ⟨none, rfl⟩ ⟨List.nodup_nil, by simp⟩
  · rw [if_neg hnil, ← resolve_returns]
    simp only [map_ok_iff]
    constructor
    · rintro ⟨-, l, hl, -⟩
      exact ⟨l, hl⟩
    · rintro ⟨l, hl⟩
      exact ⟨_, l, hl, rfl⟩

/-! ### What is staged at a position -/

section
variable {K : Type} {indices : List Nat} {values : List K} {effort : Nat → K} {k : Nat} {x : K}

/-- Each joint gets the value of its own position. -/
theorem stage_at (hn : indices.Nodup) (hi : indices[k]? = some i) (hx : values[k]? = some x) :
    stage indices values effort i = x := by
  induction indices generalizing values effort k with
  | nil => simp at hi
  | cons j js ih =>
    obtain ⟨hj, hn⟩ := List.nodup_cons.mp hn
    cases values with
    | nil => simp at hx
    | cons v vs =>
      cases k with
      | zero =>
        obtain rfl : j = i := by simpa using hi
        obtain rfl : v = x := by simpa using hx
        change stage js vs (Function.update effort j v) j = v
        rw [stage_other vs _ hj, Function.update_self]
      | succ k => exact ih hn (by simpa using hi) (by simpa using hx)

/-- Each joint of a layout gets what a law asks from its own position and velocity, and the other joints keep their effort. -/
structure Acts (l : JointLayout) (law : Nat → K → K → K) (pos vel before after : Nat → K) : Prop where
  joint : ∀ k i, l.indices[k]? = some i → after i = law k (pos i) (vel i)
  other : ∀ i, i ∉ l.indices → after i = before i

theorem stageLaw_acts (hn : l.indices.Nodup) (law : Nat → K → K → K) (pos vel effort : Nat → K) :
    Acts l law pos vel effort (l.stageLaw law (gather l.indices pos) (gather l.indices vel) effort) := by
  refine ⟨fun k i hi => stage_at hn hi ?_, fun i hi => stage_other _ effort hi⟩
  simp [gather, List.getElem?_zip_eq_some, hi]

/-- A joint of several groups gets what the law of one of them asks. -/
theorem stageLaws_at {ls : Layouts} (hn : ∀ g, ∀ l ∈ ls.layout g, l.indices.Nodup) (laws : Group → Nat → K → K → K)
    (pos vel effort : Nat → K) (i : Nat) :
    (∃ g, ∃ l ∈ ls.layout g, ∃ k, l.indices[k]? = some i ∧
        ls.stageLaws laws pos vel effort i = laws g k (pos i) (vel i)) ∨
      (∀ g, ∀ l ∈ ls.layout g, i ∉ l.indices) ∧ ls.stageLaws laws pos vel effort i = effort i := by
  have hgroups : ∀ g, g ∈ [Group.body, .hand .left, .hand .right] := by
    rintro (_ | _ | _) <;> simp
  unfold Layouts.stageLaws
  generalize [Group.body, .hand .left, .hand .right] = groups at hgroups ⊢
  suffices h : (∃ g, ∃ l ∈ ls.layout g, ∃ k, l.indices[k]? = some i ∧ _ = laws g k (pos i) (vel i)) ∨
      (∀ g ∈ groups, ∀ l ∈ ls.layout g, i ∉ l.indices) ∧ _ = effort i from
    h.imp_right fun h => ⟨fun g => h.1 g (hgroups g), h.2⟩
  clear hgroups
  induction groups using List.reverseRecOn with
  | nil => exact Or.inr ⟨by simp, rfl⟩
  | append_singleton groups g ih =>
    simp only [List.foldl_append, List.foldl_cons, List.foldl_nil]
    cases hl : ls.layout g with
    | none =>
      refine ih.imp_right fun ⟨hno, heffort⟩ => ⟨fun g' hg' l hl' => ?_, heffort⟩
      rcases List.mem_append.mp hg' with hg' | hg'
      · exact hno g' hg' l hl'
      · rw [List.mem_singleton.mp hg', hl] at hl'
        cases hl'
    | some l =>
      have hacts := stageLaw_acts (hn g l hl) (laws g) pos vel
      by_cases hi : i ∈ l.indices
      · obtain ⟨k, hk⟩ := List.mem_iff_getElem?.mp hi
        exact Or.inl ⟨g, l, hl, k, hk, (hacts _).joint k i hk⟩
      · rcases ih with ⟨g', l', hl', k, hk, heffort⟩ | ⟨hno, heffort⟩
        · exact Or.inl ⟨g', l', hl', k, hk, ((hacts _).other i hi).trans heffort⟩
        · refine Or.inr ⟨fun g' hg' l' hl' => ?_, ((hacts _).other i hi).trans heffort⟩
          rcases List.mem_append.mp hg' with hg' | hg'
          · exact hno g' hg' l' hl'
          · rw [List.mem_singleton.mp hg', hl] at hl'
            cases hl'
            exact hi

end

/-! ### The commands -/

section
variable {K : Type} [Field K] [LinearOrder K] {C : Control K} {plant : Plant K} {c : JointCommand K} {s t : ControlState K}

/-- The gravity torque of a joint, when the solver gives a finite one. -/
def Plant.gravityAt (plant : Plant K) (i : Nat) : K :=
  match plant.gravity i with
  | .fin g => g
  | .nonFinite => 0

/-- The effort of a body command at a position: the torque with the gravity of the joint there, within the limit there. -/
def Control.bodyLaw (C : Control K) (plant : Plant K) (c : JointCommand K) (k : Nat) (q dq : K) : K :=
  let tau := c.law k q dq + if C.gravityFeedforward then (gather C.body.indices plant.gravityAt).getD k 0 else 0
  min (max tau (-C.bodyLimits.getD k 0)) (C.bodyLimits.getD k 0)

/-- The effort of a hand command at a position, within the limit there. -/
def handLaw (limits : List K) (c : JointCommand K) (k : Nat) (q dq : K) : K :=
  max (-limits.getD k 0) (min (limits.getD k 0) (c.law k q dq))

omit [LinearOrder K] in
/-- The torques of a command that fits a layout follow its law, position by position. -/
theorem torques_eq (hfits : c.Fits l) (hnamed : l.names.length = l.indices.length) :
    c.torques l.indices plant =
      ((gather l.indices plant.jointPos).zip (gather l.indices plant.jointVel)).mapIdx fun k x => c.law k x.1 x.2 := by
  obtain ⟨-, hlength⟩ := hfits
  simp only [JointCommand.fields, List.mem_cons, List.not_mem_nil, or_false, forall_eq_or_imp, forall_eq] at hlength
  obtain ⟨hq, hdq, htau, hkp, hkd⟩ := hlength
  rw [hnamed] at hq hdq htau hkp hkd
  refine List.ext_getElem ?_ fun k h₁ h₂ => ?_
  · simp [JointCommand.torques, gather, hq, hdq, htau, hkp, hkd]
  · have hk : k < l.indices.length := by simpa [gather] using h₂
    simp [JointCommand.torques, JointCommand.law, gather, hk, hq, hdq, htau, hkp, hkd]

omit [Field K] [LinearOrder K] in
theorem zipWith_mapIdx {α : Type} {xs : List α} {limits : List K} {f : K → K → K} {g : Nat → α → K} {d : K}
    (h : limits.length = xs.length) :
    List.zipWith f (xs.mapIdx g) limits = xs.mapIdx fun k x => f (g k x) (limits.getD k d) := by
  refine List.ext_getElem ?_ fun k h₁ h₂ => ?_
  · simp [h]
  · have hk : k < limits.length := by
      rw [h]
      simpa using h₂
    simp [hk]

theorem bodyGravityTorques_eq {gravity : List K} (h : C.bodyGravityTorques plant = .ok gravity) :
    gravity = gather C.body.indices plant.gravityAt := by
  have hat : List.Forall₂ (fun i g => plant.gravityAt i = g) C.body.indices gravity := by
    refine (mapM_ok h).imp fun i g hig => ?_
    unfold Plant.gravityAt
    cases hx : plant.gravity i with
    | fin x =>
      rw [hx] at hig
      cases hig
      rfl
    | nonFinite =>
      rw [hx] at hig
      cases hig
  have heq : List.Forall₂ (· = ·) (C.body.indices.map plant.gravityAt) gravity := List.forall₂_map_left_iff.mpr hat
  rw [List.forall₂_eq_eq_eq] at heq
  exact heq.symm

theorem stage_bodyLaw (hfits : c.Fits C.body) {gravity : List K} (effort : Nat → K)
    (hgravity : C.gravityFeedforward = true → gravity = gather C.body.indices plant.gravityAt) :
    stage C.body.indices (List.zipWith (fun t l => min (max t (-l)) l)
        (if C.gravityFeedforward then List.zipWith (· + ·) (c.torques C.body.indices plant) gravity
          else c.torques C.body.indices plant) C.bodyLimits) effort =
      C.body.stageLaw (C.bodyLaw plant c) (C.publish plant effort).bodyQ (C.publish plant effort).bodyDq effort := by
  have hlimits := C.resolved.body.length
  unfold JointLayout.stageLaw Control.bodyLaw
  rw [torques_eq hfits C.resolved.body.named]
  by_cases hff : C.gravityFeedforward = true
  · rw [if_pos hff, hgravity hff, zipWith_mapIdx (d := 0) (by simp [gather]), zipWith_mapIdx (d := 0) (by simp [gather, hlimits])]
    simp only [if_pos hff]
    rfl
  · rw [if_neg hff, zipWith_mapIdx (d := 0) (by simp [gather, hlimits])]
    simp only [if_neg hff, add_zero]
    rfl

/-- A body command that is applied stages its law on the vectors that are published for the body. -/
theorem applyBodyCommand_law (h : (C.applyBodyCommand plant c).run s = .ok () t) :
    t.effort = C.body.stageLaw (C.bodyLaw plant c) (C.publish plant s.effort).bodyQ (C.publish plant s.effort).bodyDq
      s.effort := by
  have hspec : ⦃fun u => ⌜u = s⌝⦄ C.applyBodyCommand plant c
      ⦃post⟨fun _ t => ⌜t.effort = C.body.stageLaw (C.bodyLaw plant c) (C.publish plant s.effort).bodyQ
        (C.publish plant s.effort).bodyDq s.effort⌝, fun _ _ => ⌜True⌝⟩⦄ := by
    mvcgen [Control.applyBodyCommand]
    case vc1 hs _ hv _ _ _ _ hg _ _ =>
      subst hs
      exact stage_bodyLaw (validate_ok_iff.mp hv) _ fun _ => bodyGravityTorques_eq hg
    case vc2 hs _ hv _ _ hff _ _ =>
      subst hs
      exact stage_bodyLaw (validate_ok_iff.mp hv) _ fun h => absurd h hff
  have heffort := ok_of_triple hspec rfl h
  exact heffort

theorem stage_handLaw {side : Side} {limits : List K} (hl : C.hands side = some l) (hlimits : C.handLimits side = some limits)
    (hfits : c.Fits l) (effort : Nat → K) :
    stage l.indices (List.zipWith (fun t l => max (-l) (min l t)) (c.torques l.indices plant) limits) effort =
      l.stageLaw (handLaw limits c) ((C.publish plant effort).handQ side) ((C.publish plant effort).handDq side) effort := by
  have hbound : C.bound (.hand side) = some (l, limits) := by
    simp [Binding.bound, hl, hlimits]
  obtain ⟨_, hlimited⟩ := C.resolved.limited hbound
  have hlength := hlimited.length
  have hindices : C.joints (.hand side) = l.indices := (C.resolved.joints_hand hl).1
  rw [torques_eq hfits hlimited.named, zipWith_mapIdx (d := 0) (by simp [gather, hlength])]
  simp only [JointLayout.stageLaw, handLaw, Binding.publish, hindices]

/-- A hand command that is applied to a hand with limits stages its law on the vectors that are published for the hand. -/
theorem applyHandCommand_law {side : Side} {limits : List K} (hl : C.hands side = some l)
    (hlimits : C.handLimits side = some limits) (h : (C.applyHandCommand plant (some c) side).run s = .ok () t) :
    t.effort = l.stageLaw (handLaw limits c) ((C.publish plant s.effort).handQ side) ((C.publish plant s.effort).handDq side)
      s.effort := by
  have hspec : ⦃fun u => ⌜u = s⌝⦄ C.applyHandCommand plant (some c) side
      ⦃post⟨fun _ t => ⌜t.effort = l.stageLaw (handLaw limits c) ((C.publish plant s.effort).handQ side)
        ((C.publish plant s.effort).handDq side) s.effort⌝, fun _ _ => ⌜True⌝⟩⦄ := by
    mvcgen [Control.applyHandCommand]
    case vc1 hn _ _ => cases hn.symm.trans hl
    case vc2 hn _ => cases hn.symm.trans hlimits
    case vc3 layout hl' _ hs _ hv limits' hlimits' _ =>
      obtain rfl := Option.some.inj (hl'.symm.trans hl)
      obtain rfl := Option.some.inj (hlimits'.symm.trans hlimits)
      subst hs
      exact stage_handLaw hl hlimits (validate_ok_iff.mp hv) _
  have heffort := ok_of_triple hspec rfl h
  exact heffort

omit [LinearOrder K] in
theorem writePassive_other {g : Group} {indices : List Nat} (hi : i ∉ indices) :
    (s.writePassive g indices).effort i = s.effort i := by
  unfold ControlState.writePassive
  split
  · rfl
  · exact if_neg hi

/-- A body command, also one that is refused, leaves the joints outside the body alone. -/
theorem applyBodyCommand_other (hi : i ∉ C.body.indices) :
    (after (C.applyBodyCommand plant c) s).effort i = s.effort i := by
  have hspec : ⦃fun u => ⌜u.effort i = s.effort i⌝⦄ C.applyBodyCommand plant c
      ⦃post⟨fun _ t => ⌜t.effort i = s.effort i⌝, fun _ t => ⌜t.effort i = s.effort i⌝⟩⦄ := by
    mvcgen [Control.applyBodyCommand]
    case vc1 h _ _ _ _ _ _ _ _ _ => exact (stage_other _ _ hi).trans h
    case vc3 h _ _ _ _ _ _ _ => exact (stage_other _ _ hi).trans h
  exact after_of_triple hspec rfl

theorem applyHandCommand_other {side : Side} {hand : Option (JointCommand K)} (hi : ∀ l ∈ C.hands side, i ∉ l.indices) :
    (after (C.applyHandCommand plant hand side) s).effort i = s.effort i := by
  have hspec : ⦃fun u => ⌜u.effort i = s.effort i⌝⦄ C.applyHandCommand plant hand side
      ⦃post⟨fun _ t => ⌜t.effort i = s.effort i⌝, fun _ t => ⌜t.effort i = s.effort i⌝⟩⦄ := by
    mvcgen [Control.applyHandCommand]
    case vc2 hl _ _ h _ => exact (writePassive_other (hi _ hl)).trans h
    case vc3 hl _ _ _ h _ _ _ _ => exact (writePassive_other (hi _ hl)).trans h
    case vc4 hl _ _ _ h _ _ _ _ _ => exact (stage_other _ _ (hi _ hl)).trans h
  exact after_of_triple hspec rfl

theorem Binding.Resolved.hand_nodup {K : Type} [Zero K] [LE K] {b : Binding K} {side : Side} (h : b.Resolved)
    (hl : b.hands side = some l) : l.indices.Nodup := by
  rcases h.hands with hn | ⟨layout, limits, hl', -, hall, -⟩
  · cases (hn side).symm.trans hl
  · obtain rfl := Option.some.inj ((hl' side).symm.trans hl)
    exact (hall side).2.nodup

/-- What control publishes of the joints and stages for them agrees on the joints. -/
structure Control.InOrder (C : Control K) : Prop where
  body : ∀ law plant effort, Acts C.body law plant.jointPos plant.jointVel effort
    (C.body.stageLaw law (C.publish plant effort).bodyQ (C.publish plant effort).bodyDq effort)
  hand : ∀ side, ∀ l ∈ C.hands side, ∀ law plant effort, Acts l law plant.jointPos plant.jointVel effort
    (l.stageLaw law ((C.publish plant effort).handQ side) ((C.publish plant effort).handDq side) effort)
  bodyCommand : ∀ plant c s t, (C.applyBodyCommand plant c).run s = .ok () t →
    Acts C.body (C.bodyLaw plant c) plant.jointPos plant.jointVel s.effort t.effort
  handCommand : ∀ side, ∀ l ∈ C.hands side, ∀ limits ∈ C.handLimits side, ∀ plant c s t,
    (C.applyHandCommand plant (some c) side).run s = .ok () t →
      Acts l (handLaw limits c) plant.jointPos plant.jointVel s.effort t.effort
  bodyOther : ∀ plant c s, ∀ i ∉ C.body.indices, (after (C.applyBodyCommand plant c) s).effort i = s.effort i
  handOther : ∀ plant hand side s i, (∀ l ∈ C.hands side, i ∉ l.indices) →
    (after (C.applyHandCommand plant hand side) s).effort i = s.effort i

theorem Control.inOrder (C : Control K) : C.InOrder where
  body law plant effort := stageLaw_acts C.resolved.body.nodup law _ _ effort
  hand side l hl law plant effort := by
    have hindices : C.joints (.hand side) = l.indices := (C.resolved.joints_hand hl).1
    simp only [Binding.publish, hindices]
    exact stageLaw_acts (C.resolved.hand_nodup hl) law _ _ effort
  bodyCommand plant c s t h := by
    rw [applyBodyCommand_law h]
    exact stageLaw_acts C.resolved.body.nodup _ _ _ _
  handCommand side l hl limits hlimits plant c s t h := by
    have hindices : C.joints (.hand side) = l.indices := (C.resolved.joints_hand hl).1
    rw [applyHandCommand_law hl hlimits h]
    simp only [Binding.publish, hindices]
    exact stageLaw_acts (C.resolved.hand_nodup hl) _ _ _ _
  bodyOther plant c s i hi := applyBodyCommand_other hi
  handOther plant hand side s i hi := applyHandCommand_other hi

end

/-! ### The layouts of a robot -/

section
variable {handNames : Side → List String} {bodyNames : List String} {ls : Layouts}

theorem resolveLayouts_checks : Checks (resolveLayouts available bodyNames handNames) := by
  refine Checks.bind (resolve_checks _ _ _) fun body _ => ?_
  refine Checks.bind (resolveHand_checks _ _ _) fun left _ => ?_
  refine Checks.bind (resolveHand_checks _ _ _) fun right _ => ?_
  simp [Checks, pure, Except.pure]

/-- The layouts are resolved for the names of the body and of each hand, or for none. -/
theorem resolveLayouts_returns : (∃ ls, resolveLayouts available bodyNames handNames = .ok ls) ↔
    Resolvable available bodyNames ∧ ∀ side, Resolvable available (handNames side) := by
  constructor
  · rintro ⟨ls, h⟩
    obtain ⟨body, hbody, h⟩ := bind_ok h
    obtain ⟨left, hleft, h⟩ := bind_ok h
    obtain ⟨right, hright, h⟩ := bind_ok h
    refine ⟨resolve_returns.mp ⟨body, hbody⟩, ?_⟩
    rintro (_ | _)
    · exact resolveHand_returns.mp ⟨left, hleft⟩
    · exact resolveHand_returns.mp ⟨right, hright⟩
  · rintro ⟨hbody, hhands⟩
    obtain ⟨body, hbody⟩ := resolve_returns.mpr hbody
    obtain ⟨left, hleft⟩ := resolveHand_returns.mpr (hhands .left)
    obtain ⟨right, hright⟩ := resolveHand_returns.mpr (hhands .right)
    unfold resolveLayouts
    rw [hbody, hleft, hright]
    exact ⟨_, rfl⟩

/-- The layouts are of the declared names, a hand that declares none has none. -/
structure Layouts.Placed (available bodyNames : List String) (handNames : Side → List String) (ls : Layouts) : Prop where
  body : HumanoidLab.Placed available bodyNames ls.body
  hand : ∀ side, ∀ l ∈ ls.hand side, HumanoidLab.Placed available (handNames side) l
  undeclared : ∀ side, ls.hand side = none ↔ handNames side = []

theorem resolveLayouts_placed (h : resolveLayouts available bodyNames handNames = .ok ls) :
    ls.Placed available bodyNames handNames := by
  obtain ⟨body, hbody, h⟩ := bind_ok h
  obtain ⟨left, hleft, h⟩ := bind_ok h
  obtain ⟨right, hright, h⟩ := bind_ok h
  cases h
  refine ⟨resolve_placed hbody, ?_, ?_⟩
  · rintro (_ | _)
    · exact (resolveHand_placed hleft).2
    · exact (resolveHand_placed hright).2
  · rintro (_ | _)
    · exact (resolveHand_placed hleft).1
    · exact (resolveHand_placed hright).1

theorem Layouts.Placed.nodup (h : ls.Placed available bodyNames handNames) : ∀ g, ∀ l ∈ ls.layout g, l.indices.Nodup
  | .body, l, hl => by
    obtain rfl := Option.some.inj hl
    exact h.body.nodup
  | .hand side, l, hl => (h.hand side l hl).nodup

/-- The start of a controller binds the layouts of the names that its interface declares. -/
theorem startController_layouts {K : Type} [Zero K] [LE K] {asset : Asset} {interface : Interface K} {b : Binding K}
    (h : startController asset interface = .ok b) :
    resolveLayouts asset.joints interface.bodyJointNames
      (fun side => if interface.bindsHands asset then interface.handJointNames side else []) = .ok ⟨b.body, b.hands⟩ := by
  unfold startController at h
  obtain ⟨body, hbody, h⟩ := bind_ok h
  obtain ⟨left, hleft, h⟩ := bind_ok h
  obtain ⟨right, hright, h⟩ := bind_ok h
  obtain ⟨_, -, h⟩ := bind_ok h
  obtain ⟨_, -, h⟩ := bind_ok h
  cases h
  simp only [resolveLayouts, hbody, hleft, hright]
  rfl

/-- The joint orders are refused with a `CommandError`, or they are placed among the joints of the asset and no value is
    moved: a law for each group acts, at each of its joints, on what is published of that joint. They are not refused when each
    declares distinct names that the asset has once. Every controller acts in the order of its layouts. -/
theorem joint_round_trip (available bodyNames : List String) (handNames : Side → List String) :
    ((∃ text, resolveLayouts available bodyNames handNames = .error (.command text)) ∨
      ∃ ls, resolveLayouts available bodyNames handNames = .ok ls ∧ ls.Placed available bodyNames handNames ∧
        ∀ {K : Type} [Field K] [LinearOrder K],
          (∀ g, ∀ l ∈ ls.layout g, ∀ (law : Nat → K → K → K) pos vel effort, Acts l law pos vel effort
            (l.stageLaw law (gather l.indices pos) (gather l.indices vel) effort)) ∧
          ∀ (laws : Group → Nat → K → K → K) pos vel effort i,
            (∃ g, ∃ l ∈ ls.layout g, ∃ k, l.indices[k]? = some i ∧
              ls.stageLaws laws pos vel effort i = laws g k (pos i) (vel i)) ∨
            (∀ g, ∀ l ∈ ls.layout g, i ∉ l.indices) ∧ ls.stageLaws laws pos vel effort i = effort i) ∧
    ((∃ ls, resolveLayouts available bodyNames handNames = .ok ls) ↔
      Resolvable available bodyNames ∧ ∀ side, Resolvable available (handNames side)) ∧
    ∀ {K : Type} [Field K] [LinearOrder K] (C : Control K), C.InOrder := by
  refine ⟨?_, resolveLayouts_returns, fun C => C.inOrder⟩
  cases h : resolveLayouts available bodyNames handNames with
  | error e =>
    have hchecks : Checks (resolveLayouts available bodyNames handNames) := resolveLayouts_checks
    cases e with
    | command text => exact Or.inl ⟨text, rfl⟩
    | index =>
      exact absurd h hchecks
  | ok ls =>
    have hplaced := resolveLayouts_placed h
    refine Or.inr ⟨ls, rfl, hplaced, ⟨fun g l hl law pos vel effort => ?_, fun laws pos vel effort i => ?_⟩⟩
    · exact stageLaw_acts (hplaced.nodup g l hl) law pos vel effort
    · exact stageLaws_at hplaced.nodup laws pos vel effort i

end

end HumanoidLab
