import HumanoidLab.Theorems.Layouts

/-! The efforts that control stages, over every run: within the declared limits whatever is polled, and zero
    for the whole robot when it is passive and for a group that is marked passive. A group stays marked while
    the other groups are written, which is sound because the groups are disjoint. -/

namespace HumanoidLab
open Fallible Std.Do

set_option mvcgen.warning false

variable {K : Type} {i : Nat}

/-! ### Groups -/

theorem Asset.mem_bodyIds {a : Asset} : i ∈ a.bodyIds ↔ i < a.joints.length ∧ i ∉ a.handIds := by
  simp [bodyIds]

namespace Binding

variable [Zero K] [LE K] {b : Binding K} {g g' : Group} {l : JointLayout} {limits : List K}

theorem Resolved.limited (h : b.Resolved) (hb : b.bound g = some (l, limits)) : ∃ ids, Limited l limits ids := by
  cases g with
  | body =>
    cases hb
    exact ⟨_, h.body⟩
  | hand side =>
    rcases h.hands with hn | ⟨layout, lim, hl, hlim, hall, -⟩
    · simp [bound, hn] at hb
    · simp only [bound, hl, hlim, Option.bind_some, Option.map_some, Option.some.injEq, Prod.mk.injEq] at hb
      obtain ⟨rfl, rfl⟩ := hb
      exact ⟨_, (hall side).2⟩

theorem Resolved.joints_hand (h : b.Resolved) {side : Side} (hl : b.hands side = some l) :
    b.joints (.hand side) = l.indices ∧ l.indices ⊆ b.asset.handIds := by
  rcases h.hands with hn | ⟨layout, lim, hl', -, hall, -⟩
  · rw [hn] at hl
    cases hl
  · obtain rfl := Option.some.inj ((hl' side).symm.trans hl)
    exact ⟨by simp [joints, hl' side, (hall side).1], (hall side).2.joints⟩

theorem Resolved.joints_hand_subset (h : b.Resolved) (side : Side) : b.joints (.hand side) ⊆ b.asset.handIds := by
  cases hl : b.hands side with
  | none => simp [joints, hl]
  | some l =>
    obtain ⟨hj, hs⟩ := h.joints_hand hl
    rwa [hj]

theorem Resolved.disjoint (h : b.Resolved) (hb : b.bound g = some (l, limits)) (hg : g' ≠ g) (hi : i ∈ b.joints g') :
    i ∉ l.indices := by
  cases g with
  | body =>
    cases hb
    cases g' with
    | body => exact absurd rfl hg
    | hand side => exact fun hl => (Asset.mem_bodyIds.mp (h.body.joints hl)).2 (h.joints_hand_subset side hi)
  | hand side =>
    rcases h.hands with hn | ⟨layout, lim, hl, -, hall, hdis, -⟩
    · simp [bound, hn] at hb
    · obtain rfl : layout side = l := by
        simp only [bound, hl, Option.bind_some, Option.map_eq_some_iff, Prod.mk.injEq] at hb
        exact hb.choose_spec.2.1
      cases g' with
      | body => exact fun hil => (Asset.mem_bodyIds.mp hi).2 ((hall side).2.joints hil)
      | hand other =>
        rw [(h.joints_hand (hl other)).1] at hi
        cases side <;> cases other
        · exact absurd rfl hg
        · exact fun hil => hdis i hil hi
        · exact hdis i hi
        · exact absurd rfl hg

theorem Resolved.mem_joints (h : b.Resolved) (hb : b.bound g = some (l, limits)) : i ∈ b.joints g ↔ i ∈ l.indices := by
  cases g with
  | body =>
    cases hb
    exact ⟨fun hi => h.bodyCover hi, fun hi => h.body.joints hi⟩
  | hand side =>
    obtain ⟨l', hl, hb⟩ := Option.bind_eq_some_iff.mp hb
    obtain ⟨limits', -, hb⟩ := Option.map_eq_some_iff.mp hb
    cases hb
    rw [(h.joints_hand hl).1]

theorem Resolved.cover (h : b.Resolved) (hi : i < b.asset.joints.length) : ∃ g, i ∈ b.joints g := by
  by_cases hh : i ∈ b.asset.handIds
  · rcases h.hands with hn | ⟨layout, lim, hl, -, -, -, hcover⟩
    · exact ⟨.hand .left, by simpa [joints, hn] using hh⟩
    · rcases hcover i hh with hil | hir
      · exact ⟨.hand .left, (h.joints_hand (hl .left)).1 ▸ hil⟩
      · exact ⟨.hand .right, (h.joints_hand (hl .right)).1 ▸ hir⟩
  · exact ⟨.body, Asset.mem_bodyIds.mpr ⟨hi, hh⟩⟩

end Binding

/-! ### Staging -/

theorem stage_other {indices : List Nat} (values : List K) (effort : Nat → K) (hi : i ∉ indices) :
    stage indices values effort i = effort i := by
  unfold stage
  induction indices generalizing values effort with
  | nil => rfl
  | cons j js ih =>
    obtain ⟨hj, hi⟩ := not_or.mp (mt List.mem_cons.mpr hi)
    cases values with
    | nil => rfl
    | cons v vs =>
      rw [List.zip_cons_cons, List.foldl_cons, ih _ _ hi]
      exact Function.update_of_ne hj _ _

section
variable [Zero K] {s : ControlState K} {g : Group}

theorem writePassive_marked (indices : List Nat) : (s.writePassive g indices).passiveGroups g = true := by
  unfold ControlState.writePassive
  split
  · assumption
  · exact Function.update_self ..

theorem writePassive_keeps {g' : Group} (indices : List Nat) (h : s.passiveGroups g' = true) :
    (s.writePassive g indices).passiveGroups g' = true := by
  unfold ControlState.writePassive
  split
  · exact h
  · by_cases hg : g' = g
    · subst hg
      exact Function.update_self ..
    · exact (Function.update_of_ne hg ..).trans h

end

section
variable [Field K] [LinearOrder K]

theorem stage_within {f : K → K → K} (hf : ∀ t l, 0 ≤ l → |f t l| ≤ l) {x : K} {indices : List Nat} {torque limits : List K}
    {effort : Nat → K} (hn : indices.Nodup) (hl : ∀ l ∈ limits, 0 ≤ l) (hi : (i, x) ∈ indices.zip limits)
    (he : |effort i| ≤ x) : |stage indices (List.zipWith f torque limits) effort i| ≤ x := by
  induction indices generalizing torque limits effort with
  | nil => cases hi
  | cons j js ih =>
    obtain ⟨hj, hn⟩ := List.nodup_cons.mp hn
    cases limits with
    | nil => cases hi
    | cons l ls =>
      cases torque with
      | nil => exact he
      | cons t ts =>
        change |stage js (List.zipWith f ts ls) (Function.update effort j (f t l)) i| ≤ x
        rcases List.mem_cons.mp hi with hi | hi
        · cases hi
          rw [stage_other _ _ hj, Function.update_self]
          exact hf t x (hl x List.mem_cons_self)
        · have hij : i ≠ j := fun h => hj (h ▸ (List.of_mem_zip hi).1)
          refine ih hn (fun l h => hl l (List.mem_cons_of_mem _ h)) hi ?_
          rwa [Function.update_of_ne hij]

/-! ### What the writes keep -/

/-- What holds of the staged efforts between two writes. -/
structure Staged (C : Control K) (s : ControlState K) : Prop where
  within : ∀ g l limits, C.bound g = some (l, limits) → ∀ e ∈ l.indices.zip limits, |s.effort e.1| ≤ e.2
  unbound : (∀ side, C.hands side = none) → ∀ i ∈ C.asset.handIds, s.effort i = 0
  groups : ∀ g, s.passiveGroups g = true → ∀ i ∈ C.joints g, s.effort i = 0

variable {C : Control K} {s : ControlState K} {g : Group} {l : JointLayout} {limits torque : List K}

theorem Staged.writeEffort (h : Staged C s) (hb : C.bound g = some (l, limits)) {f : K → K → K}
    (hf : ∀ t l, 0 ≤ l → |f t l| ≤ l) : Staged C (s.writeEffort g l.indices (List.zipWith f torque limits)) := by
  obtain ⟨ids, hlim⟩ := C.resolved.limited hb
  -- The joints of the other groups are not written.
  have hother : ∀ {g' i}, g' ≠ g → i ∈ C.joints g' →
      (s.writeEffort g l.indices (List.zipWith f torque limits)).effort i = s.effort i :=
    fun hg hi => stage_other _ _ (C.resolved.disjoint hb hg hi)
  refine ⟨fun g' l' limits' hb' e he => ?_, fun hn i hi => ?_, fun g' hg' i hi => ?_⟩
  · by_cases hg : g' = g
    · subst hg
      obtain ⟨rfl, rfl⟩ := Prod.mk.inj (Option.some.inj (hb'.symm.trans hb))
      exact stage_within hf hlim.nodup hlim.nonneg he (h.within g' _ _ hb' e he)
    · rw [hother hg ((C.resolved.mem_joints hb').mpr (List.of_mem_zip he).1)]
      exact h.within g' _ _ hb' e he
  · have hi' : i ∈ C.joints (.hand .left) := by simpa [Binding.joints, hn] using hi
    have hg : Group.hand .left ≠ g := by
      rintro rfl
      simp [Binding.bound, hn] at hb
    rw [hother hg hi']
    exact h.unbound hn i hi
  · have hg : g' ≠ g := by
      rintro rfl
      simp [ControlState.writeEffort] at hg'
    rw [hother hg hi]
    exact h.groups g' (by simpa [ControlState.writeEffort, Function.update_of_ne hg] using hg') i hi

theorem Staged.congr {t : ControlState K} (h : Staged C s) (he : t.effort = s.effort)
    (hg : t.passiveGroups = s.passiveGroups) : Staged C t :=
  ⟨he ▸ h.within, he ▸ h.unbound, by rw [he, hg]; exact h.groups⟩

variable [IsStrictOrderedRing K]

theorem body_clamp (t l : K) (hl : 0 ≤ l) : |min (max t (-l)) l| ≤ l :=
  abs_le.mpr ⟨le_min (le_max_right _ _) (neg_le_self hl), min_le_right _ _⟩

theorem hand_clamp (t l : K) (hl : 0 ≤ l) : |max (-l) (min l t)| ≤ l :=
  abs_le.mpr ⟨le_max_left _ _, max_le (neg_le_self hl) (min_le_left _ _)⟩

theorem Staged.writePassive (h : Staged C s) {indices : List Nat} (hi : ∀ i, i ∈ C.joints g ↔ i ∈ indices) :
    Staged C (s.writePassive g indices) := by
  unfold ControlState.writePassive
  split
  · exact h
  -- What was zero stays zero.
  · have hz : ∀ {i}, s.effort i = 0 → (if i ∈ indices then 0 else s.effort i) = 0 := fun h => by simp [h]
    refine ⟨fun g' l' limits' hb' e he => ?_, fun hn i hi => hz (h.unbound hn i hi), fun g' hg' i hi' => ?_⟩
    · obtain ⟨ids, hlim⟩ := C.resolved.limited hb'
      change |if e.1 ∈ indices then 0 else s.effort e.1| ≤ e.2
      split
      · rw [abs_zero]
        exact hlim.nonneg e.2 (List.of_mem_zip he).2
      · exact h.within g' _ _ hb' e he
    · by_cases hg : g' = g
      · subst hg
        exact if_pos ((hi i).mp hi')
      · exact hz (h.groups g' (by simpa [Function.update_of_ne hg] using hg') i hi')

theorem Staged.goPassive (h : Staged C s) :
    Staged C (C.goPassive s) ∧ ∀ i < C.asset.joints.length, (C.goPassive s).effort i = 0 := by
  have hs : Staged C (C.goPassive s) :=
    ((h.writePassive fun _ => Iff.rfl).writePassive fun _ => Iff.rfl).writePassive fun _ => Iff.rfl
  refine ⟨hs, fun i hi => ?_⟩
  obtain ⟨g, hg⟩ := C.resolved.cover hi
  refine hs.groups g ?_ i hg
  cases g with
  | body => exact writePassive_keeps _ (writePassive_keeps _ (writePassive_marked _))
  | hand side =>
    cases side with
    | left => exact writePassive_keeps _ (writePassive_marked _)
    | right => exact writePassive_marked _

/-! ### What a tick keeps -/

theorem applyBodyCommand_staged (plant : Plant K) (c : JointCommand K) :
    ⦃fun s => ⌜Staged C s⌝⦄ C.applyBodyCommand plant c ⦃post⟨fun _ s => ⌜Staged C s⌝, fun _ s => ⌜Staged C s⌝⟩⦄ := by
  mvcgen [Control.applyBodyCommand] <;> exact Staged.writeEffort ‹_› rfl body_clamp

theorem Staged.hand_passive {side : Side} {layout : JointLayout} (h : Staged C s) (hl : C.hands side = some layout) :
    Staged C (s.writePassive (.hand side) layout.indices) :=
  h.writePassive fun i => by rw [(C.resolved.joints_hand hl).1]

theorem applyHandCommand_staged (plant : Plant K) (c : Option (JointCommand K)) (side : Side) :
    ⦃fun s => ⌜Staged C s⌝⦄ C.applyHandCommand plant c side ⦃post⟨fun _ s => ⌜Staged C s⌝, fun _ s => ⌜Staged C s⌝⟩⦄ := by
  mvcgen [Control.applyHandCommand]
  case vc2 hl _ s hs _ => exact hs.hand_passive hl
  case vc3 hl _ _ s hs _ _ _ _ => exact hs.hand_passive hl
  case vc4 hl _ _ s hs _ _ limits hlim _ =>
    exact Staged.writeEffort hs (by simp [Binding.bound, hl, hlim]) hand_clamp

theorem tryCommand_staged (plant : Plant K) (polled : Except Raised (Option (CompleteRobotCommand K))) :
    ⦃fun s => ⌜Staged C s⌝⦄ C.tryCommand plant polled ⦃post⟨fun _ s => ⌜Staged C s⌝, fun _ s => ⌜Staged C s⌝⟩⦄ := by
  mvcgen [Control.tryCommand, applyBodyCommand_staged, applyHandCommand_staged]
  case vc2 s hs _ _ _ _ _ _ _ => exact hs.congr rfl rfl

/-! ### Every run -/

/-- Every joint is staged within its declared limit, a passive robot has no effort, and neither has a group that
    is marked passive. -/
structure EffortSafe (C : Control K) (s : ControlState K) : Prop where
  within : ∀ g l limits, C.bound g = some (l, limits) → ∀ e ∈ l.indices.zip limits, |s.effort e.1| ≤ e.2
  passive : s.mode = .passive → ∀ i < C.asset.joints.length, s.effort i = 0
  groups : ∀ g, s.passiveGroups g = true → ∀ i ∈ C.joints g, s.effort i = 0

variable {plant : Plant K} {polled : Except Raised (Option (CompleteRobotCommand K))}

theorem withoutCommand_safe (h : Staged C s) : Staged C (C.withoutCommand s) ∧ EffortSafe C (C.withoutCommand s) := by
  obtain ⟨hs, hz⟩ := Staged.goPassive (h.congr (t := { s with
    staleTicks := s.staleTicks + 1
    passiveSinceTick := if s.mode = .controlled then some s.tick else s.passiveSinceTick
    mode := .passive }) rfl rfl)
  exact ⟨hs, hs.within, fun _ => hz, hs.groups⟩

theorem applyControl_safe {command : Option (CompleteRobotCommand K)} {t : ControlState K} (h : Staged C s)
    (hr : (C.applyControl plant polled).run s = .ok command t) : Staged C t ∧ EffortSafe C t := by
  rw [Control.applyControl_run] at hr
  cases hc : (C.tryCommand plant polled).run s with
  | ok accepted u =>
    have hu := ok_of_triple (tryCommand_staged plant polled) h hc
    rw [hc] at hr
    cases accepted with
    | none =>
      cases hr
      exact withoutCommand_safe hu
    | some c =>
      cases hr
      have hs : Staged C (C.withCommand c u) := hu.congr rfl rfl
      exact ⟨hs, hs.within, nofun, hs.groups⟩
  | error e u =>
    have hu := error_of_triple (tryCommand_staged plant polled) h hc
    rw [hc] at hr
    cases e with
    | index => cases hr
    | command text =>
      cases hr
      exact withoutCommand_safe (hu.congr rfl rfl)

theorem zero_safe (h : s.effort = fun _ => 0) : Staged C s ∧ EffortSafe C s := by
  have hw : ∀ g l limits, C.bound g = some (l, limits) → ∀ e ∈ l.indices.zip limits, |s.effort e.1| ≤ e.2 := by
    intro g l limits hb e he
    obtain ⟨ids, hlim⟩ := C.resolved.limited hb
    rw [h, abs_zero]
    exact hlim.nonneg e.2 (List.of_mem_zip he).2
  exact ⟨⟨hw, fun _ i _ => by rw [h], fun _ _ i _ => by rw [h]⟩, hw, fun _ i _ => by rw [h], fun _ _ i _ => by rw [h]⟩

/-- In every run of ticks, whatever the controller polls, and of resets, the staged efforts are safe. -/
theorem effort_safety {r : ControlRun K} (hr : (controlMachine C).Reach Concurrency.Machine.Free r) :
    EffortSafe C r.state := by
  suffices h : Staged C r.state ∧ EffortSafe C r.state from h.2
  refine Concurrency.Machine.Reach.invariant (I := fun r => Staged C r.state ∧ EffortSafe C r.state) hr ?_ ?_
  · rintro _ rfl
    exact zero_safe rfl
  · rintro r a r' - ⟨hs, -⟩ - hstep
    cases a with
    | tick plant polled =>
      simp only [controlMachine] at hstep
      split at hstep
      · cases hstep
        rename_i hrun
        obtain ⟨ht, he⟩ := applyControl_safe hs hrun
        exact ⟨ht.congr rfl rfl, he.within, he.passive, he.groups⟩
      · cases hstep
    | reset =>
      cases hstep
      exact zero_safe rfl

end

/-- A command that asks for more than the limit is applied, and then nothing is polled. -/
theorem effort_safety_small : ∃ r : ControlRun ℚ, (controlMachine smallControl).run ⟨smallControl.started, []⟩
      [.tick smallPlant (.ok (some (smallCommand 1 1 10))), .tick smallPlant (.ok none)] = some r ∧
    r.state.appliedTicks = 1 ∧ EffortSafe smallControl r.state := by
  obtain ⟨r, hr, happ⟩ : ∃ r : ControlRun ℚ, (controlMachine smallControl).run ⟨smallControl.started, []⟩
      [.tick smallPlant (.ok (some (smallCommand 1 1 10))), .tick smallPlant (.ok none)] = some r ∧
      r.state.appliedTicks = 1 := ⟨_, rfl, rfl⟩
  exact ⟨r, hr, happ, effort_safety ⟨_, rfl, Concurrency.Machine.path_of_run hr (Concurrency.Machine.meets_free _ _)⟩⟩

end HumanoidLab
