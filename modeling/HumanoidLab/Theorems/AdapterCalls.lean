import HumanoidLab.Bridge.Actions
import Mathlib.Data.Rat.Floor
import Mathlib.Tactic.NormNum

/-! The calls of an action adapter. An action is judged before its frame index is, and a neck block that is dropped is
    counted in between: the count stays when the index is refused. -/

namespace HumanoidLab
open Concurrency Fallible

variable {K : Type} [Field K] [LinearOrder K] {c : AdapterConfig K} {action : NdArray K} {s : AdapterState K}
  {frameIndex : Option FrameIndex}

namespace AdapterConfig

/-- The neck blocks that an admitted action keeps and drops. -/
def judgeNeck (c : AdapterConfig K) (array : List K) : Except (ActionError K) (Option (List K) × Option (List K)) :=
  if array.length = 78 + neckDim then
    let raw := array.drop (tokenDim + hand14Dim)
    if raw.any (c.neckTolerance < |·|) then
      match c.neckPolicy with
      | .error => .error (.neck raw c.neckTolerance)
      | .discard => .ok (none, some raw)
    else .ok (some raw, none)
  else .ok (none, none)

/-- The values of an action that the adapter admits whatever its frame index, and its neck blocks. -/
def judge (c : AdapterConfig K) (action : NdArray K) :
    Except (ActionError K) (List K × Option (List K) × Option (List K)) := do
  let array ← action.flatten
  let array ← allFinite array
  match c.expectedDim.filter (· ≠ array.length) with
  | some expected => .error (.dimension expected array.length)
  | none =>
    let neck ← c.judgeNeck array
    return (array, neck)

end AdapterConfig

/-- The state once an action is judged. -/
def AdapterState.discard (s : AdapterState K) (discarded : Option (List K)) : AdapterState K :=
  if discarded.isSome then { s with neckDiscards := s.neckDiscards + 1 } else s

variable [FloorRing K]

/-- The fields that an admitted action is split into. -/
def adaptedOf (array : List K) (neck discarded : Option (List K)) (index : Nat) : AdaptedAction K where
  token := fsqQuantize (array.take tokenDim)
  leftHand := ((array.drop tokenDim).take hand14Dim).take handDim
  rightHand := ((array.drop tokenDim).take hand14Dim).drop handDim
  neck := neck
  frameIndex := index
  sourceDim := array.length
  discardedNeck := discarded

omit [Field K] [LinearOrder K] [FloorRing K] in
theorem run_lift_bind {α β : Type} (x : Except (ActionError K) α) (f : α → EStateM (ActionError K) (AdapterState K) β) :
    (lift x >>= f).run s = match x with
      | .ok a => (f a).run s
      | .error e => .error e s := by
  cases x <;> rfl

omit [FloorRing K] in
theorem neck_run (array : List K) : (c.neck array).run s = match c.judgeNeck array with
    | .error e => .error e s
    | .ok neck => .ok neck (s.discard neck.2) := by
  unfold AdapterConfig.neck AdapterConfig.judgeNeck
  dsimp only
  split_ifs
  · cases c.neckPolicy <;> rfl
  · rfl
  · rfl

theorem adapt_run : (c.adapt action frameIndex).run s = match c.judge action with
    | .error e => .error e s
    | .ok (array, neck, discarded) => match s.index frameIndex with
      | .error e => .error e (s.discard discarded)
      | .ok index => .ok (adaptedOf array neck discarded index) (s.discard discarded) := by
  unfold AdapterConfig.adapt
  rw [run_lift_bind]
  cases hflat : action.flatten with
  | error e => simp [AdapterConfig.judge, hflat, bind, Except.bind]
  | ok values =>
    dsimp only
    rw [run_lift_bind]
    cases hfinite : allFinite values with
    | error e => simp [AdapterConfig.judge, hflat, hfinite, bind, Except.bind]
    | ok array =>
      cases hdim : c.expectedDim.filter (· ≠ array.length) with
      | some expected =>
        simp only [AdapterConfig.judge, hflat, hfinite, hdim, bind, Except.bind]
        rfl
      | none =>
        have hneck := neck_run (c := c) (s := s) array
        simp only [hdim, EStateM.run_bind, hneck]
        cases hjudge : c.judgeNeck array with
        | error e => simp only [AdapterConfig.judge, hflat, hfinite, hdim, hjudge, bind, Except.bind]
        | ok neck =>
          have hindex : (s.discard neck.2).index frameIndex = s.index frameIndex := by
            unfold AdapterState.discard
            split <;> rfl
          have hj : c.judge action = .ok (array, neck) := by
            simp only [AdapterConfig.judge, hflat, hfinite, hdim, hjudge, bind, Except.bind, pure, Except.pure]
          simp only [hj, EStateM.run_get, hindex]
          cases s.index frameIndex <;> rfl

omit [FloorRing K] in
/-- An admitted action has one of the two widths. -/
theorem judge_width {array : List K} {neck : Option (List K) × Option (List K)} (h : c.judge action = .ok (array, neck)) :
    array.length ∈ actionDims := by
  obtain ⟨values, hflat, h⟩ := bind_ok h
  obtain ⟨array', hfinite, h⟩ := bind_ok h
  have hlength : array'.length = values.length := (mapM_ok hfinite).length_eq.symm
  have heq : array' = array := by
    split at h
    · cases h
    · obtain ⟨neck, -, h⟩ := bind_ok h
      cases h
      rfl
  rw [← heq, hlength]
  have hsize := action.size
  unfold NdArray.flatten at hflat
  split at hflat
  · rename_i width hshape
    split at hflat
    · cases hflat
      rwa [hsize, hshape, List.prod_singleton]
    · cases hflat
  · rename_i width hshape
    split at hflat
    · cases hflat
      rwa [hsize, hshape, List.prod_cons, List.prod_singleton, one_mul]
    · cases hflat
  · cases hflat

theorem adaptedOf_widths {array : List K} (h : array.length ∈ actionDims) (neck discarded : Option (List K)) (index : Nat) :
    (adaptedOf array neck discarded index).token.length = tokenDim ∧
      (adaptedOf array neck discarded index).leftHand.length = handDim ∧
      (adaptedOf array neck discarded index).rightHand.length = handDim := by
  have hlong : 78 ≤ array.length := by
    simp only [actionDims, List.mem_cons, List.not_mem_nil, or_false] at h
    omega
  simp only [adaptedOf, fsqQuantize, List.length_map, List.length_take, List.length_drop, tokenDim, handDim, hand14Dim]
  omega

omit [Field K] [LinearOrder K] [FloorRing K] in
/-- With the right widths only the frame index can be refused. -/
theorem packLatentActionMessage_eq {token leftHand rightHand : List K} {index : Nat} (htoken : token.length = tokenDim)
    (hleft : leftHand.length = handDim) (hright : rightHand.length = handDim) :
    packLatentActionMessage token index leftHand rightHand =
      if 2 ^ 63 ≤ index then .error .overflow else .ok ⟨token, index, leftHand, rightHand⟩ := by
  simp only [packLatentActionMessage, htoken, hleft, hright, ne_eq, not_true_eq_false, if_false]

theorem pack_run : (c.pack action frameIndex).run s = match c.judge action with
    | .error e => .error e s
    | .ok (array, neck, discarded) => match s.index frameIndex with
      | .error e => .error e (s.discard discarded)
      | .ok index =>
        let a := adaptedOf array neck discarded index
        if 2 ^ 63 ≤ index then .error .overflow (s.discard discarded)
        else .ok ⟨a.token, index, a.leftHand, a.rightHand⟩
          { s.discard discarded with lastSent := some index, nextIndex := index + 1, lastAdapted := some a } := by
  unfold AdapterConfig.pack
  rw [EStateM.run_bind, adapt_run]
  cases hj : c.judge action with
  | error e => rfl
  | ok judged =>
    obtain ⟨array, neck, discarded⟩ := judged
    cases hindex : s.index frameIndex with
    | error e => rfl
    | ok index =>
      dsimp only
      rw [run_lift_bind]
      obtain ⟨htoken, hleft, hright⟩ := adaptedOf_widths (judge_width hj) neck discarded index
      rw [packLatentActionMessage_eq htoken hleft hright, show (adaptedOf array neck discarded index).frameIndex = index from rfl]
      by_cases hoverflow : 2 ^ 63 ≤ index
      · rw [if_pos hoverflow, if_pos hoverflow]
      · rw [if_neg hoverflow, if_neg hoverflow]
        rfl

/-! ### What the calls promise -/

/-- The adapter admits an action, up to its frame index. -/
def AdapterConfig.Admits (c : AdapterConfig K) (action : NdArray K) : Prop := ∃ judged, c.judge action = .ok judged

/-- The adapter admits an action and drops its neck block. -/
def AdapterConfig.Drops (c : AdapterConfig K) (action : NdArray K) : Prop :=
  ∃ array neck block, c.judge action = .ok (array, neck, some block)

/-- A call on an admitted action that leaves the frame index to the adapter. -/
def AdapterConfig.Serves (c : AdapterConfig K) : AdapterCall K → Prop
  | .adapt action none | .pack action none => c.Admits action
  | _ => False

/-- A call that raises leaves the adapter as it was, and a call on a valid action with the next index does not raise. -/
structure AdapterEvent.Sound (c : AdapterConfig K) (e : AdapterEvent K) : Prop where
  unchanged : ∀ error, e.result = .error error → e.after = e.before
  served : c.Serves e.call → ∃ message, e.result = .ok message

/-- The indices packed since the last reset increase, and every call is sound. -/
structure AdapterUse.Sound (c : AdapterConfig K) (s : AdapterUse K) : Prop where
  increasing : s.packed.Pairwise (· > ·)
  calls : ∀ e ∈ s.calls, e.Sound c

/-- A call on an action whose neck block is dropped is not refused for its frame index, and the next index of a message
    fits its field. -/
def Careful (c : AdapterConfig K) (s : AdapterUse K) : AdapterCall K → Prop
  | .adapt action frameIndex => c.Drops action → ∃ n, s.adapter.index frameIndex = .ok n
  | .pack action frameIndex =>
    (c.Drops action → ∃ n, s.adapter.index frameIndex = .ok n ∧ n < 2 ^ 63) ∧
      (frameIndex = none → c.Admits action → s.adapter.nextIndex < 2 ^ 63)
  | .reset => True

/-- The last index is the newest one packed since the last reset, and the next one is above it. -/
structure Numbered (s : AdapterUse K) : Prop where
  last : s.adapter.lastSent = s.packed.head?
  next : ∀ n ∈ s.adapter.lastSent, n < s.adapter.nextIndex
  increasing : s.packed.Pairwise (· > ·)

omit [Field K] [LinearOrder K] [FloorRing K] in
/-- An index that is taken is above the last one. -/
theorem index_above {n : Nat} (h : s.index frameIndex = .ok n) : ∀ l ∈ s.lastSent, l < n := by
  intro l hl
  have habove : ∀ i : Int, (if i < 0 then Except.error (ActionError.negative i) else
      match s.lastSent.filter (i.toNat ≤ ·) with
      | some last => .error (.notMonotonic i.toNat last)
      | none => .ok i.toNat : Except (ActionError K) Nat) = .ok n → l < n := by
    intro i hi
    split_ifs at hi
    split at hi
    · cases hi
    · rename_i hlast
      cases hi
      by_contra hle
      rw [Option.mem_def.mp hl] at hlast
      simp [Option.filter, not_lt.mp hle] at hlast
  rcases frameIndex with _ | ⟨i⟩ | _
  · exact habove s.nextIndex h
  · exact habove i h
  · cases h

omit [Field K] [LinearOrder K] [FloorRing K] in
/-- The next index is taken. -/
theorem index_none (h : ∀ l ∈ s.lastSent, l < s.nextIndex) : s.index none = .ok s.nextIndex := by
  have hlast : s.lastSent.filter (((s.nextIndex : Int).toNat ≤ ·)) = none := by
    cases hsent : s.lastSent with
    | none => rfl
    | some l => simpa [Option.filter] using h l hsent
  unfold AdapterState.index
  simp only [bind, Except.bind, Int.natCast_nonneg, not_lt.mpr, if_false, hlast]
  rfl

theorem call_adapt : (c.call (.adapt action frameIndex)).run s = match c.judge action with
    | .error e => .error e s
    | .ok (_, _, discarded) => match s.index frameIndex with
      | .error e => .error e (s.discard discarded)
      | .ok _ => .ok none (s.discard discarded) := by
  unfold AdapterConfig.call
  rw [EStateM.run_bind, adapt_run]
  cases c.judge action with
  | error e => rfl
  | ok judged => cases s.index frameIndex <;> rfl

theorem call_pack : (c.call (.pack action frameIndex)).run s = match c.judge action with
    | .error e => .error e s
    | .ok (array, neck, discarded) => match s.index frameIndex with
      | .error e => .error e (s.discard discarded)
      | .ok index =>
        let a := adaptedOf array neck discarded index
        if 2 ^ 63 ≤ index then .error .overflow (s.discard discarded)
        else .ok (some ⟨a.token, index, a.leftHand, a.rightHand⟩)
          { s.discard discarded with lastSent := some index, nextIndex := index + 1, lastAdapted := some a } := by
  unfold AdapterConfig.call
  rw [EStateM.run_bind, pack_run]
  cases c.judge action with
  | error e => rfl
  | ok judged =>
    cases s.index frameIndex with
    | error e => rfl
    | ok index =>
      dsimp only
      split_ifs <;> rfl

omit [Field K] [LinearOrder K] [FloorRing K] in
theorem discard_eq_iff {discarded : Option (List K)} : s.discard discarded = s ↔ discarded = none := by
  cases discarded with
  | none => simp [AdapterState.discard]
  | some block =>
    refine iff_of_false (fun h => ?_) (Option.some_ne_none block)
    have hcount := congrArg AdapterState.neckDiscards h
    simp [AdapterState.discard] at hcount

/-- The record of a call. -/
def eventOf (c : AdapterConfig K) (s : AdapterState K) (a : AdapterCall K) : AdapterEvent K :=
  match (c.call a).run s with
  | .ok message after => ⟨a, .ok message, s, after⟩
  | .error e after => ⟨a, .error e, s, after⟩

omit [FloorRing K] in
theorem refused_sound_iff {a : AdapterCall K} {e : ActionError K} {discarded : Option (List K)} :
    (⟨a, .error e, s, s.discard discarded⟩ : AdapterEvent K).Sound c ↔ discarded = none ∧ ¬c.Serves a := by
  constructor
  · intro h
    refine ⟨discard_eq_iff.mp (h.unchanged e rfl), fun hserves => ?_⟩
    obtain ⟨message, hmessage⟩ := h.served hserves
    cases hmessage
  · rintro ⟨hnone, hserves⟩
    exact ⟨fun _ _ => discard_eq_iff.mpr hnone, fun h => absurd h hserves⟩

omit [FloorRing K] in
theorem returned_sound {a : AdapterCall K} {message : Option (PoseMessage K)} {t : AdapterState K} :
    (⟨a, .ok message, s, t⟩ : AdapterEvent K).Sound c :=
  ⟨fun _ he => (by cases he), fun _ => ⟨message, rfl⟩⟩

omit [FloorRing K] in
theorem drops_iff {array : List K} {neck discarded : Option (List K)} (hj : c.judge action = .ok (array, neck, discarded)) :
    c.Drops action ↔ discarded ≠ none := by
  constructor
  · rintro ⟨_, _, block, hdrop⟩
    cases hj.symm.trans hdrop
    exact Option.some_ne_none block
  · intro hne
    obtain ⟨block, rfl⟩ := Option.ne_none_iff_exists'.mp hne
    exact ⟨array, neck, block, hj⟩

omit [FloorRing K] in
/-- An action that is not admitted is refused without a trace. -/
theorem judge_error {e : ActionError K} (hj : c.judge action = .error e) : ¬c.Drops action ∧ ¬c.Admits action := by
  constructor
  · rintro ⟨_, _, _, hdrop⟩
    cases hj.symm.trans hdrop
  · rintro ⟨judged, hadmit⟩
    cases hj.symm.trans hadmit

/-- A call is sound exactly when it is careful. -/
theorem adapt_sound_iff {u : AdapterUse K} (h : Numbered u) :
    (eventOf c u.adapter (.adapt action frameIndex)).Sound c ↔ Careful c u (.adapt action frameIndex) := by
  unfold eventOf
  rw [call_adapt]
  cases hj : c.judge action with
  | error e =>
    obtain ⟨hdrops, hadmits⟩ := judge_error hj
    refine iff_of_true ((@refused_sound_iff _ _ _ _ _ _ e none).mpr ⟨rfl, ?_⟩) fun h => absurd h hdrops
    cases frameIndex with
    | none => exact hadmits
    | some f => exact id
  | ok judged =>
    obtain ⟨array, neck, discarded⟩ := judged
    simp only [Careful, drops_iff hj]
    cases hindex : u.adapter.index frameIndex with
    | ok n => exact iff_of_true returned_sound fun _ => ⟨n, rfl⟩
    | error e =>
      have hserves : ¬c.Serves (.adapt action frameIndex) := by
        cases frameIndex with
        | none => cases hindex.symm.trans (index_none h.next)
        | some f => exact id
      dsimp only
      rw [refused_sound_iff, and_iff_left hserves]
      simp

theorem pack_sound_iff {u : AdapterUse K} (h : Numbered u) :
    (eventOf c u.adapter (.pack action frameIndex)).Sound c ↔ Careful c u (.pack action frameIndex) := by
  unfold eventOf
  rw [call_pack]
  cases hj : c.judge action with
  | error e =>
    obtain ⟨hdrops, hadmits⟩ := judge_error hj
    refine iff_of_true ((@refused_sound_iff _ _ _ _ _ _ e none).mpr ⟨rfl, ?_⟩)
      ⟨fun h => absurd h hdrops, fun _ h => absurd h hadmits⟩
    cases frameIndex with
    | none => exact hadmits
    | some f => exact id
  | ok judged =>
    obtain ⟨array, neck, discarded⟩ := judged
    simp only [Careful, drops_iff hj]
    cases hindex : u.adapter.index frameIndex with
    | error e =>
      have hsome : frameIndex ≠ none := fun hnone => by
        subst hnone
        cases hindex.symm.trans (index_none h.next)
      have hserves : ¬c.Serves (.pack action frameIndex) := by
        cases frameIndex with
        | none => exact absurd rfl hsome
        | some f => exact id
      dsimp only
      rw [refused_sound_iff, and_iff_left hserves]
      simp [hsome]
    | ok n =>
      have hnext : frameIndex = none → n = u.adapter.nextIndex := fun hnone => by
        subst hnone
        exact Except.ok.inj (hindex.symm.trans (index_none h.next))
      by_cases hoverflow : 2 ^ 63 ≤ n
      · have hserves : c.Serves (.pack action frameIndex) ↔ frameIndex = none := by
          cases frameIndex with
          | none => exact iff_of_true ⟨_, hj⟩ rfl
          | some f => exact iff_of_false id (Option.some_ne_none f)
        have hover : ∀ m : Nat, Except.ok n = (Except.ok m : Except (ActionError K) Nat) → ¬m < 2 ^ 63 := fun m hm => by
          cases hm
          exact not_lt.mpr hoverflow
        simp only [if_pos hoverflow]
        rw [refused_sound_iff, hserves]
        constructor
        · rintro ⟨hnone, hsome⟩
          exact ⟨fun hd => absurd hnone hd, fun hf => absurd hf hsome⟩
        · rintro ⟨hdrop, hfits⟩
          refine ⟨by_contra fun hd => ?_, fun hf => ?_⟩
          · obtain ⟨m, hm, hlt⟩ := hdrop hd
            exact hover m hm hlt
          · exact absurd (hnext hf ▸ hfits hf ⟨_, hj⟩) (not_lt.mpr hoverflow)
      · simp only [if_neg hoverflow]
        exact iff_of_true returned_sound
          ⟨fun _ => ⟨n, rfl, not_le.mp hoverflow⟩, fun hf _ => hnext hf ▸ not_le.mp hoverflow⟩

/-! ### Runs of calls -/

omit [Field K] [LinearOrder K] [FloorRing K] in
theorem Numbered.discard {u : AdapterUse K} (h : Numbered u) (discarded : Option (List K)) (calls : List (AdapterEvent K)) :
    Numbered ⟨u.adapter.discard discarded, u.packed, calls⟩ := by
  unfold AdapterState.discard
  split
  · exact ⟨h.last, h.next, h.increasing⟩
  · exact ⟨h.last, h.next, h.increasing⟩

omit [Field K] [LinearOrder K] [FloorRing K] in
/-- A message above the last index is the newest of an increasing sequence. -/
theorem Numbered.pack {u : AdapterUse K} (h : Numbered u) {n : Nat} (hn : u.adapter.index frameIndex = .ok n)
    (t : AdapterState K) (hlast : t.lastSent = some n) (hnext : t.nextIndex = n + 1) (calls : List (AdapterEvent K)) :
    Numbered ⟨t, n :: u.packed, calls⟩ := by
  have habove := index_above hn
  refine ⟨hlast, fun l hl => ?_, List.pairwise_cons.mpr ⟨fun m hm => ?_, h.increasing⟩⟩
  · obtain rfl := Option.some.inj (hlast.symm.trans hl)
    exact hnext ▸ Nat.lt_succ_self n
  · rw [h.last] at habove
    have hincreasing := h.increasing
    cases hpacked : u.packed with
    | nil =>
      rw [hpacked] at hm
      cases hm
    | cons l rest =>
      rw [hpacked] at hm habove hincreasing
      have hl : l < n := habove l rfl
      rcases List.mem_cons.mp hm with rfl | hm
      · exact hl
      · exact ((List.pairwise_cons.mp hincreasing).1 m hm).trans hl

theorem Numbered.step {u v : AdapterUse K} (h : Numbered u) {a : AdapterCall K} (hstep : c.machine.step u a = some v) :
    Numbered v ∧ v.calls = eventOf c u.adapter a :: u.calls := by
  unfold AdapterConfig.machine at hstep
  unfold eventOf
  dsimp only at hstep
  cases a with
  | adapt action frameIndex =>
    rw [call_adapt] at hstep ⊢
    cases hj : c.judge action with
    | error e =>
      simp only [hj, Option.some.injEq] at hstep ⊢
      subst hstep
      exact ⟨h.discard none _, rfl⟩
    | ok judged =>
      cases hindex : u.adapter.index frameIndex <;>
      · simp only [hj, hindex, Option.some.injEq] at hstep ⊢
        subst hstep
        exact ⟨h.discard _ _, rfl⟩
  | pack action frameIndex =>
    rw [call_pack] at hstep ⊢
    cases hj : c.judge action with
    | error e =>
      simp only [hj, Option.some.injEq] at hstep ⊢
      subst hstep
      exact ⟨h.discard none _, rfl⟩
    | ok judged =>
      obtain ⟨array, neck, discarded⟩ := judged
      cases hindex : u.adapter.index frameIndex with
      | error e =>
        simp only [hj, hindex, Option.some.injEq] at hstep ⊢
        subst hstep
        exact ⟨h.discard _ _, rfl⟩
      | ok n =>
        by_cases hoverflow : 2 ^ 63 ≤ n
        · simp only [hj, hindex, if_pos hoverflow, Option.some.injEq] at hstep ⊢
          subst hstep
          exact ⟨h.discard _ _, rfl⟩
        · simp only [hj, hindex, if_neg hoverflow, Option.some.injEq] at hstep ⊢
          subst hstep
          exact ⟨h.pack hindex _ rfl rfl _, rfl⟩
  | reset =>
    obtain rfl := Option.some.inj hstep
    exact ⟨⟨rfl, by simp [AdapterState.reset], .nil⟩, rfl⟩

theorem step_sound {u : AdapterUse K} (h : Numbered u) {a : AdapterCall K} :
    (eventOf c u.adapter a).Sound c ↔ Careful c u a := by
  cases a with
  | adapt action frameIndex => exact adapt_sound_iff h
  | pack action frameIndex => exact pack_sound_iff h
  | reset => exact iff_of_true returned_sound trivial

/-- The indices packed between resets increase, and careful calls raise without a trace and serve the next index. -/
theorem adapter_calls {u : AdapterUse K} (h : c.machine.Reach (Careful c) u) : u.Sound c := by
  have hinv : Numbered u ∧ ∀ e ∈ u.calls, e.Sound c := by
    refine h.invariant (I := fun u => Numbered u ∧ ∀ e ∈ u.calls, e.Sound c) ?_ fun u a v _ hu hcareful hstep => ?_
    · rintro u rfl
      exact ⟨⟨rfl, by simp, .nil⟩, by simp⟩
    · obtain ⟨hv, hcalls⟩ := hu.1.step hstep
      refine ⟨hv, fun e he => ?_⟩
      rw [hcalls] at he
      rcases List.mem_cons.mp he with rfl | he
      · exact (step_sound hu.1).mpr hcareful
      · exact hu.2 e he
  exact ⟨hinv.1.increasing, hinv.2⟩

/-! ### A neck block that is dropped -/

/-- The adapter of the evaluation launcher, which drops a neck block outside the tolerance. -/
def discarding : AdapterConfig ℚ where
  neckTolerance := 0.05
  neckPolicy := .discard
  known := by simp

/-- A flat action of finite values. -/
def flat (values : List ℚ) : NdArray ℚ := ⟨[values.length], values.map .fin, by simp⟩

theorem allFinite_fin (values : List ℚ) : allFinite (values.map .fin) = .ok values := by
  induction values with
  | nil => rfl
  | cons x values ih =>
    unfold allFinite at ih ⊢
    rw [List.map_cons, List.mapM_cons, ih]
    rfl

theorem judge_flat {values : List ℚ} (h : values.length ∈ actionDims) :
    discarding.judge (flat values) = (discarding.judgeNeck values).map fun neck => (values, neck) := by
  have hflat : (flat values).flatten = .ok (values.map .fin) := if_pos h
  have hdim : discarding.expectedDim.filter (· ≠ values.length) = none := rfl
  simp only [AdapterConfig.judge, hflat, allFinite_fin, hdim, bind, Except.bind]
  cases discarding.judgeNeck values <;> rfl

/-- An action at rest, and one with a neck block. -/
def resting : List ℚ := List.replicate 78 0

def lookingUp : List ℚ := List.replicate 78 0 ++ [1, 1]

theorem judge_resting : discarding.judge (flat resting) = .ok (resting, none, none) := by
  rw [judge_flat (by decide), AdapterConfig.judgeNeck, if_neg (by decide)]
  rfl

theorem judge_lookingUp : discarding.judge (flat lookingUp) = .ok (lookingUp, none, some [1, 1]) := by
  have habove : (lookingUp.drop (tokenDim + hand14Dim)).any (discarding.neckTolerance < |·|) = true := by decide +kernel
  rw [judge_flat (by decide), AdapterConfig.judgeNeck, if_pos (by decide)]
  simp only [habove, if_true]
  rfl

/-- An action of one value is none of the two that the policies return. -/
theorem judge_single : ∃ e, discarding.judge (flat [1]) = .error e := ⟨_, rfl⟩

section
variable {u : AdapterUse K} {array : List K} {neck discarded : Option (List K)} {n : Nat}

/-- An action that is not admitted is refused, and the adapter stays as it was. -/
theorem reach_refused (frameIndex : Option FrameIndex) (h : c.machine.Reach (Careful c) u) {e : ActionError K}
    (hj : c.judge action = .error e) :
    ∃ v, c.machine.Reach (Careful c) v ∧ v.adapter = u.adapter ∧ v.packed = u.packed ∧
      v.calls = ⟨.pack action frameIndex, .error e, u.adapter, u.adapter⟩ :: u.calls := by
  obtain ⟨hdrops, hadmits⟩ := judge_error hj
  have hstep : c.machine.step u (.pack action frameIndex) =
      some ⟨u.adapter, u.packed, ⟨.pack action frameIndex, .error e, u.adapter, u.adapter⟩ :: u.calls⟩ := by
    unfold AdapterConfig.machine
    dsimp only
    rw [call_pack, hj]
  have hcareful : Careful c u (.pack action frameIndex) := ⟨fun hd => absurd hd hdrops, fun _ ha => absurd ha hadmits⟩
  exact ⟨_, h.step hcareful hstep, rfl, rfl, rfl⟩

/-- An admitted action is packed with the index that it is called with. -/
theorem reach_packed (h : c.machine.Reach (Careful c) u) (hj : c.judge action = .ok (array, neck, discarded))
    (hindex : u.adapter.index frameIndex = .ok n) (hn : n < 2 ^ 63) (hnext : u.adapter.nextIndex < 2 ^ 63) :
    ∃ v, c.machine.Reach (Careful c) v ∧ v.adapter.lastSent = some n ∧ v.adapter.nextIndex = n + 1 ∧
      v.adapter.neckDiscards = (u.adapter.discard discarded).neckDiscards ∧ v.packed = n :: u.packed ∧
      ∃ e, v.calls = e :: u.calls := by
  have hstep : ∃ e, c.machine.step u (.pack action frameIndex) = some ⟨{ u.adapter.discard discarded with
      lastSent := some n, nextIndex := n + 1, lastAdapted := some (adaptedOf array neck discarded n) }, n :: u.packed, e :: u.calls⟩ := by
    unfold AdapterConfig.machine
    dsimp only
    rw [call_pack, hj]
    simp only [hindex, if_neg (not_le.mpr hn)]
    exact ⟨_, rfl⟩
  obtain ⟨e, hstep⟩ := hstep
  have hcareful : Careful c u (.pack action frameIndex) := ⟨fun _ => ⟨n, hindex, hn⟩, fun _ _ => hnext⟩
  exact ⟨_, h.step hcareful hstep, rfl, rfl, rfl, rfl, e, rfl⟩

/-- A reset starts over. -/
theorem reach_reset (h : c.machine.Reach (Careful c) u) : ∃ v, c.machine.Reach (Careful c) v ∧ v.adapter = u.adapter.reset ∧
    v.packed = [] ∧ ∃ e, v.calls = e :: u.calls := by
  have hcareful : Careful c u .reset := trivial
  have hstep : c.machine.step u .reset =
      some ⟨u.adapter.reset, [], ⟨.reset, .ok none, u.adapter, u.adapter.reset⟩ :: u.calls⟩ := rfl
  exact ⟨_, h.step hcareful hstep, rfl, rfl, _, rfl⟩

end

/-- A pack, a call that is refused, a neck block that is dropped, a reset and two packs. -/
theorem adapter_calls_once : ∃ u, discarding.machine.Reach (Careful discarding) u ∧ u.packed = [5, 0] ∧ u.calls.length = 6 ∧
    u.adapter.neckDiscards = 1 ∧ (∃ event ∈ u.calls, ∃ e, event.result = .error e) ∧ u.Sound discarding := by
  obtain ⟨e, hj⟩ := judge_single
  have hindex₀ : ({} : AdapterState ℚ).index none = .ok 0 := index_none (by simp)
  have h₀ : discarding.machine.Reach (Careful discarding) {} := Machine.Reach.init rfl
  obtain ⟨u₁, h₁, hlast₁, hnext₁, hdiscards₁, -, e₁, hcalls₁⟩ := reach_packed h₀ judge_resting hindex₀ (by decide) (by decide)
  obtain ⟨u₂, h₂, hadapter₂, -, hcalls₂⟩ := reach_refused none h₁ hj
  have hindex₂ : u₂.adapter.index none = .ok 1 := by
    rw [hadapter₂, index_none (by simp [hlast₁, hnext₁]), hnext₁]
  obtain ⟨u₃, h₃, -, -, hdiscards₃, -, e₃, hcalls₃⟩ := reach_packed h₂ judge_lookingUp hindex₂ (by decide)
    (by rw [hadapter₂, hnext₁]; decide)
  obtain ⟨u₄, h₄, hadapter₄, hpacked₄, e₄, hcalls₄⟩ := reach_reset h₃
  have hindex₄ : u₄.adapter.index none = .ok 0 := by
    rw [hadapter₄, index_none (by simp [AdapterState.reset])]
    rfl
  obtain ⟨u₅, h₅, hlast₅, hnext₅, hdiscards₅, hpacked₅, e₅, hcalls₅⟩ := reach_packed h₄ judge_resting hindex₄ (by decide)
    (by rw [hadapter₄]; exact Nat.two_pow_pos 63)
  have hindex₅ : u₅.adapter.index (some (.int 5)) = .ok 5 := by
    unfold AdapterState.index
    rw [hlast₅]
    rfl
  obtain ⟨u₆, h₆, -, -, hdiscards₆, hpacked₆, e₆, hcalls₆⟩ := reach_packed h₅ judge_resting hindex₅ (by decide)
    (by rw [hnext₅]; decide)
  refine ⟨u₆, h₆, ?_, ?_, ?_, ⟨⟨.pack (flat [1]) none, .error e, u₁.adapter, u₁.adapter⟩, ?_, e, rfl⟩, adapter_calls h₆⟩
  · rw [hpacked₆, hpacked₅, hpacked₄]
  · simp [hcalls₆, hcalls₅, hcalls₄, hcalls₃, hcalls₂, hcalls₁]
  · -- The reset keeps the count of the neck blocks.
    have hcount₂ : u₂.adapter.neckDiscards = 0 := (congrArg AdapterState.neckDiscards hadapter₂).trans hdiscards₁
    have hcount₃ : u₃.adapter.neckDiscards = 1 := hdiscards₃.trans (congrArg (· + 1) hcount₂)
    have hcount₄ : u₄.adapter.neckDiscards = 1 := (congrArg AdapterState.neckDiscards hadapter₄).trans hcount₃
    exact hdiscards₆.trans (hdiscards₅.trans hcount₄)
  · rw [hcalls₆, hcalls₅, hcalls₄, hcalls₃, hcalls₂]
    simp

/-- A refused frame index leaves the neck block counted that the call has dropped. -/
theorem refused_index_counted : ∃ u e, discarding.machine.Reach Machine.Free u ∧ u.calls = [e] ∧
    e.result = .error (.negative (-1)) ∧ e.before.neckDiscards = 0 ∧ e.after.neckDiscards = 1 ∧ ¬e.Sound discarding := by
  have hstep : discarding.machine.step {} (.adapt (flat lookingUp) (some (.int (-1)))) =
      some ⟨{ neckDiscards := 1 }, [], [⟨.adapt (flat lookingUp) (some (.int (-1))), .error (.negative (-1)), {},
        { neckDiscards := 1 }⟩]⟩ := by
    unfold AdapterConfig.machine
    dsimp only
    rw [call_adapt, judge_lookingUp]
    rfl
  refine ⟨_, _, (Machine.Reach.init rfl).step trivial hstep, rfl, rfl, rfl, rfl, fun h => ?_⟩
  have hcount := congrArg AdapterState.neckDiscards (h.unchanged _ rfl)
  cases hcount

end HumanoidLab
