import HumanoidLab.Lib.Record
import HumanoidLab.Simulators.PoseHold
import Mathlib.Data.Rat.Floor
import Mathlib.Tactic.Common
import Mathlib.Tactic.NormNum

/-! The reset-pose hold over an episode. It is released once, late enough, and only while the setpoints that come
    are away from the reference. The reference is the setpoint after the stable window, which the check of that
    window has not looked at, and a tick without a command counts as one that stays away. -/

namespace HumanoidLab
open Concurrency

variable {K : Type} [Field K] [LinearOrder K] [FloorRing K]

/-! ### The laws -/

/-- The arm setpoints that came, newest first. -/
def armSetpoints (spec : HoldSpec K) (es : List (HoldTick K)) : List (List K) := (es.filterMap (·.setpoint)).map spec.target

namespace HoldTick

def Adopts (x : HoldTick K) (reference : List K) : Prop := x.before.reference = none ∧ x.after.reference = some reference

def Releases (x : HoldTick K) : Prop := x.before.active = true ∧ x.after.active = false

end HoldTick

/-- The ticks of the release window that ends at the newest tick, and the ticks before it. -/
def releaseWindow (spec : HoldSpec K) (es : List (HoldTick K)) : List (HoldTick K) := es.take (spec.releaseTicks + 1)

def beforeWindow (spec : HoldSpec K) (es : List (HoldTick K)) : List (HoldTick K) := es.drop (spec.releaseTicks + 1)

/-- The newest setpoints that fill a stability window. -/
def stabilityWindow (spec : HoldSpec K) (es : List (HoldTick K)) : List (List K) :=
  (armSetpoints spec es).take (spec.historyTicks)

/-- A reference is adopted before the release window, and every setpoint that came in the window is away from it. -/
structure Departure (spec : HoldSpec K) (es : List (HoldTick K)) (reference : List K) : Prop where
  adopted : ∃ z ∈ beforeWindow spec es, z.Adopts reference
  away : ∀ w ∈ releaseWindow spec es, ∀ q ∈ w.setpoint, armHoldReleaseRad < setpointDelta (spec.target q) reference

/-- What every tick of an episode keeps. -/
structure HoldLaw (spec : HoldSpec K) (x : HoldTick K) (earlier : List (HoldTick K)) : Prop where
  once : x.Releases → ∀ y ∈ earlier, ¬y.Releases
  stays : ∀ y ∈ earlier, y.after.active = false → x.after.active = false
  minimum : x.Releases → armHoldMinSeconds ≤ x.tick * spec.physicsDt
  departs : x.Releases → ∃ reference, Departure spec (x :: earlier) reference

/-- A release comes after a window in which each tick has a setpoint that is away from the reference. -/
def UnbrokenRelease (spec : HoldSpec K) (x : HoldTick K) (earlier : List (HoldTick K)) : Prop :=
  x.Releases → ∃ reference, (∃ z ∈ beforeWindow spec (x :: earlier), z.Adopts reference) ∧
    ∀ w ∈ releaseWindow spec (x :: earlier), ∃ q ∈ w.setpoint, armHoldReleaseRad < setpointDelta (spec.target q) reference

/-- A reference that is adopted is near each setpoint of the full stability window that ends there. -/
def SteadyReference (spec : HoldSpec K) (x : HoldTick K) (earlier : List (HoldTick K)) : Prop :=
  ∀ reference, x.Adopts reference → spec.historyTicks ≤ (armSetpoints spec (x :: earlier)).length ∧
    ∀ q ∈ stabilityWindow spec (x :: earlier), setpointDelta q reference ≤ armHoldStableRad

/-! ### What the hold does with a setpoint -/

namespace PoseHold

variable (spec : HoldSpec K) (tick : Nat)

/-- The window before the tick is full and stands still, and there is no reference yet. -/
structure Settled (s : PoseHold K) : Prop where
  active : s.active = true
  arms : spec.armTargetIndices ≠ []
  late : armHoldMinSeconds ≤ tick * spec.physicsDt
  free : s.reference = none
  full : spec.historyTicks ≤ s.history.length
  still : still s.history = true

/-- The setpoint is away from the reference, and the first one that was is a release window back. -/
structure Departed (q : List K) (s : PoseHold K) : Prop where
  active : s.active = true
  arms : spec.armTargetIndices ≠ []
  late : armHoldMinSeconds ≤ tick * spec.physicsDt
  away : ∃ reference ∈ s.reference, ∃ candidate ∈ s.releaseCandidate, spec.releaseTicks ≤ tick - candidate ∧
    armHoldReleaseRad < setpointDelta (spec.target q) reference

instance (s : PoseHold K) : Decidable (s.Settled spec tick) :=
  decidable_of_iff (s.active = true ∧ spec.armTargetIndices ≠ [] ∧ armHoldMinSeconds ≤ tick * spec.physicsDt ∧
      s.reference = none ∧ spec.historyTicks ≤ s.history.length ∧ PoseHold.still s.history = true)
    ⟨fun ⟨h₁, h₂, h₃, h₄, h₅, h₆⟩ => ⟨h₁, h₂, h₃, h₄, h₅, h₆⟩, fun ⟨h₁, h₂, h₃, h₄, h₅, h₆⟩ => ⟨h₁, h₂, h₃, h₄, h₅, h₆⟩⟩

instance (q : List K) (s : PoseHold K) : Decidable (s.Departed spec tick q) :=
  decidable_of_iff (s.active = true ∧ spec.armTargetIndices ≠ [] ∧ armHoldMinSeconds ≤ tick * spec.physicsDt ∧
      ∃ reference ∈ s.reference, ∃ candidate ∈ s.releaseCandidate, spec.releaseTicks ≤ tick - candidate ∧
        armHoldReleaseRad < setpointDelta (spec.target q) reference)
    ⟨fun ⟨h₁, h₂, h₃, h₄⟩ => ⟨h₁, h₂, h₃, h₄⟩, fun ⟨h₁, h₂, h₃, h₄⟩ => ⟨h₁, h₂, h₃, h₄⟩⟩

variable {spec tick} {q : List K} {s s' : PoseHold K}

/-- What a setpoint does to the hold, case by case. -/
inductive Moves (spec : HoldSpec K) (tick : Nat) (q : List K) (s : PoseHold K) : PoseHold K → Prop
  | off (h : s.active = false ∨ spec.armTargetIndices = []) : Moves spec tick q s s
  | early (h : tick * spec.physicsDt < armHoldMinSeconds) : s.active = true → Moves spec tick q s { s with history := [spec.target q] }
  | waits (h : ¬s.Settled spec tick) : s.active = true → s.reference = none →
      Moves spec tick q s { s with history := push (spec.historyTicks) (spec.target q) s.history }
  | adopts (h : s.Settled spec tick) : Moves spec tick q s
      { s with
        reference := some (spec.target q), releaseCandidate := none
        history := push (spec.historyTicks) (spec.target q) s.history }
  | returns {reference : List K} : s.active = true → s.reference = some reference →
      ¬armHoldReleaseRad < setpointDelta (spec.target q) reference →
      Moves spec tick q s { s with releaseCandidate := none }
  | leaves {reference : List K} : s.active = true → s.reference = some reference →
      armHoldReleaseRad < setpointDelta (spec.target q) reference → s.releaseCandidate = none →
      Moves spec tick q s { s with releaseCandidate := some tick }
  | stays {reference : List K} {candidate : Nat} : s.active = true → s.reference = some reference →
      armHoldReleaseRad < setpointDelta (spec.target q) reference → s.releaseCandidate = some candidate →
      tick - candidate < spec.releaseTicks → Moves spec tick q s s
  | releases {deviation : Option K} (h : s.Departed spec tick q) :
      Moves spec tick q s { s with active := false, releasedTick := some tick, releaseDeviation := deviation }

theorem update_moves (spec : HoldSpec K) (tick : Nat) (q : List K) (s : PoseHold K) :
    Moves spec tick q s (s.update spec tick q) := by
  by_cases hoff : (!s.active || spec.armTargetIndices.isEmpty) = true
  · rw [update, if_pos hoff]
    exact .off (by simpa using hoff)
  obtain ⟨hactive, harms⟩ : s.active = true ∧ spec.armTargetIndices ≠ [] := by simpa using hoff
  by_cases hearly : tick * spec.physicsDt < armHoldMinSeconds
  · rw [update, if_neg hoff, if_pos hearly]
    exact .early hearly hactive
  have hlate : armHoldMinSeconds ≤ tick * spec.physicsDt := not_lt.mp hearly
  rw [update, if_neg hoff, if_neg hearly]
  split
  · rename_i href
    dsimp only
    split
    · rename_i hset
      rw [Bool.and_eq_true, decide_eq_true_eq] at hset
      exact .adopts ⟨hactive, harms, hlate, href, hset.1, hset.2⟩
    · rename_i hset
      exact .waits (fun h => hset (by simp [h.full, h.still])) hactive href
  · rename_i reference href
    dsimp only
    split
    · rename_i hnear
      exact .returns hactive href (not_lt.mpr hnear)
    · rename_i haway
      split
      · rename_i hcand
        exact .leaves hactive href (not_le.mp haway) hcand
      · rename_i candidate hcand
        split
        · rename_i hwindow
          exact .releases ⟨hactive, harms, hlate, reference, href, candidate, hcand, hwindow, not_le.mp haway⟩
        · rename_i hwindow
          exact .stays hactive href (not_le.mp haway) hcand (Nat.lt_of_not_le hwindow)

/-- The hold lets go exactly when the setpoint has departed. -/
theorem Moves.released_iff (h : Moves spec tick q s s') :
    s.active = true ∧ s'.active = false ↔ s.Departed spec tick q := by
  refine ⟨fun ⟨hactive, hoff⟩ => ?_, fun hd => ?_⟩
  · cases h with
    | releases h => exact h
    | _ => exact absurd (hactive.symm.trans hoff) Bool.noConfusion
  · obtain ⟨hactive, harms, hlate, reference, href, candidate, hcand, hwindow, haway⟩ := hd
    refine ⟨hactive, ?_⟩
    cases h with
    | releases => rfl
    | off hoff => exact (hoff.resolve_right harms)
    | early hearly => exact absurd hearly (not_lt.mpr hlate)
    | waits _ _ hfree => cases hfree.symm.trans href
    | adopts h => cases h.free.symm.trans href
    | returns _ href' hnear =>
      cases href'.symm.trans href
      exact absurd haway hnear
    | leaves _ _ _ hnone => cases hnone.symm.trans hcand
    | stays _ _ _ hcand' hshort =>
      cases hcand'.symm.trans hcand
      exact absurd hwindow (Nat.not_le.mpr hshort)

theorem Moves.adopted_iff (h : Moves spec tick q s s') {reference : List K} :
    s.reference = none ∧ s'.reference = some reference ↔ s.Settled spec tick ∧ reference = spec.target q := by
  refine ⟨fun ⟨hfree, href⟩ => ?_, fun ⟨hs, hq⟩ => ⟨hs.free, ?_⟩⟩
  · cases h with
    | adopts h => exact ⟨h, (Option.some.inj href).symm⟩
    | _ => cases hfree.symm.trans href
  · subst hq
    cases h with
    | adopts => rfl
    | off hoff => exact absurd hoff (not_or.mpr ⟨by simp [hs.active], hs.arms⟩)
    | early hearly => exact absurd hearly (not_lt.mpr hs.late)
    | waits h => exact absurd hs h
    | returns _ href => cases hs.free.symm.trans href
    | leaves _ href => cases hs.free.symm.trans href
    | stays _ href => cases hs.free.symm.trans href
    | releases h =>
      obtain ⟨reference, href, -⟩ := h.away
      cases hs.free.symm.trans href

theorem Moves.stays_off (h : Moves spec tick q s s') (hs : s.active = false) : s'.active = false := by
  cases h with
  | off => exact hs
  | releases => rfl
  | adopts h => cases hs.symm.trans h.active
  | _ => simp_all

end PoseHold

/-! ### What an episode keeps -/

variable {spec : HoldSpec K} {es : List (HoldTick K)} {s s' : PoseHold K} {setpoint : Option (List K)} {q : List K}

/-- A candidate is the tick from which on every setpoint that came was away from the reference. -/
structure Leaving (spec : HoldSpec K) (es : List (HoldTick K)) (reference : List K) (candidate : Nat) : Prop where
  past : candidate < es.length
  adopted : ∃ z ∈ es.drop (es.length - candidate), z.Adopts reference
  away : ∀ w ∈ es.take (es.length - candidate), ∀ q ∈ w.setpoint, armHoldReleaseRad < setpointDelta (spec.target q) reference

/-- The hold after the ticks of an episode. -/
structure Holding (spec : HoldSpec K) (es : List (HoldTick K)) (s : PoseHold K) : Prop where
  late : s.reference.isSome = true → armHoldMinSeconds ≤ es.length * spec.physicsDt
  arms : s.active = true → spec.armTargetIndices ≠ []
  ended : ∀ y ∈ es, y.after.active = false → s.active = false
  filled : s.active = true → s.reference = none → s.history.length ≤ (armSetpoints spec es).length
  adopted : ∀ reference ∈ s.reference, ∃ z ∈ es, z.Adopts reference
  leaving : s.active = true → ∀ reference ∈ s.reference, ∀ candidate ∈ s.releaseCandidate,
    Leaving spec es reference candidate

/-- What is recorded of a tick. -/
def holdTick (es : List (HoldTick K)) (setpoint : Option (List K)) (s s' : PoseHold K) : HoldTick K :=
  ⟨es.length, setpoint, s, s'⟩

omit [FloorRing K] in
theorem Leaving.grow {reference : List K} {candidate : Nat} (h : Leaving spec es reference candidate)
    (hq : ∀ q ∈ setpoint, armHoldReleaseRad < setpointDelta (spec.target q) reference) :
    Leaving spec (holdTick es setpoint s s' :: es) reference candidate := by
  have hlen : (holdTick es setpoint s s' :: es).length - candidate = es.length - candidate + 1 := by
    have := h.past
    simp only [List.length_cons]
    omega
  refine ⟨Nat.lt_succ_of_lt h.past, ?_, ?_⟩
  · rw [hlen, List.drop_succ_cons]
    exact h.adopted
  · rw [hlen, List.take_succ_cons]
    intro w hw
    rcases List.mem_cons.mp hw with rfl | hw
    · exact hq
    · exact h.away w hw

omit [Field K] [LinearOrder K] [FloorRing K] in
theorem push_length (limit : Nat) (target : List K) (history : List (List K)) :
    (PoseHold.push limit target history).length ≤ history.length + 1 := by
  unfold PoseHold.push
  split <;> simp

variable [IsStrictOrderedRing K]

omit [FloorRing K] in
theorem later_still (spec : HoldSpec K) {n : Nat} (h : armHoldMinSeconds ≤ n * spec.physicsDt) :
    armHoldMinSeconds ≤ (n + 1 : Nat) * spec.physicsDt :=
  h.trans (mul_le_mul_of_nonneg_right (Nat.cast_le.mpr (Nat.le_succ n)) spec.dt_positive.le)

omit [FloorRing K] in
theorem Holding.silent (h : Holding spec es s) : Holding spec (holdTick es none s s :: es) s := by
  refine ⟨fun hr => later_still spec (h.late hr), h.arms, ?_, fun hs hr => h.filled hs hr, ?_, ?_⟩
  · rintro y hy hoff
    rcases List.mem_cons.mp hy with rfl | hy
    · exact hoff
    · exact h.ended y hy hoff
  · intro reference hr
    obtain ⟨z, hz, ha⟩ := h.adopted reference hr
    exact ⟨z, List.mem_cons_of_mem _ hz, ha⟩
  · intro hs reference hr candidate hc
    exact (h.leaving hs reference hr candidate hc).grow (by simp)

theorem Holding.moves (h : Holding spec es s) (hm : s.Moves spec es.length q s') :
    Holding spec (holdTick es (some q) s s' :: es) s' := by
  have hended : ∀ y ∈ holdTick es (some q) s s' :: es, y.after.active = false → s'.active = false := by
    intro y hy hoff
    rcases List.mem_cons.mp hy with rfl | hy
    · exact hoff
    · exact hm.stays_off (h.ended y hy hoff)
  have hadopted : ∀ reference ∈ s.reference, ∃ z ∈ holdTick es (some q) s s' :: es, z.Adopts reference := by
    intro reference hr
    obtain ⟨z, hz, ha⟩ := h.adopted reference hr
    exact ⟨z, List.mem_cons_of_mem _ hz, ha⟩
  have hlate : s.reference.isSome = true → armHoldMinSeconds ≤ (es.length + 1 : Nat) * spec.physicsDt :=
    fun hr => later_still spec (h.late hr)
  have hlen : (armSetpoints spec (holdTick es (some q) s s' :: es)).length = (armSetpoints spec es).length + 1 := by
    simp [armSetpoints, holdTick]
  cases hm with
  | off hoff =>
    refine ⟨hlate, h.arms, hended, fun hs hr => ?_, hadopted, fun hs => ?_⟩
    · rw [hlen]
      exact Nat.le_succ_of_le (h.filled hs hr)
    · exact absurd hoff (not_or.mpr ⟨by simp [hs], h.arms hs⟩)
  | early hearly hactive =>
    refine ⟨hlate, h.arms, hended, fun _ _ => by simp [hlen], hadopted, fun _ reference hr => ?_⟩
    exact absurd hearly (not_lt.mpr (h.late (Option.isSome_of_mem hr)))
  | waits hset hactive hfree =>
    refine ⟨hlate, h.arms, hended, fun hs hr => ?_, hadopted, fun _ reference hr => ?_⟩
    · rw [hlen]
      exact (push_length _ _ _).trans (Nat.succ_le_succ (h.filled hs hr))
    · cases hfree.symm.trans hr
  | adopts hset =>
    refine ⟨fun _ => later_still spec hset.late, h.arms, hended, fun _ hr => ?_, fun reference hr => ?_,
      fun _ _ _ candidate hc => ?_⟩
    · cases hr
    · exact ⟨_, List.mem_cons_self, hset.free, hr⟩
    · cases hc
  | returns hactive href hnear =>
    refine ⟨hlate, h.arms, hended, fun _ hr => ?_, hadopted, fun _ _ _ candidate hc => ?_⟩
    · cases hr.symm.trans href
    · cases hc
  | leaves hactive href haway hnone =>
    refine ⟨hlate, h.arms, hended, fun _ hr => ?_, hadopted, fun _ reference hr candidate hc => ?_⟩
    · cases hr.symm.trans href
    · cases hc
      cases hr.symm.trans href
      have hone : (holdTick es (some q) s { s with releaseCandidate := some es.length } :: es).length - es.length = 1 := by
        simp
      refine ⟨Nat.lt_succ_self _, ?_, ?_⟩
      · rw [hone]
        exact h.adopted _ href
      · rw [hone]
        intro w hw q' hq'
        obtain rfl : w = _ := by simpa using hw
        cases hq'
        exact haway
  | stays hactive href haway hcand hshort =>
    refine ⟨hlate, h.arms, hended, fun _ hr => ?_, hadopted, fun hs reference hr candidate hc => ?_⟩
    · cases hr.symm.trans href
    · cases hr.symm.trans href
      refine (h.leaving hs _ href _ hc).grow fun q' hq' => ?_
      cases hq'
      exact haway
  | releases hd =>
    exact ⟨hlate, fun hs => Bool.noConfusion hs, hended, fun hs => Bool.noConfusion hs, hadopted,
      fun hs => Bool.noConfusion hs⟩

/-! ### The laws of a tick -/

omit [IsStrictOrderedRing K] in
theorem Holding.departure (h : Holding spec es s) (hd : s.Departed spec es.length q) :
    ∃ reference, Departure spec (holdTick es (some q) s s' :: es) reference := by
  obtain ⟨reference, hr, candidate, hc, hwindow, haway⟩ := hd.away
  have hleaving := h.leaving hd.active reference hr candidate hc
  refine ⟨reference, ?_, ?_⟩
  · obtain ⟨z, hz, ha⟩ := hleaving.adopted
    refine ⟨z, ?_, ha⟩
    rw [beforeWindow, List.drop_succ_cons]
    exact (List.drop_sublist_drop_left es hwindow).subset hz
  · intro w hw q' hq'
    rw [releaseWindow, List.take_succ_cons] at hw
    rcases List.mem_cons.mp hw with rfl | hw
    · cases hq'
      exact haway
    · exact hleaving.away w ((List.take_sublist_take_left hwindow).subset hw) q' hq'

omit [IsStrictOrderedRing K] in
theorem Holding.law (h : Holding spec es s) (hm : s.Moves spec es.length q s') :
    HoldLaw spec (holdTick es (some q) s s') es where
  once hr y hy hy' := Bool.noConfusion (hr.1.symm.trans (h.ended y hy hy'.2))
  stays y hy hoff := hm.stays_off (h.ended y hy hoff)
  minimum hr := (hm.released_iff.mp hr).late
  departs hr := h.departure (hm.released_iff.mp hr)

omit [IsStrictOrderedRing K] in
theorem Holding.law_silent (h : Holding spec es s) : HoldLaw spec (holdTick es none s s) es where
  once hr := Bool.noConfusion (hr.1.symm.trans hr.2)
  stays y hy hoff := h.ended y hy hoff
  minimum hr := Bool.noConfusion (hr.1.symm.trans hr.2)
  departs hr := Bool.noConfusion (hr.1.symm.trans hr.2)

/-- The setpoint that comes after a full and still window is near the newest of that window, and a release window
    has a setpoint at each tick. -/
structure SteadyCommands (spec : HoldSpec K) (x : HoldTick K) (earlier : List (HoldTick K)) : Prop where
  near : ∀ q ∈ x.setpoint, x.before.Settled spec x.tick →
    ∀ p ∈ (armSetpoints spec earlier).take (spec.historyTicks - 1), setpointDelta p (spec.target q) ≤ armHoldStableRad
  unbroken : ∀ q ∈ x.setpoint, x.before.Departed spec x.tick q →
    ∀ w ∈ earlier.take spec.releaseTicks, w.setpoint.isSome = true

omit [IsStrictOrderedRing K] in
instance (x : HoldTick K) (earlier : List (HoldTick K)) : Decidable (SteadyCommands spec x earlier) :=
  decidable_of_iff ((∀ q ∈ x.setpoint, x.before.Settled spec x.tick →
      ∀ p ∈ (armSetpoints spec earlier).take (spec.historyTicks - 1), setpointDelta p (spec.target q) ≤ armHoldStableRad) ∧
    (∀ q ∈ x.setpoint, x.before.Departed spec x.tick q → ∀ w ∈ earlier.take spec.releaseTicks, w.setpoint.isSome = true))
    ⟨fun ⟨h₁, h₂⟩ => ⟨h₁, h₂⟩, fun ⟨h₁, h₂⟩ => ⟨h₁, h₂⟩⟩

omit [FloorRing K] in
theorem setpointDelta_self (q : List K) : setpointDelta q q = 0 := by
  unfold setpointDelta
  induction q with
  | nil => rfl
  | cons x q ih => simpa using ih

omit [FloorRing K] in
theorem armHoldStableRad_nonneg : 0 ≤ (armHoldStableRad : K) := by norm_num [armHoldStableRad]

omit [IsStrictOrderedRing K] in
theorem stabilityWindow_cons (spec : HoldSpec K) (es : List (HoldTick K)) (s s' : PoseHold K) (q : List K) :
    stabilityWindow spec (holdTick es (some q) s s' :: es) =
      spec.target q :: (armSetpoints spec es).take (spec.historyTicks - 1) := by
  have hpos : spec.historyTicks = spec.historyTicks - 1 + 1 := by
    have : 2 ≤ spec.historyTicks := Nat.le_max_left ..
    omega
  rw [stabilityWindow, hpos]
  simp [armSetpoints, holdTick]

theorem Holding.steady_iff (h : Holding spec es s) (hm : s.Moves spec es.length q s') :
    SteadyReference spec (holdTick es (some q) s s') es ↔ (s.Settled spec es.length →
      ∀ p ∈ (armSetpoints spec es).take (spec.historyTicks - 1), setpointDelta p (spec.target q) ≤ armHoldStableRad) := by
  constructor
  · intro hsteady hset p hp
    refine (hsteady _ (hm.adopted_iff.mpr ⟨hset, rfl⟩)).2 p ?_
    rw [stabilityWindow_cons]
    exact List.mem_cons_of_mem _ hp
  · intro hnear reference hadopts
    obtain ⟨hset, rfl⟩ := hm.adopted_iff.mp hadopts
    refine ⟨?_, fun p hp => ?_⟩
    · have hfilled := hset.full.trans (h.filled hset.active hset.free)
      simpa [armSetpoints, holdTick] using Nat.le_succ_of_le hfilled
    · rw [stabilityWindow_cons] at hp
      rcases List.mem_cons.mp hp with rfl | hp
      · rw [setpointDelta_self]
        exact armHoldStableRad_nonneg
      · exact hnear hset p hp

omit [IsStrictOrderedRing K] in
theorem Holding.unbroken_iff (h : Holding spec es s) (hm : s.Moves spec es.length q s') :
    UnbrokenRelease spec (holdTick es (some q) s s') es ↔
      (s.Departed spec es.length q → ∀ w ∈ es.take spec.releaseTicks, w.setpoint.isSome = true) := by
  constructor
  · intro hunbroken hd w hw
    obtain ⟨reference, -, haway⟩ := hunbroken (hm.released_iff.mpr hd)
    obtain ⟨p, hp, -⟩ := haway w (by
      rw [releaseWindow, List.take_succ_cons]
      exact List.mem_cons_of_mem _ hw)
    exact Option.isSome_of_mem hp
  · intro hset hr
    have hd := hm.released_iff.mp hr
    obtain ⟨reference, hadopted, haway⟩ : ∃ reference, Departure spec (holdTick es (some q) s s' :: es) reference :=
      h.departure hd
    refine ⟨reference, hadopted, fun w hw => ?_⟩
    have hsome : w.setpoint.isSome = true := by
      rw [releaseWindow, List.take_succ_cons] at hw
      rcases List.mem_cons.mp hw with rfl | hw
      · rfl
      · exact hset hd w hw
    obtain ⟨p, hp⟩ := Option.isSome_iff_exists.mp hsome
    exact ⟨p, hp, haway w hw p hp⟩

/-- What the claim adds to the laws of a tick, exactly. -/
def HoldIff (spec : HoldSpec K) (x : HoldTick K) (earlier : List (HoldTick K)) : Prop :=
  UnbrokenRelease spec x earlier ∧ SteadyReference spec x earlier ↔ SteadyCommands spec x earlier

theorem Holding.iff (h : Holding spec es s) (hm : s.Moves spec es.length q s') :
    HoldIff spec (holdTick es (some q) s s') es := by
  rw [HoldIff, h.steady_iff hm, h.unbroken_iff hm]
  refine ⟨fun ⟨hunbroken, hnear⟩ => ⟨?_, ?_⟩, fun hc => ⟨hc.unbroken q rfl, hc.near q rfl⟩⟩
  · rintro _ ⟨⟩
    exact hnear
  · rintro _ ⟨⟩
    exact hunbroken

omit [IsStrictOrderedRing K] in
theorem Holding.iff_silent : HoldIff spec (holdTick es none s s) es := by
  refine ⟨fun _ => ⟨fun q hq => ?_, fun q hq => ?_⟩, fun _ => ⟨fun hr => ?_, fun reference ha => ?_⟩⟩
  · cases hq
  · cases hq
  · exact Bool.noConfusion (hr.1.symm.trans hr.2)
  · cases ha.1.symm.trans ha.2

omit [FloorRing K] [IsStrictOrderedRing K] in
theorem holding_rearm (spec : HoldSpec K) : Holding spec [] (PoseHold.rearm spec) := by
  refine ⟨fun hr => ?_, fun hs harms => ?_, fun y hy => ?_, fun _ _ => Nat.zero_le _, fun reference hr => ?_,
    fun _ reference hr => ?_⟩
  · cases hr
  · simp [PoseHold.rearm, HoldSpec.requested, harms] at hs
  · cases hy
  · cases hr
  · cases hr

/-- Every episode of every run. -/
theorem holding_reach {r : HoldRun K} (hr : (poseHoldMachine spec).Reach Machine.Free r) :
    (r.tick = r.episode.length ∧ Holding spec r.episode r.hold) ∧
      Each (fun x es => HoldLaw spec x es ∧ HoldIff spec x es) r.episode := by
  refine hr.invariant (I := fun r => (r.tick = r.episode.length ∧ Holding spec r.episode r.hold) ∧
    Each (fun x es => HoldLaw spec x es ∧ HoldIff spec x es) r.episode) ?_ ?_
  · rintro r rfl
    exact ⟨⟨rfl, holding_rearm spec⟩, trivial⟩
  · rintro ⟨tick, s, es⟩ a t - ⟨⟨htick, h⟩, hes⟩ - hstep
    obtain rfl : tick = es.length := htick
    cases a with
    | reset =>
      cases hstep
      exact ⟨⟨rfl, holding_rearm spec⟩, trivial⟩
    | tick setpoint =>
      cases setpoint with
      | none =>
        cases hstep
        exact ⟨⟨rfl, h.silent⟩, ⟨h.law_silent, Holding.iff_silent⟩, hes⟩
      | some q =>
        cases hstep
        have hm := PoseHold.update_moves spec es.length q s
        exact ⟨⟨rfl, h.moves hm⟩, ⟨h.law hm, h.iff hm⟩, hes⟩

/-- In every episode of every run the hold is released once at most, late enough, and away from its reference; each
    release window is unbroken and each reference steady exactly when the commands are. -/
theorem reset_pose_hold {r : HoldRun K} (hr : (poseHoldMachine spec).Reach Machine.Free r) :
    Each (HoldLaw spec) r.episode ∧
    (Each (fun x es => UnbrokenRelease spec x es ∧ SteadyReference spec x es) r.episode ↔
      Each (SteadyCommands spec) r.episode) := by
  obtain ⟨-, hes⟩ := holding_reach hr
  refine ⟨hes.mono fun _ _ h => h.1, fun h => ?_, fun h => ?_⟩
  · exact (hes.mono fun _ _ h => h.2.mp).imp h
  · exact (hes.mono fun _ _ h => h.2.mpr).imp h

/-! ### A run that misses the laws, and one that keeps them -/

/-- One joint is held, and a physics step is a twentieth of a second. -/
def elbowHold : HoldSpec ℚ := ⟨0.05, by norm_num, true, true, [0], [0]⟩

/-- The arm is told to stay, but for one tick where its window is full; then there are no commands for a while. -/
def spikedCommands : List (HoldInput ℚ) :=
  List.replicate 519 (.tick (some [0])) ++ [.tick (some [1]), .tick (some [0]), .tick none, .tick none, .tick none, .tick (some [0])]

/-- The spike is adopted as the reference, and the arm that stays is taken to have left it. -/
theorem spike_adopted : ∃ r, (poseHoldMachine elbowHold).run { hold := PoseHold.rearm elbowHold } spikedCommands = some r ∧
    ¬Each (UnbrokenRelease elbowHold) r.episode ∧ ¬Each (SteadyReference elbowHold) r.episode := by
  have hrun : ((poseHoldMachine elbowHold).run { hold := PoseHold.rearm elbowHold } spikedCommands).map (fun r =>
        decide ((∃ x ∈ r.episode.head?, x.before.active = true ∧ x.after.active = false) ∧
          (∃ w ∈ releaseWindow elbowHold r.episode, w.setpoint = none) ∧
          (∃ x ∈ (r.episode.drop 5).head?, x.before.reference = none ∧ x.after.reference = some [1]) ∧
          [0] ∈ stabilityWindow elbowHold (r.episode.drop 5))) = some true := by decide +kernel
  obtain ⟨r, hr, he⟩ := Option.map_eq_some_iff.mp hrun
  obtain ⟨⟨x, hx, hreleases⟩, ⟨w, hw, hnone⟩, ⟨y, hy, hadopts⟩, hzero⟩ := of_decide_eq_true he
  refine ⟨r, hr, fun h => ?_, fun h => ?_⟩
  · obtain ⟨es, hes⟩ := List.head?_eq_some_iff.mp hx
    rw [hes] at h hw
    obtain ⟨reference, -, haway⟩ := h.1 hreleases
    obtain ⟨q, hq, -⟩ := haway w hw
    cases hnone.symm.trans hq
  · obtain ⟨es, hes⟩ := List.head?_eq_some_iff.mp hy
    have hsteady := h.law ((List.take_append_drop 5 r.episode).symm.trans (congrArg _ hes))
    rw [hes] at hzero
    have hnear := (hsteady [1] hadopts).2 [0] hzero
    norm_num [setpointDelta, armHoldStableRad] at hnear

/-- The arm is told to stay for the window, and then to move and stay there. -/
def movedCommands : List (HoldInput ℚ) := List.replicate 520 (.tick (some [0])) ++ List.replicate 5 (.tick (some [1]))

theorem reset_pose_hold_moved : ∃ r, (poseHoldMachine elbowHold).run { hold := PoseHold.rearm elbowHold } movedCommands = some r ∧
    r.hold.releasedTick = some 524 ∧ Each (HoldLaw elbowHold) r.episode ∧
    Each (fun x es => UnbrokenRelease elbowHold x es ∧ SteadyReference elbowHold x es) r.episode := by
  have hrun : ((poseHoldMachine elbowHold).run { hold := PoseHold.rearm elbowHold } movedCommands).map (fun r =>
      (r.hold.releasedTick, decide (Each (SteadyCommands elbowHold) r.episode))) = some (some 524, true) := by decide +kernel
  obtain ⟨r, hr, he⟩ := Option.map_eq_some_iff.mp hrun
  obtain ⟨hreleased, hsteady⟩ := Prod.mk.inj he
  have hreach : (poseHoldMachine elbowHold).Reach Machine.Free r := ⟨_, rfl, Machine.path_of_run hr (Machine.meets_free _ _)⟩
  have hlaws := reset_pose_hold hreach
  exact ⟨r, hr, hreleased, hlaws.1, hlaws.2.mpr (of_decide_eq_true hsteady)⟩

end HumanoidLab
