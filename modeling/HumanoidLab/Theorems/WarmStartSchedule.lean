import HumanoidLab.Bridge.WarmStart
import Mathlib.Algebra.Order.Floor.Ring
import Mathlib.Data.Rat.Floor
import Mathlib.Tactic.NormNum

/-! The schedule of the warm-start stream. The rows published are always a prefix of the stream, held at its end; on a
    clock that does not go back their number is fixed by the last sample, whatever samples came before it. -/

namespace HumanoidLab
open Concurrency

variable {K : Type} [Field K] [LinearOrder K] [FloorRing K] {w : WarmStart K} {s t : WarmStartState K} {wall : K}

namespace WarmStart

/-- The rows that are out once a sample of an elapsed time has been worked off: none before the delay. -/
def count (w : WarmStart K) (elapsed : K) : Int := if w.delayS ≤ elapsed + clockTolerance then w.due elapsed + 1 else 0

/-- The rows of the last sample of the second loop. -/
def released (w : WarmStart K) (s : WarmStartState K) : Int := (s.sample.map fun x => w.count (x - s.originSimS)).getD 0

/-- The clock does not go back: no sample of the second loop is older than the one before it. -/
def Monotone (s : WarmStartState K) : WarmStartInput K → Prop
  | .poll (some a) _ => s.pc = .polling → s.sample.getD s.originSimS ≤ a.simS
  | _ => True

instance decidableMonotone (s : WarmStartState K) : ∀ a, Decidable (Monotone s a)
  | .poll (some a) _ => inferInstanceAs (Decidable (s.pc = .polling → s.sample.getD s.originSimS ≤ a.simS))
  | .poll none _ | .publish _ | .halt => .isTrue trivial

/-- What a stream keeps on a clock that does not go back. -/
structure Scheduled (w : WarmStart K) (s : WarmStartState K) : Prop where
  published : s.published.reverse = (List.range s.index).map fun i => (i, w.row i)
  bounded : (s.index : Int) ≤ w.released s
  settled : s.pc = .polling → s.stop = false → (s.index : Int) = w.released s
  due : ∀ due, s.pc = .publishing due → w.released s = due + 1
  waiting : s.pc = .waiting → s.sample = none

theorem due_nonneg [IsStrictOrderedRing K] (e : K) : 0 ≤ w.due e := by
  have htolerance : (0 : K) ≤ clockTolerance := by norm_num [clockTolerance]
  exact Int.floor_nonneg.mpr (add_nonneg (mul_nonneg (le_max_left _ _) w.rate_positive.le) htolerance)

theorem count_mono [IsStrictOrderedRing K] {e e' : K} (h : e ≤ e') : w.count e ≤ w.count e' := by
  have hdue : w.due e ≤ w.due e' := by
    have hrate := w.rate_positive.le
    unfold due
    gcongr
  unfold count
  split
  · rename_i hdelay
    rw [if_pos (hdelay.trans (by gcongr))]
    omega
  · have := due_nonneg (w := w) e'
    split <;> omega

/-! ### What a step keeps -/

omit [FloorRing K] in
theorem await_cases (read : Option (ClockSample K)) (s : WarmStartState K) :
    (∃ error, await read wall s = { s with pc := .ended, error }) ∨ await read wall s = s ∨
      ∃ a : ClockSample K, await read wall s =
        { s with pc := .polling, originSimS := a.simS, last := a.simS, lastAdvanceWall := wall } := by
  unfold await
  split
  · exact .inl ⟨_, rfl⟩
  · split
    · exact .inl ⟨_, rfl⟩
    · split
      · exact .inr (.inr ⟨_, rfl⟩)
      · exact .inr (.inl rfl)

theorem follow_cases (read : Option (ClockSample K)) (s : WarmStartState K) :
    (∃ error, w.follow read wall s = { s with pc := .ended, error }) ∨ w.follow read wall s = s ∨
      ∃ a lastAdvanceWall last, read = some a ∧ w.follow read wall s = { s with
        lastAdvanceWall, last, sample := some a.simS
        pc := if w.delayS ≤ a.simS - s.originSimS + clockTolerance then .publishing (w.due (a.simS - s.originSimS)) else .polling } := by
  unfold follow
  split
  · exact .inl ⟨_, rfl⟩
  · split
    · split
      · exact .inl ⟨_, rfl⟩
      · exact .inr (.inl rfl)
    · rename_i a
      split
      · exact .inl ⟨_, rfl⟩
      · split
        · exact .inl ⟨_, rfl⟩
        · refine .inr (.inr ?_)
          by_cases hadvance : s.last + clockTolerance < a.simS
          · exact ⟨a, wall, a.simS, rfl, by simp only [if_pos hadvance]⟩
          · exact ⟨a, s.lastAdvanceWall, s.last, rfl, by simp only [if_neg hadvance]⟩

theorem Scheduled.end (h : Scheduled w s) (error : Option String) : Scheduled w { s with pc := .ended, error } :=
  ⟨h.published, h.bounded, by simp, by simp, by simp⟩

theorem Scheduled.await (h : Scheduled w s) (hpc : s.pc = .waiting) (read : Option (ClockSample K)) :
    Scheduled w (await read wall s) := by
  rcases await_cases read s with ⟨error, heq⟩ | heq | ⟨a, heq⟩
  · exact heq ▸ h.end error
  · rwa [heq]
  · rw [heq]
    have hsample := h.waiting hpc
    have hbounded := h.bounded
    simp only [released, hsample, Option.map_none, Option.getD_none] at hbounded
    refine ⟨h.published, ?_, ?_, by simp, by simp⟩
    · simpa [released, hsample] using hbounded
    · intro _ _
      simp only [released, hsample, Option.map_none, Option.getD_none]
      omega

section
variable [IsStrictOrderedRing K]

theorem Scheduled.follow (h : Scheduled w s) (hpc : s.pc = .polling) {read : Option (ClockSample K)}
    (hmono : Monotone s (.poll read wall)) : Scheduled w (w.follow read wall s) := by
  rcases follow_cases read s with ⟨error, heq⟩ | heq | ⟨a, lastAdvanceWall, last, rfl, heq⟩
  · exact heq ▸ h.end error
  · rwa [heq]
  · rw [heq]
    -- The rows of the new sample are at least those of the one before.
    have hgrow : w.released s ≤ w.count (a.simS - s.originSimS) := by
      have hle : s.sample.getD s.originSimS ≤ a.simS := hmono hpc
      unfold released
      cases hsample : s.sample with
      | none =>
        have := due_nonneg (w := w) (a.simS - s.originSimS)
        simp only [Option.map_none, Option.getD_none, count]
        split <;> omega
      | some x =>
        rw [hsample] at hle
        exact count_mono (sub_le_sub_right hle _)
    have hbounded := h.bounded
    refine ⟨h.published, hbounded.trans hgrow, fun hpolling hstop => ?_, fun due hdue => ?_, fun hwaiting => ?_⟩
    · -- Before the delay nothing is out, and nothing was.
      have hsettled := h.settled hpc hstop
      have hcount : w.count (a.simS - s.originSimS) = 0 := by
        refine if_neg fun hdelay => ?_
        rw [if_pos hdelay] at hpolling
        cases hpolling
      simp only [released, Option.map_some, Option.getD_some, hcount]
      omega
    · have hdelay : w.delayS ≤ a.simS - s.originSimS + clockTolerance := by
        by_contra hn
        rw [if_neg hn] at hdue
        cases hdue
      rw [if_pos hdelay] at hdue
      cases hdue
      exact if_pos hdelay
    · split at hwaiting <;> cases hwaiting

end

theorem Scheduled.publish (h : Scheduled w s) {due : Int} (hpc : s.pc = .publishing due) (answer : Option Bool) :
    Scheduled w (w.publish due answer s) := by
  have hdue := h.due due hpc
  have hbounded := h.bounded
  unfold WarmStart.publish
  split
  · rename_i hgo
    cases answer with
    | none => exact h.end s.error
    | some accepted =>
      refine ⟨?_, ?_, ?_, h.due, ?_⟩
      · simp [publishIndex, h.published, List.range_succ]
      · have := hgo.1
        simp only [publishIndex, released] at hdue ⊢
        omega
      · simp [publishIndex, hpc]
      · simp [publishIndex, hpc]
  · rename_i hstay
    refine ⟨h.published, hbounded, fun _ hstop => ?_, by simp, by simp⟩
    have hdone : ¬(s.index : Int) ≤ due := fun hle => hstay ⟨hle, hstop⟩
    simp only [released] at hdue hbounded ⊢
    omega

variable [IsStrictOrderedRing K]

theorem scheduled_reach (h : w.machine.Reach Monotone s) : Scheduled w s := by
  refine h.invariant ?_ fun s a t _ hs hmono hstep => ?_
  · rintro s ⟨hpc, hsample, hindex, hpublished, -⟩
    refine ⟨by simp [hpublished, hindex], ?_, by simp [hpc], by simp [hpc], fun _ => hsample⟩
    simp [released, hsample, hindex]
  · cases a with
    | poll read wall =>
      simp only [machine] at hstep
      split at hstep
      · obtain rfl := Option.some.inj hstep
        exact hs.await ‹_› read
      · obtain rfl := Option.some.inj hstep
        exact hs.follow ‹_› hmono
      · cases hstep
    | publish answer =>
      simp only [machine] at hstep
      split at hstep
      · obtain rfl := Option.some.inj hstep
        exact hs.publish ‹_› answer
      · cases hstep
    | halt =>
      obtain rfl := Option.some.inj hstep
      exact ⟨hs.published, hs.bounded, by simp, hs.due, hs.waiting⟩

/-! ### The end -/

omit [IsStrictOrderedRing K] in
/-- A stream that has ended publishes nothing more. -/
theorem ended_stays (h : w.machine.Path Machine.Free s t) (hended : s.pc = .ended) :
    t.pc = .ended ∧ t.published = s.published := by
  refine h.keeps (I := fun t => t.pc = .ended ∧ t.published = s.published) ⟨hended, rfl⟩ fun t a u _ hI _ hstep => ?_
  cases a with
  | poll read wall => simp [machine, hI.1] at hstep
  | publish answer => simp [machine, hI.1] at hstep
  | halt =>
    obtain rfl := Option.some.inj hstep
    exact hI

/-- On a clock that does not go back the rows published are the first ones, as many as the last sample makes due and none
    before the delay; a sample that lies behind the last advance ends the stream. -/
theorem warm_start_schedule (h : w.machine.Reach Monotone s) :
    s.published.reverse = (List.range s.index).map (fun i => (i, w.row i)) ∧
      (s.pc = .polling → s.stop = false → ∀ x ∈ s.sample, w.delayS ≤ x - s.originSimS + clockTolerance →
        (s.index : Int) = ⌊max 0 (x - s.originSimS - w.delayS) * w.controlHz + clockTolerance⌋ + 1) ∧
      (s.index ≠ 0 → ∃ x ∈ s.sample, w.delayS ≤ x - s.originSimS + clockTolerance) ∧
      ∀ (a : ClockSample K) wall t, s.pc = .polling → a.simS < s.last - clockTolerance →
        w.machine.step s (.poll (some a) wall) = some t → ∀ u, w.machine.Path Machine.Free t u →
          u.pc = .ended ∧ u.published = s.published := by
  have hs := scheduled_reach h
  refine ⟨hs.published, fun hpc hstop x hx hdelay => ?_, fun hindex => ?_, fun a wall t hpc hback hstep u hpath => ?_⟩
  · rw [hs.settled hpc hstop, released, Option.mem_def.mp hx]
    exact if_pos hdelay
  · have hbounded := hs.bounded
    unfold released at hbounded
    cases hsample : s.sample with
    | none =>
      rw [hsample] at hbounded
      simp only [Option.map_none, Option.getD_none] at hbounded
      omega
    | some x =>
      refine ⟨x, rfl, by_contra fun hn => ?_⟩
      rw [hsample, Option.map_some, Option.getD_some, count, if_neg hn] at hbounded
      omega
  · have ht : t.pc = .ended ∧ t.published = s.published := by
      simp only [machine, hpc] at hstep
      obtain rfl := Option.some.inj hstep
      unfold follow
      split
      · exact ⟨rfl, rfl⟩
      · simp only [if_pos hback]
        exact ⟨rfl, rfl⟩
    exact ht.2 ▸ ended_stays hpath ht.1

end WarmStart

/-! ### A stream of one row -/

def restRow : StreamRow ℚ := ⟨List.replicate 64 0, List.replicate 7 0, List.replicate 7 0⟩

/-- One row, held from a second after the origin on. -/
def heldRow : WarmStart ℚ where
  rows := [restRow]
  controlHz := 50
  delayS := 1
  clockTimeoutS := 5
  rows_nonempty := List.cons_ne_nil _ _
  rate_positive := by decide +kernel
  delay_nonneg := by decide +kernel

/-- The state before the origin wait, five seconds before its deadline. -/
def armed : WarmStartState ℚ := { baseline := none, freshDeadline := 5, originSimS := 0, last := 0, lastAdvanceWall := 0 }

/-- The state after an origin of zero, and a sample of the time `x` with its row. -/
def afterFirstRow (x : ℚ) : WarmStartState ℚ :=
  { armed with
    pc := .polling, last := x, sample := some x, lastAdvanceWall := 1, index := 1, published := [(0, restRow)], sent := 1 }

/-- The clock starts at zero, and its next sample makes one row due. -/
def firstRow (x : ℚ) : List (WarmStartInput ℚ) :=
  [.poll (some ⟨0, 1⟩) 0, .poll (some ⟨x, 2⟩) 1, .publish (some true), .publish (some true)]

theorem first_row_reach {x : ℚ} (hrun : heldRow.machine.run armed (firstRow x) = some (afterFirstRow x))
    (hmono : heldRow.machine.Meets WarmStart.Monotone armed (firstRow x)) :
    heldRow.machine.Reach WarmStart.Monotone (afterFirstRow x) :=
  ⟨armed, ⟨rfl, rfl, rfl, rfl, rfl, rfl, rfl⟩, Machine.path_of_run hrun hmono⟩

def raisedRow : StreamRow ℚ := ⟨List.replicate 64 1, List.replicate 7 0, List.replicate 7 0⟩

/-- Two rows, the second held. -/
def twoRows : WarmStart ℚ where
  rows := [restRow, raisedRow]
  controlHz := 50
  delayS := 1
  clockTimeoutS := 5
  rows_nonempty := List.cons_ne_nil _ _
  rate_positive := by decide +kernel
  delay_nonneg := by decide +kernel

/-- The first row goes out a second after the origin, and the next sample is 50 ms later. -/
def catchUp : List (WarmStartInput ℚ) :=
  [.poll (some ⟨0, 1⟩) 0, .poll (some ⟨1, 2⟩) 1, .publish (some true), .publish (some true), .poll (some ⟨1.05, 3⟩) 2,
    .publish (some true), .publish (some true), .publish (some true)]

def caughtUp : WarmStartState ℚ :=
  { armed with
    pc := .polling, last := 1.05, sample := some 1.05, lastAdvanceWall := 2, index := 3
    published := [(2, raisedRow), (1, raisedRow), (0, restRow)], sent := 3 }

/-- The late sample makes two more rows due, of which the second is the held one. -/
theorem warm_start_schedule_held : caughtUp.published.reverse = (List.range 3).map (fun i => (i, twoRows.row i)) ∧
    (caughtUp.index : Int) = ⌊max 0 (1.05 - 0 - twoRows.delayS) * twoRows.controlHz + clockTolerance⌋ + 1 := by
  have hrun : twoRows.machine.run armed catchUp = some caughtUp := by decide +kernel
  have hmono : twoRows.machine.Meets WarmStart.Monotone armed catchUp := by decide +kernel
  have h := WarmStart.warm_start_schedule (s := caughtUp) ⟨armed, ⟨rfl, rfl, rfl, rfl, rfl, rfl, rfl⟩, Machine.path_of_run hrun hmono⟩
  exact ⟨h.1, h.2.1 rfl rfl 1.05 rfl (by decide +kernel)⟩

/-- A sample just short of the delay publishes the first row, and a small step back does not end the stream. -/
theorem first_row_before_delay : ∃ (s : WarmStartState ℚ) (x : ℚ), heldRow.machine.Reach WarmStart.Monotone s ∧
    s.published = [(0, restRow)] ∧ s.sample = some x ∧ x - s.originSimS < heldRow.delayS ∧
    ∃ (a : ClockSample ℚ) (wall : ℚ) (t : WarmStartState ℚ), a.simS < x ∧
      heldRow.machine.step s (.poll (some a) wall) = some t ∧ t.pc ≠ .ended := by
  have hreach : heldRow.machine.Reach WarmStart.Monotone (afterFirstRow (1 - 1e-9)) :=
    first_row_reach (by decide +kernel) (by decide +kernel)
  refine ⟨_, 1 - 1e-9, hreach, rfl, rfl, by decide +kernel, ⟨1 - 1.5e-9, 3⟩, 1,
    { afterFirstRow (1 - 1e-9) with sample := some (1 - 1.5e-9) }, by decide +kernel, by decide +kernel, by decide⟩

end HumanoidLab
