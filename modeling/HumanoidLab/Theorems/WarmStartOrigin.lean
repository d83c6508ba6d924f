import HumanoidLab.Bridge.WarmStart
import Mathlib.Algebra.Order.Ring.Rat
import Mathlib.Data.List.ReduceOption
import Mathlib.Data.Rat.Floor
import Mathlib.Tactic.Linarith
import Mathlib.Tactic.NormNum

/-! The origin of the warm-start stream. The wait tells the time after a reset from the time before by the baseline alone:
    a small baseline admits every new sample, and a larger one only samples below it, which the clock of a new episode
    leaves behind when it is read late. -/

namespace HumanoidLab
open Concurrency

variable {K : Type} [Field K] [LinearOrder K]

/-- The writes of a clock file from the baseline on, the write 0, with one reset: `reset` is the first write after it. -/
structure ResetTrace (K : Type) [LE K] where
  simS : Nat → K
  reset : Nat
  baseline_before : 0 < reset
  before : ∀ i j, i ≤ j → j < reset → simS i ≤ simS j
  after : ∀ i j, reset ≤ i → i ≤ j → simS i ≤ simS j

namespace ResetTrace

variable (τ : ResetTrace K)

def sample (n : Nat) : ClockSample K := ⟨τ.simS n, n⟩

/-- What the origin wait takes from the writes that its reads find, a read that finds none being one of no sample. -/
def origin (polls : List (Option Nat)) : Option (ClockSample K) :=
  awaitOrigin (some (τ.sample 0)) (polls.map (·.map τ.sample))

/-- The origin is of the time after the reset, and there is one if a sample of that time is read before the deadline. -/
def FindsOrigin (polls : List (Option Nat)) : Prop :=
  (∀ start ∈ τ.origin polls, τ.reset ≤ start.revision) ∧
    ((∃ n, some n ∈ polls ∧ τ.reset ≤ n) → (τ.origin polls).isSome)

/-- With a small baseline the first new sample that is read is of the time after the reset; with a larger one the first
    sample of that time lies below the baseline. -/
def Telling (polls : List (Option Nat)) : Prop :=
  if τ.simS 0 ≤ smallBaseline then ∀ n ∈ (polls.reduceOption.filter (0 < ·)).head?, τ.reset ≤ n
  else ∀ n ∈ (polls.reduceOption.filter (τ.reset ≤ ·)).head?, τ.simS n < τ.simS 0 - clockTolerance

end ResetTrace

/-- The origin wait takes the first sample that it accepts. -/
theorem awaitOrigin_eq (baseline : Option (ClockSample K)) (reads : List (Option (ClockSample K))) :
    awaitOrigin baseline reads = reads.reduceOption.find? (·.accepts baseline) := by
  induction reads with
  | nil => rfl
  | cons read reads ih =>
    cases read with
    | none => simpa [awaitOrigin] using ih
    | some sample =>
      cases haccepts : sample.accepts baseline <;> simp [awaitOrigin, Option.filter, haccepts, ih]

namespace ResetTrace

variable {τ : ResetTrace K} {polls : List (Option Nat)} {n : Nat}

theorem accepts_iff : (τ.sample n).accepts (some (τ.sample 0)) = true ↔
    0 < n ∧ (τ.simS 0 ≤ smallBaseline ∨ τ.simS n < τ.simS 0 - clockTolerance) := by
  rw [ClockSample.accepts, Bool.and_eq_true, decide_eq_true_iff, Option.all_some, Bool.or_eq_true, decide_eq_true_iff,
    decide_eq_true_iff]
  simp [sample, Nat.pos_iff_ne_zero]

/-- The origin is the first write that is read and accepted. -/
theorem mem_origin {start : ClockSample K} : start ∈ τ.origin polls ↔ ∃ n,
    n ∈ polls.reduceOption.find? (fun n => (τ.sample n).accepts (some (τ.sample 0))) ∧ τ.sample n = start := by
  rw [origin, awaitOrigin_eq, List.reduceOption_map, List.find?_map]
  simp [Function.comp_def]

theorem isSome_origin : (τ.origin polls).isSome ↔
    ∃ n, some n ∈ polls ∧ (τ.sample n).accepts (some (τ.sample 0)) = true := by
  rw [origin, awaitOrigin_eq, List.reduceOption_map, List.find?_map]
  simp [Function.comp_def, List.reduceOption_mem_iff]

/-- With a small baseline the origin is the first new sample that is read. -/
theorem small_iff (hsmall : τ.simS 0 ≤ smallBaseline) :
    τ.FindsOrigin polls ↔ ∀ n ∈ (polls.reduceOption.filter (0 < ·)).head?, τ.reset ≤ n := by
  have haccepts : ∀ n, (τ.sample n).accepts (some (τ.sample 0)) = decide (0 < n) := fun n => by
    rw [Bool.eq_iff_iff, accepts_iff, decide_eq_true_iff]
    exact and_iff_left (.inl hsmall)
  have hfound : (∃ n, some n ∈ polls ∧ τ.reset ≤ n) → (τ.origin polls).isSome := fun ⟨n, hn, hreset⟩ =>
    isSome_origin.mpr ⟨n, hn, (haccepts n).trans (decide_eq_true (τ.baseline_before.trans_le hreset))⟩
  rw [FindsOrigin, and_iff_left hfound, List.head?_filter]
  simp only [mem_origin, haccepts]
  constructor
  · intro h n hn
    exact h _ ⟨n, hn, rfl⟩
  · rintro h start ⟨n, hn, rfl⟩
    exact h n hn

/-- With a larger baseline only samples of the time after the reset are taken, and those only below the baseline. -/
theorem large_iff [IsStrictOrderedRing K] (hlarge : ¬τ.simS 0 ≤ smallBaseline) (hpolls : polls.reduceOption.Pairwise (· ≤ ·)) :
    τ.FindsOrigin polls ↔
      ∀ n ∈ (polls.reduceOption.filter (τ.reset ≤ ·)).head?, τ.simS n < τ.simS 0 - clockTolerance := by
  have htolerance : (0 : K) ≤ clockTolerance := by norm_num [clockTolerance]
  have hafter : ∀ n, (τ.sample n).accepts (some (τ.sample 0)) = true →
      τ.reset ≤ n ∧ τ.simS n < τ.simS 0 - clockTolerance := fun n hn => by
    obtain ⟨-, hback⟩ := accepts_iff.mp hn
    have hback := hback.resolve_left hlarge
    refine ⟨not_lt.mp fun hbefore => ?_, hback⟩
    exact absurd (τ.before 0 n (Nat.zero_le n) hbefore) (not_le.mpr (hback.trans_le (sub_le_self _ htolerance)))
  have htrue : ∀ start ∈ τ.origin polls, τ.reset ≤ start.revision := fun start hstart => by
    obtain ⟨n, hn, rfl⟩ := mem_origin.mp hstart
    exact (hafter n (List.find?_some (p := fun n => (τ.sample n).accepts (some (τ.sample 0))) hn)).1
  rw [FindsOrigin, and_iff_right htrue, isSome_origin]
  constructor
  · intro h m hm
    obtain ⟨rest, hrest⟩ : ∃ rest, polls.reduceOption.filter (τ.reset ≤ ·) = m :: rest := by
      cases hfilter : polls.reduceOption.filter (τ.reset ≤ ·) with
      | nil => simp [hfilter] at hm
      | cons k rest =>
        rw [hfilter] at hm
        exact ⟨rest, by rw [Option.some.inj hm]⟩
    have hmem : m ∈ polls.reduceOption.filter (τ.reset ≤ ·) := hrest ▸ List.mem_cons_self
    obtain ⟨hread, hreset⟩ := List.mem_filter.mp hmem
    have hreset : τ.reset ≤ m := of_decide_eq_true hreset
    obtain ⟨n, hn, haccepts⟩ := h ⟨m, List.reduceOption_mem_iff.mp hread, hreset⟩
    obtain ⟨hn', hbelow⟩ := hafter n haccepts
    -- The first write after the reset that is read is no later than the one taken.
    have hle : m ≤ n := by
      have hin : n ∈ m :: rest := hrest ▸ List.mem_filter.mpr ⟨List.reduceOption_mem_iff.mpr hn, decide_eq_true hn'⟩
      rcases List.mem_cons.mp hin with rfl | hin
      · exact le_rfl
      · exact (List.pairwise_cons.mp (hrest ▸ hpolls.filter _)).1 n hin
    exact (τ.after m n hreset hle).trans_lt hbelow
  · rintro h ⟨n, hn, hreset⟩
    have hin : n ∈ polls.reduceOption.filter (τ.reset ≤ ·) :=
      List.mem_filter.mpr ⟨List.reduceOption_mem_iff.mpr hn, decide_eq_true hreset⟩
    obtain ⟨m, hm⟩ := Option.isSome_iff_exists.mp (List.isSome_head?.mpr (List.ne_nil_of_mem hin))
    obtain ⟨hread, hm'⟩ := List.mem_filter.mp (List.mem_of_head? hm)
    exact ⟨m, List.reduceOption_mem_iff.mp hread,
      accepts_iff.mpr ⟨τ.baseline_before.trans_le (of_decide_eq_true hm'), .inr (h m hm)⟩⟩

/-- The wait finds an origin after the reset exactly when the first sample that it can tell is of that time. -/
theorem warm_start_origin [IsStrictOrderedRing K] (hpolls : polls.reduceOption.Pairwise (· ≤ ·)) :
    τ.FindsOrigin polls ↔ τ.Telling polls := by
  unfold Telling
  split
  · exact small_iff ‹_›
  · exact large_iff ‹_› hpolls

/-! ### The wait as the stream runs it -/

section
variable [FloorRing K] {w : WarmStart K} {s : WarmStartState K}

/-- A stream that waits for its origin passes over the reads that it does not accept, and starts at the first other one. -/
theorem await_run (hpc : s.pc = .waiting) (hstop : s.stop = false) {reads : List (Option (ClockSample K) × K)}
    (hin : ∀ r ∈ reads, r.2 < s.freshDeadline) :
    (awaitOrigin s.baseline (reads.map (·.1)) = none →
        w.machine.run s (reads.map fun r => .poll r.1 r.2) = some s) ∧
      ∀ start, awaitOrigin s.baseline (reads.map (·.1)) = some start → ∃ taken rest wall t, reads = taken ++ rest ∧
        w.machine.run s (taken.map fun r => .poll r.1 r.2) = some t ∧
        t = { s with pc := .polling, originSimS := start.simS, last := start.simS, lastAdvanceWall := wall } := by
  induction reads with
  | nil => exact ⟨fun _ => rfl, fun start h => by cases h⟩
  | cons r reads ih =>
    obtain ⟨read, wall⟩ := r
    obtain ⟨hnone, hsome⟩ := ih fun r hr => hin r (List.mem_cons_of_mem _ hr)
    have hwall : ¬s.freshDeadline ≤ wall := not_le.mpr (hin (read, wall) List.mem_cons_self)
    have hstep : w.machine.step s (.poll read wall) = some (WarmStart.await read wall s) := by
      simp only [WarmStart.machine, hpc]
    cases hfound : read.filter (·.accepts s.baseline) with
    | some a =>
      refine ⟨fun h => ?_, fun start h => ?_⟩
      · simp [awaitOrigin, hfound] at h
      · obtain rfl : a = start := by simpa [awaitOrigin, hfound] using h
        refine ⟨[(read, wall)], reads, wall, _, rfl, ?_, rfl⟩
        simp [hstep, WarmStart.await, hstop, hwall, hfound]
    | none =>
      have hstay : w.machine.step s (.poll read wall) = some s := by
        simp [hstep, WarmStart.await, hstop, hwall, hfound]
      simp only [List.map_cons, awaitOrigin, hfound, Machine.run_cons, hstay, Option.bind_some]
      refine ⟨hnone, fun start h => ?_⟩
      obtain ⟨taken, rest, wall', t, rfl, hrun, ht⟩ := hsome start h
      exact ⟨(read, wall) :: taken, rest, wall', t, rfl, by simp [hstay, hrun], ht⟩

end

/-! ### A baseline of two seconds -/

/-- The clock is reset after two seconds, and the file is read again when half a second more has gone by. -/
def lateRead : ResetTrace ℚ where
  simS n := if n = 0 then 2 else 2 + n / 2
  reset := 1
  baseline_before := Nat.one_pos
  before i j hij hj := by
    obtain rfl : j = 0 := by omega
    obtain rfl : i = 0 := by omega
    exact le_rfl
  after i j hi hij := by
    rw [if_neg (by omega), if_neg (by omega)]
    gcongr

/-- The same with the file read at once. -/
def promptRead : ResetTrace ℚ where
  simS n := if n = 0 then 2 else n / 2
  reset := 1
  baseline_before := Nat.one_pos
  before i j hij hj := by
    obtain rfl : j = 0 := by omega
    obtain rfl : i = 0 := by omega
    exact le_rfl
  after i j hi hij := by
    rw [if_neg (by omega), if_neg (by omega)]
    gcongr

theorem warm_start_origin_prompt : promptRead.FindsOrigin [none, some 1, some 2] :=
  (warm_start_origin (by decide)).mpr (by
    unfold Telling
    decide +kernel)

/-- A restart that takes longer than the baseline leaves the stream without an origin, whatever it reads. -/
theorem late_origin_missed : lateRead.origin [some 1, some 2, some 3] = none ∧
    ¬lateRead.FindsOrigin [some 1, some 2, some 3] := by
  have hnone : lateRead.origin [some 1, some 2, some 3] = none := by decide +kernel
  refine ⟨hnone, fun h => ?_⟩
  have hfound := h.2 ⟨1, List.mem_cons_self, le_rfl⟩
  rw [hnone] at hfound
  cases hfound

end ResetTrace
end HumanoidLab
