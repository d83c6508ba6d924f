import HumanoidLab.Bridge.Clocks
import Mathlib.Algebra.Order.Ring.Rat
import Mathlib.Data.List.Chain
import Mathlib.Tactic.Linarith
import Mathlib.Tactic.NormNum

/-! Resets as a policy clock sees them. The generation of a reading counts the readings that went back from the one
    before, so that a reset between two readings is noticed only if the clock is read below where it was read before. -/

set_option mvcgen.warning false

namespace HumanoidLab
open Concurrency Fallible Std.Do

variable {K : Type} [Field K] [LinearOrder K]

/-- No reading goes back from the one before by more than the tolerance. -/
def Steady (readings : List (ClockReading K)) : Prop :=
  readings.IsChain fun newer older => ¬newer.time.seconds < older.time.seconds - backwardTolerance

/-- The times read from `start` to `finish` go back: from one reading to the next, or from end to end. -/
def WentBack (start finish : ClockReading K) (between : List (ClockReading K)) : Prop :=
  finish.time.seconds < start.time.seconds ∨ ¬Steady (finish :: (between ++ [start]))

/-- The latency between two readings is refused when a reset falls between them, and is their difference otherwise. -/
def DetectsReset (start finish : ClockReading K) : Prop :=
  if start.resets < finish.resets then ∃ text, PolicyClock.latencySeconds start.time finish.time = .error text
  else PolicyClock.latencySeconds start.time finish.time = .ok (finish.time.seconds - start.time.seconds)

variable [IsStrictOrderedRing K] {timeout wall : K}

theorem backwardTolerance_pos : 0 < (backwardTolerance : K) := by
  norm_num [backwardTolerance]

/-- What `now` makes of a file: only a reading that goes back moves the generation. -/
theorem now_spec {file : Except String (K × Nat)} (s : PolicyClockState K) :
    ⦃fun t => ⌜t = s⌝⦄ (⟨.simulation, timeout⟩ : PolicyClock K).now file wall
    ⦃post⟨fun time t => ⌜(∃ revision, file = .ok (time.seconds, revision)) ∧ t.lastValue = some time.seconds ∧
        t.generation = time.generation ∧
        time.generation = s.generation + if s.lastValue.any (time.seconds < · - backwardTolerance) then 1 else 0⌝,
      fun _ t => ⌜t.lastValue = s.lastValue ∧ t.generation = s.generation⌝⟩⦄ := by
  have hself : ∀ x : K, ¬x < x - backwardTolerance := fun x => not_lt.mpr (sub_le_self x backwardTolerance_pos.le)
  mvcgen [PolicyClock.now]
  case vc1 hs a hfile _ hback _ _ _ _ =>
    subst hs hfile
    exact ⟨⟨_, rfl⟩, rfl, rfl, by rw [if_pos hback]⟩
  -- A reading that goes back differs from the last value, so that it is not stale.
  case vc2 hs a _ _ hback _ _ hsame _ =>
    obtain ⟨hvalue, -⟩ := not_or.mp hsame
    rw [show _ = some a.1 from not_not.mp hvalue] at hback
    simp [hself] at hback
  case vc3 hs a hfile _ hback _ _ _ _ _ =>
    subst hs hfile
    exact ⟨⟨_, rfl⟩, rfl, rfl, by rw [if_pos hback]⟩
  case vc4 hs a hfile _ hback _ _ _ =>
    subst hs hfile
    exact ⟨⟨_, rfl⟩, rfl, rfl, by rw [if_neg hback]; rfl⟩
  case vc5 hs _ _ _ _ _ _ _ => exact hs ▸ ⟨rfl, rfl⟩
  case vc6 hs a hfile _ hback _ _ _ _ =>
    subst hs hfile
    exact ⟨⟨_, rfl⟩, rfl, rfl, by rw [if_neg hback]; rfl⟩
  case vc7 hs _ _ => exact hs ▸ ⟨rfl, rfl⟩

/-- How a reading follows the one before it. -/
structure Succeeds (newer older : ClockReading K) : Prop where
  generation : newer.time.generation =
    older.time.generation + if newer.time.seconds < older.time.seconds - backwardTolerance then 1 else 0
  resets : older.resets ≤ newer.resets
  ordered : older.fresh = true → newer.resets = older.resets →
    newer.fresh = true ∧ older.time.seconds ≤ newer.time.seconds

/-- What the readings have to do with each other, and the last one with the clock and the file. -/
structure Traced (s : ClockHistory K) : Prop where
  chain : s.readings.IsChain Succeeds
  last : s.clock.lastValue = s.readings.head?.map (·.time.seconds)
  generation : s.clock.generation = (s.readings.head?.map (·.time.generation)).getD 0
  resets : ∀ r ∈ s.readings.head?, r.resets ≤ s.resets
  behind : ∀ r ∈ s.readings.head?, r.fresh = true → r.resets = s.resets → ∃ x ∈ s.simS, r.time.seconds ≤ x
  file : ∀ x ∈ s.simS, ∃ n, s.file = some (x, n)

variable {s t : ClockHistory K}

omit [IsStrictOrderedRing K] in
theorem Traced.write (h : Traced s) {x : K} (hstep : s.write x = some t) : Traced t := by
  obtain ⟨⟨-, hle⟩, rfl⟩ := (Option.ite_none_right_eq_some.mp hstep).imp id Option.some.inj
  refine ⟨h.chain, h.last, h.generation, h.resets, ?_, fun y hy => ?_⟩
  · intro r hr hfresh hresets
    obtain ⟨y, hy, hry⟩ := h.behind r hr hfresh hresets
    rw [Option.mem_def.mp hy] at hle
    exact ⟨x, rfl, hry.trans (by simpa using hle)⟩
  · obtain rfl := Option.some.inj hy
    exact ⟨_, rfl⟩

omit [IsStrictOrderedRing K] in
theorem Traced.reset (h : Traced s) : Traced { s with simS := none, resets := s.resets + 1 } where
  chain := h.chain
  last := h.last
  generation := h.generation
  resets r hr := (h.resets r hr).trans (Nat.le_succ _)
  behind r hr _ hresets := absurd ((h.resets r hr).trans_lt (Nat.lt_succ_self _)) (hresets ▸ Nat.lt_irrefl _)
  file _ hx := absurd hx (Option.not_mem_none _)

theorem Traced.now (h : Traced s) (failure : Option String) : Traced (s.now timeout failure wall) := by
  unfold ClockHistory.now
  split
  · rename_i time clock hrun
    obtain ⟨⟨revision, hfile⟩, hlast, hgeneration, htime⟩ := ok_of_triple (now_spec s.clock) rfl hrun
    have hfound : ∃ n, s.file = some (time.seconds, n) := by
      unfold ClockHistory.found at hfile
      split at hfile
      · cases hfile
      · rename_i file hs
        exact ⟨revision, hs.trans (congrArg some (Except.ok.inj hfile))⟩
      · cases hfile
    have hsame : ∀ x ∈ s.simS, x = time.seconds := fun x hx => by
      obtain ⟨n, hn⟩ := h.file x hx
      obtain ⟨m, hm⟩ := hfound
      exact (Prod.ext_iff.mp (Option.some.inj (hn.symm.trans hm))).1
    refine ⟨h.chain.cons fun r hr => ⟨?_, h.resets r hr, fun hfresh hresets => ?_⟩, hlast, hgeneration,
      fun r hr => ?_, fun r hr hfresh _ => ?_, h.file⟩
    · rw [htime, h.generation, h.last, Option.mem_def.mp hr]
      simp
    · obtain ⟨x, hx, hrx⟩ := h.behind r hr hfresh hresets.symm
      exact ⟨Option.isSome_of_mem hx, hsame x hx ▸ hrx⟩
    · obtain rfl := Option.some.inj hr
      exact le_rfl
    · obtain rfl := Option.some.inj hr
      obtain ⟨x, hx⟩ := Option.isSome_iff_exists.mp hfresh
      exact ⟨x, hx, (hsame x hx).ge⟩
  · rename_i e clock hrun
    obtain ⟨hlast, hgeneration⟩ := error_of_triple (now_spec s.clock) rfl hrun
    exact ⟨h.chain, hlast.trans h.last, hgeneration.trans h.generation, h.resets, h.behind, h.file⟩

theorem traced_reach (h : (clockMachine timeout).Reach Machine.Free s) : Traced s := by
  refine h.invariant ?_ fun s a t _ hs _ hstep => ?_
  · rintro s ⟨wall, rfl⟩
    exact ⟨.nil, rfl, rfl, by simp, by simp, by simp⟩
  · cases a with
    | write x => exact hs.write hstep
    | reset =>
      obtain rfl := Option.some.inj hstep
      exact hs.reset
    | now failure wall =>
      obtain rfl := Option.some.inj hstep
      exact hs.now failure

/-! ### Two readings -/

section
variable {start finish : ClockReading K} {between : List (ClockReading K)}

omit [IsStrictOrderedRing K] in
/-- The generation moves from one reading to a later one unless every reading between is steady. -/
theorem generation_iff (h : (finish :: (between ++ [start])).IsChain Succeeds) :
    start.time.generation ≤ finish.time.generation ∧
      (finish.time.generation = start.time.generation ↔ Steady (finish :: (between ++ [start]))) := by
  unfold Steady
  induction between generalizing finish with
  | nil =>
    obtain ⟨hf, -⟩ := List.isChain_cons_cons.mp h
    have hg := hf.generation
    by_cases hb : finish.time.seconds < start.time.seconds - backwardTolerance
    · simp [hg, hb]
    · simp [hg, hb, not_lt.mp hb]
  | cons r between ih =>
    obtain ⟨hf, h⟩ := List.isChain_cons_cons.mp h
    obtain ⟨hle, hiff⟩ := ih h
    have hg := hf.generation
    rw [List.cons_append, List.isChain_cons_cons, ← hiff]
    by_cases hb : finish.time.seconds < r.time.seconds - backwardTolerance
    · rw [if_pos hb] at hg
      exact ⟨by omega, by simp only [hb, not_true_eq_false, false_and, iff_false]; omega⟩
    · rw [if_neg hb] at hg
      exact ⟨by omega, by simp only [hb, not_false_eq_true, true_and]; omega⟩

/-- Readings without a reset between do not go back, when the first is of the time since the last reset. -/
theorem ordered_of_fresh (h : (finish :: (between ++ [start])).IsChain Succeeds) :
    start.resets ≤ finish.resets ∧ (start.fresh = true → finish.resets = start.resets →
      finish.fresh = true ∧ start.time.seconds ≤ finish.time.seconds ∧ Steady (finish :: (between ++ [start]))) := by
  have hsteady : ∀ a b : ClockReading K, b.time.seconds ≤ a.time.seconds →
      ¬a.time.seconds < b.time.seconds - backwardTolerance := fun a b hab =>
    not_lt.mpr ((sub_le_self _ backwardTolerance_pos.le).trans hab)
  unfold Steady
  induction between generalizing finish with
  | nil =>
    obtain ⟨hf, -⟩ := List.isChain_cons_cons.mp h
    refine ⟨hf.resets, fun hfresh hresets => ?_⟩
    obtain ⟨hfinish, hle⟩ := hf.ordered hfresh hresets
    exact ⟨hfinish, hle, List.isChain_pair.mpr (hsteady finish start hle)⟩
  | cons r between ih =>
    obtain ⟨hf, h⟩ := List.isChain_cons_cons.mp h
    obtain ⟨hle, hordered⟩ := ih h
    have hfr := hf.resets
    refine ⟨hle.trans hfr, fun hfresh hresets => ?_⟩
    obtain ⟨hr, hsr, hchain⟩ := hordered hfresh (by omega)
    obtain ⟨hfinish, hrf⟩ := hf.ordered hr (by omega)
    exact ⟨hfinish, hsr.trans hrf, List.isChain_cons_cons.mpr ⟨hsteady finish r hrf, hchain⟩⟩

omit [IsStrictOrderedRing K] in
/-- The latency is refused exactly when the times went back. -/
theorem latency_cases (h : (finish :: (between ++ [start])).IsChain Succeeds) :
    (WentBack start finish between →
        PolicyClock.latencySeconds start.time finish.time = .error "inference crossed an Isaac simulation reset") ∧
      (¬WentBack start finish between →
        PolicyClock.latencySeconds start.time finish.time = .ok (finish.time.seconds - start.time.seconds)) := by
  have hback : (finish.time.generation ≠ start.time.generation ∨ finish.time.seconds < start.time.seconds) ↔
      WentBack start finish between := by
    rw [WentBack, ← (generation_iff h).2, or_comm]
  exact ⟨fun hb => if_pos (hback.mpr hb), fun hb => if_neg fun hor => hb (hback.mp hor)⟩

/-- A reset between two readings is detected exactly when the times go back from the first to the second; without a
    reset they do not, unless the first reading is of a file that the simulator has not written since its last reset. -/
theorem reset_detection (h : (clockMachine timeout).Reach Machine.Free s) {later earlier : List (ClockReading K)}
    (hreadings : s.readings = later ++ finish :: (between ++ start :: earlier)) :
    DetectsReset start finish ↔
      start.resets = finish.resets ∧ (start.fresh = true ∨ ¬WentBack start finish between) ∨
        start.resets < finish.resets ∧ WentBack start finish between := by
  have hchain : (finish :: (between ++ [start])).IsChain Succeeds :=
    List.IsChain.infix (traced_reach h).chain ⟨later, earlier, by simp [hreadings]⟩
  obtain ⟨hresets, hfresh⟩ := ordered_of_fresh hchain
  obtain ⟨hrefused, hgiven⟩ := latency_cases hchain
  rcases hresets.eq_or_lt with heq | hlt
  · have hforward : start.fresh = true → ¬WentBack start finish between := fun hf hback => by
      obtain ⟨-, hle, hsteady⟩ := hfresh hf heq.symm
      exact hback.elim (not_lt.mpr hle) fun hn => hn hsteady
    rw [DetectsReset, if_neg heq.not_lt]
    constructor
    · intro hlatency
      refine .inl ⟨heq, .inr fun hback => ?_⟩
      cases hlatency.symm.trans (hrefused hback)
    · rintro (⟨-, hfresh | hback⟩ | ⟨hlt, -⟩)
      · exact hgiven (hforward hfresh)
      · exact hgiven hback
      · exact absurd heq hlt.ne
  · rw [DetectsReset, if_pos hlt]
    constructor
    · rintro ⟨text, hlatency⟩
      refine .inr ⟨hlt, by_contra fun hback => ?_⟩
      cases hlatency.symm.trans (hgiven hback)
    · rintro (⟨heq, -⟩ | ⟨-, hback⟩)
      · exact absurd heq hlt.ne
      · exact ⟨_, hrefused hback⟩

/-! ### Two histories -/

/-- A reading, a reset, and a reading of the next episode. -/
def twoEpisodes (first second : ℚ) : List (ClockInput ℚ) := [.write first, .now none 0, .reset, .write second, .now none 30]

/-- A reset is detected when the clock is read below where it was. -/
theorem reset_detection_back : ∃ s start finish, (clockMachine (5 : ℚ)).Reach Machine.Free s ∧
    s.readings = [finish, start] ∧ start.resets < finish.resets ∧ DetectsReset start finish := by
  have hrun : (clockMachine (5 : ℚ)).run { clock := { lastAdvanceWall := 0 } } (twoEpisodes 5 1) = some
      { file := some (1, 2), simS := some 1, writes := 2, resets := 1, clock := ⟨some 1, some 2, 30, 1⟩,
        readings := [⟨⟨1, 1⟩, 1, true⟩, ⟨⟨5, 0⟩, 0, true⟩] } := by
    decide +kernel
  have hreach : (clockMachine (5 : ℚ)).Reach Machine.Free _ :=
    ⟨_, ⟨0, rfl⟩, Machine.path_of_run hrun (Machine.meets_free _ _)⟩
  have hreadings : [⟨⟨1, 1⟩, 1, true⟩, ⟨⟨5, 0⟩, 0, true⟩] =
      [] ++ (⟨⟨1, 1⟩, 1, true⟩ : ClockReading ℚ) :: ([] ++ ⟨⟨5, 0⟩, 0, true⟩ :: []) := rfl
  have hback : WentBack (⟨⟨5, 0⟩, 0, true⟩ : ClockReading ℚ) ⟨⟨1, 1⟩, 1, true⟩ [] := .inl (by norm_num)
  exact ⟨_, ⟨⟨5, 0⟩, 0, true⟩, ⟨⟨1, 1⟩, 1, true⟩, hreach, rfl, Nat.one_pos,
    (reset_detection hreach hreadings).mpr (.inr ⟨Nat.one_pos, hback⟩)⟩

/-- A reset is not detected when the clock has run past the first reading before it is read again. -/
theorem reset_missed : ∃ s start finish, (clockMachine (5 : ℚ)).Reach Machine.Free s ∧ s.readings = [finish, start] ∧
    start.resets < finish.resets ∧ PolicyClock.latencySeconds start.time finish.time = .ok 4 ∧
    ¬DetectsReset start finish := by
  have hrun : (clockMachine (5 : ℚ)).run { clock := { lastAdvanceWall := 0 } } (twoEpisodes 1 5) = some
      { file := some (5, 2), simS := some 5, writes := 2, resets := 1, clock := ⟨some 5, some 2, 30, 0⟩,
        readings := [⟨⟨5, 0⟩, 1, true⟩, ⟨⟨1, 0⟩, 0, true⟩] } := by
    decide +kernel
  have hreach : (clockMachine (5 : ℚ)).Reach Machine.Free _ :=
    ⟨_, ⟨0, rfl⟩, Machine.path_of_run hrun (Machine.meets_free _ _)⟩
  have hlatency : PolicyClock.latencySeconds (⟨1, 0⟩ : PolicyTime ℚ) ⟨5, 0⟩ = .ok 4 := by
    norm_num [PolicyClock.latencySeconds]
  refine ⟨_, ⟨⟨1, 0⟩, 0, true⟩, ⟨⟨5, 0⟩, 1, true⟩, hreach, rfl, Nat.one_pos, hlatency, ?_⟩
  intro h
  rw [DetectsReset, if_pos Nat.one_pos] at h
  obtain ⟨text, h⟩ := h
  cases h.symm.trans hlatency

end
end HumanoidLab
