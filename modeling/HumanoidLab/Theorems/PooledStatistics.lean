import HumanoidLab.Datasets.Heading
import HumanoidLab.Datasets.Statistics
import HumanoidLab.Lib.Fallible
import HumanoidLab.Lib.Moments
import Mathlib.Analysis.Real.Sqrt

/-! The statistics of a split, in exact arithmetic. Merged block by block, they are those of all the frames at once, so neither
    the split into episodes nor the order of the episodes changes them. -/

namespace HumanoidLab.Psi0Dex3
open Moments

variable {d : Nat}

/-! ### The invariant of the merge -/

section
variable {K : Type} [Field K] [LinearOrder K] [IsStrictOrderedRing K] {frames others : List (Fin d → K)}

/-- The statistics are those of the frames. -/
structure Describes (frames : List (Fin d → K)) (s : Summary K d) : Prop where
  frames_ne : frames ≠ []
  count : s.count = frames.length
  min : ∀ c, IsLeast {x | x ∈ channel frames c} (s.min c)
  max : ∀ c, IsGreatest {x | x ∈ channel frames c} (s.max c)
  mean : ∀ c, s.mean c = mean (channel frames c)
  m2 : ∀ c, s.m2 c = squares (channel frames c)

omit [LinearOrder K] [IsStrictOrderedRing K] in
theorem blockMean_eq (frames : List (Fin d → K)) (c : Fin d) : blockMean frames c = mean (channel frames c) := by
  rw [blockMean, mean, channel, List.length_map]

omit [LinearOrder K] [IsStrictOrderedRing K] in
theorem blockM2_eq (frames : List (Fin d → K)) (c : Fin d) : blockM2 frames c = squares (channel frames c) := by
  rw [blockM2, squares, blockMean_eq]
  exact congrArg List.sum (List.map_congr_left fun x _ => (sq _).symm)

omit [IsStrictOrderedRing K] in
theorem block_describes (first : Fin d → K) (rest : List (Fin d → K)) :
    Describes (first :: rest) (Summary.block first rest) where
  frames_ne := List.cons_ne_nil _ _
  count := rfl
  min c := isLeast_foldl_min (first c) (channel rest c)
  max c := isGreatest_foldl_max (first c) (channel rest c)
  mean := blockMean_eq _
  m2 := blockM2_eq _

theorem merge_describes {s b : Summary K d} (hs : Describes frames s) (hb : Describes others b) :
    Describes (frames ++ others) (s.merge b) where
  frames_ne := List.append_ne_nil_of_left_ne_nil hs.frames_ne _
  count := by rw [List.length_append, ← hs.count, ← hb.count]; rfl
  min c := by
    rw [channel_append]
    exact isLeast_append (hs.min c) (hb.min c)
  max c := by
    rw [channel_append]
    exact isGreatest_append (hs.max c) (hb.max c)
  mean c := by
    have happend := mean_append (channel_ne_nil hs.frames_ne c) (channel_ne_nil hb.frames_ne c)
    rw [channel_append, happend]
    simp only [Summary.merge, hs.mean, hb.mean, hs.count, hb.count, channel, List.length_map, Nat.cast_add]
  m2 c := by
    have happend := squares_append (channel_ne_nil hs.frames_ne c) (channel_ne_nil hb.frames_ne c)
    rw [channel_append, happend]
    simp only [Summary.merge, hs.mean, hb.mean, hs.m2, hb.m2, hs.count, hb.count, channel, List.length_map, Nat.cast_add,
      Nat.cast_mul]
    ring

omit [IsStrictOrderedRing K] in
/-- The frames in another order have the same statistics. -/
theorem describes_perm {s t : Summary K d} (hs : Describes frames s) (ht : Describes others t) (h : frames.Perm others) :
    s = t := by
  have hchannel (c : Fin d) : (channel frames c).Perm (channel others c) := h.map _
  have hset (c : Fin d) : {x | x ∈ channel frames c} = {x | x ∈ channel others c} := Set.ext fun x => (hchannel c).mem_iff
  have hcount : s.count = t.count := by rw [hs.count, ht.count, h.length_eq]
  have hmin : s.min = t.min := funext fun c => (hs.min c).unique (hset c ▸ ht.min c)
  have hmax : s.max = t.max := funext fun c => (hs.max c).unique (hset c ▸ ht.max c)
  have hmean : s.mean = t.mean := funext fun c => by rw [hs.mean, ht.mean, mean_perm (hchannel c)]
  have hm2 : s.m2 = t.m2 := funext fun c => by rw [hs.m2, ht.m2, squares_perm (hchannel c)]
  cases s
  cases t
  simp_all

end

/-! ### What is resolved -/

/-- The statistics that `_RunningStats` returns for the episodes added to it in turn. -/
noncomputable def episodeStatistics (episodes : List (List (Fin d → ℝ))) : Except StatsError (StatBlock ℝ) := do
  let running ← episodes.foldlM RunningStats.update none
  running.resolve Real.sqrt

/-- The minimum, maximum, mean and population deviation of each channel of the frames. -/
structure StatsOf (frames : List (Fin d → ℝ)) (r : StatBlock ℝ) : Prop where
  count : r.count = frames.length
  min : ∃ low : Fin d → ℝ, r.min = List.ofFn low ∧ ∀ c, IsLeast {x | x ∈ channel frames c} (low c)
  max : ∃ high : Fin d → ℝ, r.max = List.ofFn high ∧ ∀ c, IsGreatest {x | x ∈ channel frames c} (high c)
  mean : r.mean = List.ofFn fun c => mean (channel frames c)
  std : ∃ std : Fin d → ℝ, r.std = List.ofFn std ∧ ∀ c, 0 ≤ std c ∧ std c ^ 2 = variance (channel frames c)

theorem squares_nonneg (xs : List ℝ) : 0 ≤ squares xs := by
  refine List.sum_nonneg fun y hy => ?_
  obtain ⟨x, -, rfl⟩ := List.mem_map.mp hy
  exact sq_nonneg _

theorem resolve_statsOf {frames : List (Fin d → ℝ)} {s : Summary ℝ d} (h : Describes frames s) :
    ∃ r, RunningStats.resolve Real.sqrt (some s) = .ok r ∧ StatsOf frames r := by
  refine ⟨_, rfl, h.count, ⟨s.min, rfl, h.min⟩, ⟨s.max, rfl, h.max⟩, ?_, ⟨_, rfl, fun c => ⟨Real.sqrt_nonneg _, ?_⟩⟩⟩
  · exact congrArg List.ofFn (funext h.mean)
  · rw [h.m2, h.count, Real.sq_sqrt (div_nonneg (squares_nonneg _) (Nat.cast_nonneg _)), variance, channel, List.length_map]

theorem episodeStatistics_some {episodes : List (List (Fin d → ℝ))} (hne : ∀ e ∈ episodes, e ≠ []) (hsome : episodes ≠ []) :
    ∃ s, episodeStatistics episodes = RunningStats.resolve Real.sqrt (some s) ∧ Describes episodes.flatten s := by
  obtain ⟨running, hrun⟩ := updates_ok none hne
  have hstart : Gathers Describes ([] : List (Fin d → ℝ)) none := rfl
  have hpooled := updates_gather block_describes merge_describes hstart hrun
  rw [List.nil_append] at hpooled
  have hflat : episodes.flatten ≠ [] := by
    obtain ⟨e, es, rfl⟩ := List.exists_cons_of_ne_nil hsome
    exact List.append_ne_nil_of_left_ne_nil (hne e List.mem_cons_self) _
  cases running with
  | none => exact absurd hpooled hflat
  | some s =>
    refine ⟨s, ?_, hpooled⟩
    rw [episodeStatistics, hrun]
    rfl

/-- Episodes of at least one frame each resolve to the statistics of all their frames, and any other episodes with the same
    frames, in any order and split anywhere, to the same. -/
theorem pooled_statistics (episodes : List (List (Fin d → ℝ))) (hne : ∀ e ∈ episodes, e ≠ []) :
    (episodes = [] → episodeStatistics episodes = .error .noFrames) ∧
    (episodes ≠ [] → ∃ r, episodeStatistics episodes = .ok r ∧ StatsOf episodes.flatten r) ∧
    ∀ others : List (List (Fin d → ℝ)), (∀ e ∈ others, e ≠ []) → others.flatten.Perm episodes.flatten →
      episodeStatistics others = episodeStatistics episodes := by
  refine ⟨?_, fun hsome => ?_, fun others hothers hperm => ?_⟩
  · rintro rfl
    rfl
  · obtain ⟨s, heq, hdescribes⟩ := episodeStatistics_some hne hsome
    rw [heq]
    exact resolve_statsOf hdescribes
  · by_cases hsome : episodes = []
    · subst hsome
      have hnone : others = [] := by
        rw [List.flatten_nil, List.perm_nil, List.flatten_eq_nil_iff] at hperm
        refine List.eq_nil_iff_forall_not_mem.mpr fun e he => hothers e he (hperm e he)
      rw [hnone]
    · have hothersSome : others ≠ [] := by
        rintro rfl
        obtain ⟨s, -, hdescribes⟩ := episodeStatistics_some hne hsome
        exact hdescribes.frames_ne (List.nil_perm.mp hperm)
      obtain ⟨s, heq, hdescribes⟩ := episodeStatistics_some hne hsome
      obtain ⟨t, heqt, hdescribest⟩ := episodeStatistics_some hothers hothersSome
      rw [heq, heqt, describes_perm hdescribest hdescribes hperm]

/-- Two episodes, of one frame and of two. -/
theorem pooled_statistics_two :
    ∃ r, episodeStatistics [[fun _ : Fin 1 => (1 : ℝ)], [fun _ => 2, fun _ => 6]] = .ok r ∧
      StatsOf [fun _ : Fin 1 => (1 : ℝ), fun _ => 2, fun _ => 6] r :=
  (pooled_statistics [[fun _ : Fin 1 => (1 : ℝ)], [fun _ => 2, fun _ => 6]] (by simp)).2.1 (by simp)

end HumanoidLab.Psi0Dex3
