import HumanoidLab.Datasets.Quality
import Mathlib.Data.List.GetD
import Mathlib.Data.List.Sort

/-! When a pilot episode passes. The verdict reads that no decision fails and that the final action is allowed; it reads neither a
    decision without a value nor the round trips of the joint names. -/

namespace HumanoidLab
open Psi0Dex3 (FloatEntry float64)

/-! ### The round trip of the names -/

theorem argsort_perm (keys : List Nat) : ((argsort keys).map (keys.getD · 0)).Perm keys := by
  have hkeys : (List.range keys.length).map (keys.getD · 0) = keys := by
    refine List.ext_getElem (by simp) fun i hi hi' => ?_
    rw [List.getElem_map, List.getElem_range, List.getD_eq_getElem _ _ hi']
  exact ((List.mergeSort_perm _ _).map _).trans (List.Perm.of_eq hkeys)

theorem argsort_sorted (keys : List Nat) : ((argsort keys).map (keys.getD · 0)).Pairwise (· ≤ ·) := by
  rw [List.pairwise_map]
  have htrans : ∀ i j k : Nat, decide (keys.getD i 0 ≤ keys.getD j 0) = true → decide (keys.getD j 0 ≤ keys.getD k 0) = true →
      decide (keys.getD i 0 ≤ keys.getD k 0) = true := by
    simp only [decide_eq_true_eq]
    intro i j k hij hjk
    exact hij.trans hjk
  have htotal : ∀ i j : Nat, (decide (keys.getD i 0 ≤ keys.getD j 0) || decide (keys.getD j 0 ≤ keys.getD i 0)) = true := by
    intro i j
    simp only [Bool.or_eq_true, decide_eq_true_eq]
    exact le_total _ _
  exact (List.pairwise_mergeSort htrans htotal _).imp of_decide_eq_true

/-- Sorting by the keys gives `0, …, n - 1` when they are these, in some order. -/
theorem argsort_eq_range {keys : List Nat} {n : Nat} :
    (argsort keys).map (keys.getD · 0) = List.range n ↔ keys.Perm (List.range n) := by
  constructor
  · intro h
    exact (argsort_perm keys).symm.trans (List.Perm.of_eq h)
  · intro h
    exact ((argsort_perm keys).trans h).eq_of_pairwise (fun a b _ _ => le_antisymm) (argsort_sorted keys)
      (List.pairwise_lt_range.imp Nat.le_of_lt)

section
variable {source target : List String}

theorem map_idxOf_nodup (h : source.Nodup) : source.map source.idxOf = List.range source.length := by
  refine List.ext_getElem (by simp) fun i hi hi' => ?_
  rw [List.getElem_map, List.getElem_range]
  exact h.idxOf_getElem i _

theorem idxOf_perm (hnodup : source.Nodup) (hknown : ∀ name ∈ target, name ∈ source) :
    (target.map source.idxOf).Perm (List.range source.length) ↔ target.Perm source := by
  rw [← map_idxOf_nodup hnodup]
  constructor
  · intro h
    have hback : ∀ l : List String, (∀ name ∈ l, name ∈ source) → (l.map source.idxOf).map (source.getD · "") = l := by
      intro l hl
      rw [List.map_map]
      refine (List.map_congr_left fun name hname => ?_).trans (List.map_id l)
      have hlt := List.idxOf_lt_length_iff.mpr (hl name hname)
      show source.getD (source.idxOf name) "" = name
      rw [List.getD_eq_getElem _ _ hlt, List.getElem_idxOf hlt]
    have hmap := h.map (source.getD · "")
    rwa [hback target hknown, hback source fun _ hname => hname] at hmap
  · intro h
    exact h.map _

theorem forward_eq (hknown : ∀ name ∈ target, name ∈ source) :
    (target.map source.idxOf).map ((List.range source.length).getD · 0) = target.map source.idxOf := by
  rw [List.map_map]
  refine List.map_congr_left fun name hname => ?_
  have hlt := List.idxOf_lt_length_iff.mpr (hknown name hname)
  show (List.range source.length).getD (source.idxOf name) 0 = _
  rw [List.getD_eq_getElem _ _ (by simpa using hlt), List.getElem_range]

/-- The round trip succeeds when the target names are the source names, each once, in some order. -/
theorem permutationRoundTrip_ok : (permutationRoundTrip source target).ok = true ↔ source.Nodup ∧ target.Perm source := by
  unfold permutationRoundTrip
  dsimp only
  by_cases hnodup : source.Nodup
  · rw [if_neg (not_not.mpr hnodup)]
    by_cases hmissing : target.filter (· ∉ source) = []
    · have hknown : ∀ name ∈ target, name ∈ source := by
        intro name hname
        by_contra hnot
        exact List.ne_nil_of_mem (List.mem_filter.mpr ⟨hname, decide_eq_true hnot⟩) hmissing
      rw [if_neg (not_not.mpr hmissing), forward_eq hknown, ← idxOf_perm hnodup hknown]
      by_cases hinjective : (target.map source.idxOf).Nodup
      · rw [if_neg (not_not.mpr hinjective)]
        simp only [RoundTrip.ok, decide_eq_true_eq, hnodup, true_and]
        exact argsort_eq_range
      · rw [if_pos hinjective]
        refine ⟨fun h => (by cases h), fun h => absurd ?_ hinjective⟩
        exact h.2.nodup_iff.mpr List.nodup_range
    · rw [if_pos hmissing]
      refine ⟨fun h => (by cases h), fun h => absurd ?_ hmissing⟩
      rw [List.filter_eq_nil_iff]
      intro name hname
      simpa using h.2.subset hname
  · rw [if_pos hnodup]
    exact ⟨fun h => (by cases h), fun h => absurd h.1 hnodup⟩

end

/-- A check that names its joints maps one order of them to another. -/
def NameCheck.Reorders : NameCheck → Prop
  | names mode source target => mode = "name_round_trip" → source.Nodup ∧ target.Perm source
  | text _ => True

theorem report_ok (check : NameCheck) : check.report.ok = true ↔ check.Reorders := by
  cases check with
  | text mode => exact iff_of_true rfl trivial
  | names mode source target =>
    dsimp only [NameCheck.report, NameCheck.Reorders]
    by_cases hmode : mode = "name_round_trip"
    · rw [if_pos hmode, permutationRoundTrip_ok]
      exact ⟨fun h _ => h, fun h => h hmode⟩
    · rw [if_neg hmode]
      exact iff_of_true rfl fun h => absurd h hmode

/-! ### The verdict -/

section
variable {thresholds : List (String × FloatEntry)} {kind : String} {build : EpisodeBuild} {m : Measurements}

/-- A pass of the episode says that every decision passed and that every round trip of names succeeded. -/
def QcReport.Sound (r : QcReport) : Prop :=
  r.episodeResult = .pass → (∀ d ∈ r.decisions, d.result = .pass) ∧ ∀ entry ∈ r.nameRoundTrip, entry.2.ok = true

/-- A measured value is above its threshold, or the hands are outside the range that the kind of episode allows. -/
def Exceeds (thresholds : List (String × FloatEntry)) (kind : String) (m : Measurements) : Prop :=
  (∃ t ∈ thresholds, ∃ v, m.values.lookup t.1 = some v ∧ atMost v t.2 = false) ∨
    ¬(m.hands.violatingChannels ≤ (handRangePolicy kind).1 ∧
      atMost m.hands.maxExcessRad (.finite (float64 ((handRangePolicy kind).2 + float64 1e-9))) = true)

/-- Every threshold has a measured value. -/
def Measured (thresholds : List (String × FloatEntry)) (m : Measurements) : Prop :=
  ∀ t ∈ thresholds, (m.values.lookup t.1).isSome = true

theorem overallResult_fail {decisions : List QcDecision} : overallResult decisions = .fail ↔ ∃ d ∈ decisions, d.result = .fail := by
  unfold overallResult
  split
  · rename_i hfail
    exact iff_of_true rfl (by simpa using hfail)
  · rename_i hfail
    refine iff_of_false ?_ (by simpa using hfail)
    split <;> decide

theorem thresholds_fail {values : List (String × FloatEntry)} : (∃ d ∈ evaluateThresholds values thresholds, d.result = .fail) ↔
    ∃ t ∈ thresholds, ∃ v, values.lookup t.1 = some v ∧ atMost v t.2 = false := by
  unfold evaluateThresholds
  simp only [List.mem_map, exists_exists_and_eq_and]
  refine exists_congr fun t => and_congr_right fun _ => ?_
  rcases values.lookup t.1 with _ | v
  · simp
  · cases hat : atMost v t.2 <;> simp [hat]

theorem thresholds_pass {values : List (String × FloatEntry)} : (∀ d ∈ evaluateThresholds values thresholds, d.result = .pass) ↔
    (∀ t ∈ thresholds, (values.lookup t.1).isSome = true) ∧
      ¬∃ t ∈ thresholds, ∃ v, values.lookup t.1 = some v ∧ atMost v t.2 = false := by
  unfold evaluateThresholds
  simp only [List.forall_mem_map, not_exists, not_and]
  rw [← forall₂_and]
  refine forall₂_congr fun t _ => ?_
  rcases values.lookup t.1 with _ | v
  · simp
  · cases hat : atMost v t.2 <;> simp [hat]

/-- The decision on the hands has a result of its own. -/
theorem handRangeDecision_result (hands : HandRange) (allowed : Nat) (tolerance : ℚ) :
    (handRangeDecision hands allowed tolerance).result = if hands.violatingChannels ≤ allowed ∧
      atMost hands.maxExcessRad (.finite (float64 (tolerance + float64 1e-9))) = true then .pass else .fail := rfl

theorem decisions_fail (hallowed : build.finalActionAllowed = true) :
    (∃ d ∈ (evaluateEpisodeQc thresholds kind build m).decisions, d.result = .fail) ↔ Exceeds thresholds kind m := by
  unfold evaluateEpisodeQc Exceeds
  dsimp only
  rw [hallowed, if_pos rfl]
  simp only [List.mem_append, List.mem_singleton, or_and_right, exists_or, exists_eq_left, thresholds_fail,
    handRangeDecision_result]
  refine or_congr Iff.rfl ?_
  split
  · rename_i hwithin
    exact iff_of_false (by decide) (not_not.mpr hwithin)
  · rename_i hwithin
    exact iff_of_true rfl hwithin

theorem decisions_pass (hallowed : build.finalActionAllowed = true) :
    (∀ d ∈ (evaluateEpisodeQc thresholds kind build m).decisions, d.result = .pass) ↔
      Measured thresholds m ∧ ¬Exceeds thresholds kind m := by
  unfold evaluateEpisodeQc Exceeds Measured
  dsimp only
  rw [hallowed, if_pos rfl, List.forall_mem_append, thresholds_pass, not_or, not_not, and_assoc]
  refine and_congr_right fun _ => and_congr_right fun _ => ?_
  rw [List.forall_mem_singleton, handRangeDecision_result]
  split
  · rename_i hwithin
    exact iff_of_true rfl hwithin
  · rename_i hwithin
    exact iff_of_false (by decide) hwithin

theorem roundTrips_ok : (∀ entry ∈ (evaluateEpisodeQc thresholds kind build m).nameRoundTrip, entry.2.ok = true) ↔
    ∀ entry ∈ build.nameCheck, entry.2.Reorders := by
  unfold evaluateEpisodeQc
  rw [List.forall_mem_map]
  exact forall₂_congr fun entry _ => report_ok entry.2

theorem episodeResult_pass : (evaluateEpisodeQc thresholds kind build m).episodeResult = .pass ↔
    build.finalActionAllowed = true ∧ ¬Exceeds thresholds kind m := by
  have hresult : (evaluateEpisodeQc thresholds kind build m).episodeResult =
      if overallResult (evaluateEpisodeQc thresholds kind build m).decisions = .fail then .fail
      else if build.finalActionAllowed = true then .pass else .unverified := rfl
  rw [hresult]
  cases hallowed : build.finalActionAllowed with
  | false =>
    refine iff_of_false ?_ (by simp)
    split <;> simp
  | true =>
    rw [← decisions_fail hallowed, ← overallResult_fail]
    by_cases hfail : overallResult (evaluateEpisodeQc thresholds kind build m).decisions = .fail <;> simp [hfail]

/-- A pass is sound exactly when the episode cannot pass, or every threshold has a value and every mapping of names reorders them. -/
theorem quality_gate (thresholds : List (String × FloatEntry)) (kind : String) (build : EpisodeBuild) (m : Measurements) :
    (evaluateEpisodeQc thresholds kind build m).Sound ↔ build.finalActionAllowed = false ∨ Exceeds thresholds kind m ∨
      Measured thresholds m ∧ ∀ entry ∈ build.nameCheck, entry.2.Reorders := by
  unfold QcReport.Sound
  rw [episodeResult_pass, roundTrips_ok]
  cases hallowed : build.finalActionAllowed with
  | false => simp
  | true =>
    rw [decisions_pass hallowed]
    by_cases hexceeds : Exceeds thresholds kind m <;> simp [hexceeds]

end

/-- An episode whose source has a joint of the body that the reference leaves out. -/
def misnamed : EpisodeBuild where
  handSchemaStatus := "verified"
  nameCheck := [("body", .names "name_round_trip" ["waist_yaw", "left_knee", "head_yaw"] ["left_knee", "waist_yaw"])]

def atRestMeasured : Measurements where
  nonFiniteCount := 0
  violationCount := 0
  velocityAbsP99 := .finite 0
  accelerationAbsP99 := .finite 0
  jerkAbsP99 := .finite 0
  clampMeanFraction := .finite 0
  sourceEcho := some (.finite 0)
  synthetic := some (.finite 0)
  hands := ⟨.finite 0, 0⟩

/-- The declared thresholds with one on a value that no report measures. -/
def stricterThresholds : List (String × FloatEntry) := defaultThresholds ++ [("snap.abs_p99", .finite 6000000)]

/-- An episode passes with a round trip that failed, and one with a threshold that is unverified. -/
theorem quality_gate_misnamed :
    ((evaluateEpisodeQc defaultThresholds "fruits" misnamed atRestMeasured).episodeResult = .pass ∧
      ¬(evaluateEpisodeQc defaultThresholds "fruits" misnamed atRestMeasured).Sound) ∧
    (evaluateEpisodeQc stricterThresholds "fruits" ⟨"verified", []⟩ atRestMeasured).episodeResult = .pass ∧
      ¬(evaluateEpisodeQc stricterThresholds "fruits" ⟨"verified", []⟩ atRestMeasured).Sound := by
  refine ⟨⟨by decide +kernel, fun h => ?_⟩, by decide +kernel, fun h => ?_⟩
  · have hreorders := roundTrips_ok.mp (h (by decide +kernel)).2 _ List.mem_cons_self
    exact absurd (hreorders rfl).2.length_eq (by decide)
  · exact absurd ((h (by decide +kernel)).1 _ (List.mem_of_getElem? (i := 8) rfl)) (by decide +kernel)

end HumanoidLab
