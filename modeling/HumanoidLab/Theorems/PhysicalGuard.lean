import HumanoidLab.Datasets.Statistics
import HumanoidLab.Lib.Fallible
import HumanoidLab.Lib.Moments
import HumanoidLab.Theorems.Resampling

/-! The guards on measured samples. Both compare magnitudes with the bound, which a NaN is not above: a repair leaves it where it
    was, and the extremes of its channel are NaN as well, so the statistics pass whatever else they hold. Without a NaN both do
    what they are for. -/

namespace HumanoidLab.Psi0Dex3
open Fallible Moments

/-- A sample that a joint can hold. -/
def FloatEntry.physical : FloatEntry → Bool
  | .finite x => |x| ≤ physicalHandSampleBoundRad
  | _ => false

theorem physical_eq_not_beyond {x : FloatEntry} (h : x ≠ .nan) : x.physical = !x.beyond physicalHandSampleBoundRad := by
  cases x with
  | nan => exact absurd rfl h
  | infinite negative => rfl
  | finite q =>
    by_cases hq : |q| ≤ physicalHandSampleBoundRad
    · simp [FloatEntry.physical, FloatEntry.beyond, hq, not_lt.mpr hq]
    · simp [FloatEntry.physical, FloatEntry.beyond, hq, not_le.mp hq]

/-! ### Repaired episodes -/

/-- The sample of a channel at a frame. -/
def sample (rows : List (List FloatEntry)) (t c : Nat) : FloatEntry := (column rows c).getD t .nan

/-- What may stand in the place of a sample: a value between the nearest samples that a joint can hold on either side, or the
    nearest one where one side has none. -/
inductive Filled (samples : List FloatEntry) (t : Nat) : FloatEntry → Prop
  | between {l r : Nat} {a b z : ℚ} (hl : l < t) (hr : t < r) (hlen : r < samples.length)
      (hleft : samples.getD l .nan = .finite a) (hright : samples.getD r .nan = .finite b)
      (hgap : ∀ i, l < i → i < r → (samples.getD i .nan).physical = false)
      (hphysical : (samples.getD l .nan).physical ∧ (samples.getD r .nan).physical)
      (hlow : min a b ≤ z) (hhigh : z ≤ max a b) : Filled samples t (.finite z)
  | before {r : Nat} (hr : t < r) (hlen : r < samples.length) (hgap : ∀ i < r, (samples.getD i .nan).physical = false)
      (hphysical : (samples.getD r .nan).physical) : Filled samples t (samples.getD r .nan)
  | after {l : Nat} (hl : l < t) (hgap : ∀ i, l < i → (samples.getD i .nan).physical = false)
      (hphysical : (samples.getD l .nan).physical) : Filled samples t (samples.getD l .nan)

/-- What lies between two samples that a joint can hold is one as well. -/
theorem Filled.physical {samples : List FloatEntry} {t : Nat} {y : FloatEntry} (h : Filled samples t y) : y.physical := by
  cases h with
  | before _ _ _ hphysical => exact hphysical
  | after _ _ hphysical => exact hphysical
  | between _ _ _ hleft hright _ hphysical hlow hhigh =>
    rw [hleft, hright] at hphysical
    obtain ⟨ha, hb⟩ := hphysical
    simp only [FloatEntry.physical, decide_eq_true_eq, abs_le] at ha hb ⊢
    exact ⟨(le_min ha.1 hb.1).trans hlow, hhigh.trans (max_le ha.2 hb.2)⟩

/-- What an accepted repair is to return. -/
structure SoundRepair (measured : List (List FloatEntry)) (names : List String) (repaired : List (List FloatEntry))
    (record : HandRepair) : Prop where
  physical : ∀ t < measured.length, ∀ c < names.length, (sample repaired t c).physical
  kept : ∀ t < measured.length, ∀ c < names.length, (sample measured t c).physical → sample repaired t c = sample measured t c
  filled : ∀ t < measured.length, ∀ c < names.length, (sample measured t c).physical = false →
    Filled (column measured c) t (sample repaired t c)
  counts : ∀ c < names.length,
    record.countOf (names.getD c "") = (column measured c).countP fun x => !x.physical

section
variable {measured repaired : List (List FloatEntry)} {names : List String} {record : HandRepair}
variable {interp : Nat → List Nat → List FloatEntry → FloatEntry}

/-- The rows that a repair returns. -/
def repairedRows (interp : Nat → List Nat → List FloatEntry → FloatEntry) (measured : List (List FloatEntry)) :
    List (List FloatEntry) :=
  measured.mapIdx fun t row => row.mapIdx fun c x =>
    if x.beyond physicalHandSampleBoundRad then
      interp t (goodFrames measured c) ((goodFrames measured c).map fun g => (column measured c).getD g .nan)
    else x

/-- The counts that a repair writes down. -/
def repairedChannels (measured : List (List FloatEntry)) (names : List String) : List (String × Nat) :=
  (List.range names.length).filterMap fun c =>
    if beyondCount (column measured c) = 0 then none else some (names.getD c "", beyondCount (column measured c))

theorem sample_of_lt {t c : Nat} (ht : t < measured.length) : sample measured t c = measured[t].getD c .nan := by
  rw [sample, column, List.getD_eq_getElem _ _ (by rwa [List.length_map]), List.getElem_map]

theorem beyondCount_column_eq_zero (h : ∀ row ∈ measured, ∀ x ∈ row, x.beyond physicalHandSampleBoundRad = false) (c : Nat) :
    beyondCount (column measured c) = 0 := by
  refine List.countP_eq_zero.mpr fun x hx => ?_
  obtain ⟨row, hrow, rfl⟩ := List.mem_map.mp hx
  rcases Nat.lt_or_ge c row.length with hc | hc
  · rw [List.getD_eq_getElem _ _ hc, h row hrow _ (List.getElem_mem hc)]
    exact Bool.false_ne_true
  · rw [List.getD_eq_default _ _ hc]
    exact Bool.false_ne_true

/-- An accepted repair: an episode with nothing to repair is a case of one that has. -/
theorem repair_accepted (h : repairNonphysicalSamples interp measured names = .ok (repaired, record)) :
    (∀ row ∈ measured, row.length = names.length) ∧ repaired = repairedRows interp measured ∧
    record.channels = repairedChannels measured names ∧
    ∀ c < names.length, beyondCount (column measured c) ≠ 0 → beyondCount (column measured c) ≠ measured.length := by
  unfold repairNonphysicalSamples at h
  obtain ⟨hwidth, h⟩ := guard_ok.mp h
  simp only [List.any_eq_true, decide_eq_true_eq, not_exists, not_and, not_not] at hwidth
  refine ⟨hwidth, ?_⟩
  by_cases hnone : beyondCount measured.flatten = 0
  · rw [if_pos hnone] at h
    cases h
    have hall : ∀ row ∈ measured, ∀ x ∈ row, x.beyond physicalHandSampleBoundRad = false := fun row hrow x hx => by
      have := List.countP_eq_zero.mp hnone x (List.mem_flatten.mpr ⟨row, hrow, hx⟩)
      rwa [Bool.not_eq_true] at this
    refine ⟨?_, ?_, fun c _ hc => absurd (beyondCount_column_eq_zero hall c) hc⟩
    · refine (List.ext_getElem (by simp [repairedRows]) fun t ht _ => ?_)
      refine List.ext_getElem (by simp [repairedRows]) fun c hc _ => ?_
      simp only [repairedRows, List.getElem_mapIdx]
      rw [if_neg]
      rw [hall _ (List.getElem_mem ht) _ (List.getElem_mem hc)]
      exact Bool.false_ne_true
    · refine (List.filterMap_eq_nil_iff.mpr fun c _ => ?_).symm
      rw [if_pos (beyondCount_column_eq_zero hall c)]
  · rw [if_neg hnone] at h
    obtain ⟨-, h⟩ := guard_ok.mp h
    obtain ⟨hevery, h⟩ := guard_ok.mp h
    cases h
    refine ⟨rfl, rfl, fun c hc _ heq => hevery ?_⟩
    exact List.any_eq_true.mpr ⟨c, List.mem_range.mpr hc, decide_eq_true heq⟩

theorem sample_repaired (hwidth : ∀ row ∈ measured, row.length = names.length) {t c : Nat} (ht : t < measured.length)
    (hc : c < names.length) :
    sample (repairedRows interp measured) t c =
      if (sample measured t c).beyond physicalHandSampleBoundRad then
        interp t (goodFrames measured c) ((goodFrames measured c).map fun g => sample measured g c)
      else sample measured t c := by
  have hrow : c < measured[t].length := by rwa [hwidth _ (List.getElem_mem ht)]
  have hlen : t < (repairedRows interp measured).length := by rwa [repairedRows, List.length_mapIdx]
  rw [sample_of_lt hlen, sample_of_lt ht, List.getD_eq_getElem _ _ hrow]
  simp only [repairedRows, List.getElem_mapIdx]
  rw [List.getD_eq_getElem _ _ (by rwa [List.length_mapIdx]), List.getElem_mapIdx]
  rfl

/-! ### The interpolated samples -/

theorem mem_goodFrames {c g : Nat} : g ∈ goodFrames measured c ↔
    g < measured.length ∧ (sample measured g c).beyond physicalHandSampleBoundRad = false := by
  rw [goodFrames, List.mem_filter, List.mem_range, Bool.not_eq_true']
  rfl

theorem goodFrames_sorted (measured : List (List FloatEntry)) (c : Nat) : (goodFrames measured c).Pairwise (· < ·) :=
  List.Pairwise.filter _ List.pairwise_lt_range

/-- The places of frames around one that is not among them. -/
theorem bracket {frames : List Nat} (hsorted : frames.Pairwise (· < ·)) {t : Nat} (ht : t ∉ frames) :
    (∀ g ∈ frames, t < g) ∨ (∀ g ∈ frames, g < t) ∨
      ∃ (i : Nat) (hi : i + 1 < frames.length), frames[i] < t ∧ t < frames[i + 1] := by
  have hne : ∀ (j : Nat) (hj : j < frames.length), frames[j] ≠ t := fun j hj heq => ht (heq ▸ List.getElem_mem hj)
  obtain ⟨k, hk⟩ : ∃ k, k = frames.findIdx (t < ·) := ⟨_, rfl⟩
  have hbelow : ∀ (j : Nat) (hj : j < frames.length), j < k → frames[j] < t := fun j hj hjk => by
    have hnot := List.not_of_lt_findIdx (p := fun g : Nat => decide (t < g)) (hk ▸ hjk)
    exact lt_of_le_of_ne (not_lt.mp (of_decide_eq_false hnot)) (hne j hj)
  rcases Nat.lt_or_ge k frames.length with hlen | hend
  · have habove : t < frames[k] := by
      have := List.findIdx_getElem (p := fun g : Nat => decide (t < g)) (w := hk ▸ hlen)
      simpa only [← hk, decide_eq_true_eq] using this
    rcases Nat.eq_zero_or_pos k with rfl | hpos
    · refine Or.inl fun g hg => ?_
      obtain ⟨j, hj, rfl⟩ := List.getElem_of_mem hg
      rcases Nat.eq_zero_or_pos j with rfl | hj0
      · exact habove
      · exact habove.trans (List.pairwise_iff_getElem.mp hsorted 0 j hlen hj hj0)
    · obtain ⟨i, rfl⟩ : ∃ i, k = i + 1 := ⟨k - 1, by omega⟩
      exact Or.inr (Or.inr ⟨i, hlen, hbelow i (by omega) (by omega), habove⟩)
  · refine Or.inr (Or.inl fun g hg => ?_)
    obtain ⟨j, hj, rfl⟩ := List.getElem_of_mem hg
    exact hbelow j hj (by omega)

/-- No frame of a sorted list lies between two that follow one another. -/
theorem not_mem_gap {frames : List Nat} (hsorted : frames.Pairwise (· < ·)) {i : Nat} (hi : i + 1 < frames.length) {g : Nat}
    (hlow : frames[i] < g) (hhigh : g < frames[i + 1]) : g ∉ frames := by
  intro hg
  obtain ⟨j, hj, rfl⟩ := List.getElem_of_mem hg
  rcases Nat.lt_or_ge i j with hij | hij
  · rcases Nat.lt_or_ge (i + 1) j with hgt | hle
    · exact absurd hhigh (List.pairwise_iff_getElem.mp hsorted _ _ hi hj hgt).not_gt
    · obtain rfl : j = i + 1 := by omega
      exact hhigh.false
  · rcases hij.eq_or_lt with rfl | hlt
    · exact hlow.false
    · exact absurd hlow (List.pairwise_iff_getElem.mp hsorted _ _ hj (by omega) hlt).not_gt

theorem not_physical_of_beyond {x : FloatEntry} (h : x.beyond physicalHandSampleBoundRad) : x.physical = false := by
  have hnan : x ≠ .nan := by
    rintro rfl
    cases h
  rw [physical_eq_not_beyond hnan, h]
  rfl

theorem not_physical {c i : Nat} (h : i ∉ goodFrames measured c) : (sample measured i c).physical = false := by
  rcases Nat.lt_or_ge i measured.length with hi | hi
  · refine not_physical_of_beyond ?_
    by_contra hbeyond
    exact h (mem_goodFrames.mpr ⟨hi, Bool.eq_false_iff.mpr hbeyond⟩)
  · rw [sample, List.getD_eq_default _ _ (by rwa [column, List.length_map])]
    rfl

section
variable {c t : Nat} (hnan : ∀ i < measured.length, sample measured i c ≠ .nan)
include hnan

theorem physical_of_good {g : Nat} (h : g ∈ goodFrames measured c) :
    (sample measured g c).physical ∧ ∃ a, sample measured g c = .finite a := by
  obtain ⟨hlen, hbeyond⟩ := mem_goodFrames.mp h
  have hphysical : (sample measured g c).physical = true := by
    rw [physical_eq_not_beyond (hnan g hlen), hbeyond]
    rfl
  refine ⟨hphysical, ?_⟩
  cases hx : sample measured g c with
  | nan => exact absurd hx (hnan g hlen)
  | infinite negative => rw [hx] at hphysical; cases hphysical
  | finite a => exact ⟨a, rfl⟩

theorem interpEntry_good : interpEntry t (goodFrames measured c) ((goodFrames measured c).map fun g => sample measured g c) =
    .finite (HumanoidLab.interp ((goodFrames measured c).map fun n : Nat => (n : ℚ))
      ((goodFrames measured c).map fun g => (sample measured g c).value) t) := by
  unfold interpEntry
  rw [if_pos, List.map_map]
  · rfl
  · refine List.all_eq_true.mpr fun x hx => ?_
    obtain ⟨g, hg, rfl⟩ := List.mem_map.mp (List.mem_of_mem_take (List.mem_of_mem_drop hx))
    obtain ⟨-, a, ha⟩ := physical_of_good hnan hg
    rw [ha]
    rfl

/-- An interpolated sample stands between its nearest valid neighbours. -/
theorem filled_of_beyond (hbad : t ∉ goodFrames measured c) (hsome : goodFrames measured c ≠ []) :
    Filled (column measured c) t (interpEntry t (goodFrames measured c)
      ((goodFrames measured c).map fun g => sample measured g c)) := by
  obtain ⟨frames, hframes⟩ : ∃ frames, frames = goodFrames measured c := ⟨_, rfl⟩
  have hsorted : frames.Pairwise (· < ·) := hframes ▸ goodFrames_sorted measured c
  have hlt : ∀ g ∈ frames, g < (column measured c).length := fun g hg => by
    rw [column, List.length_map]
    exact (mem_goodFrames.mp (hframes ▸ hg)).1
  have hgood : ∀ g ∈ frames, (sample measured g c).physical ∧ ∃ a, sample measured g c = .finite a := fun g hg =>
    physical_of_good hnan (hframes ▸ hg)
  have hgap : ∀ i, i ∉ frames → (sample measured i c).physical = false := fun i hi => not_physical (hframes ▸ hi)
  rw [interpEntry_good hnan, ← hframes]
  rw [← hframes] at hbad hsome
  have hcast : (frames.map fun n : Nat => (n : ℚ)).Pairwise (· < ·) := List.pairwise_map.mpr (hsorted.imp Nat.cast_lt.mpr)
  have hvalue : ∀ (i : Nat) (hi : i < frames.length),
      (frames.map fun g => (sample measured g c).value).getD i 0 = (sample measured frames[i] c).value := fun i hi => by
    rw [List.getD_eq_getElem _ _ (by rwa [List.length_map]), List.getElem_map]
  have hpos := List.length_pos_iff.mpr hsome
  rcases bracket hsorted hbad with hafter | hbefore | ⟨i, hi, hlow, hhigh⟩
  · have hfirst := List.getElem_mem hpos
    obtain ⟨hphysical, a, ha⟩ := hgood _ hfirst
    rw [interp_start (by simpa using hsome) (by simpa [List.head_eq_getElem] using hafter _ hfirst), hvalue 0 hpos, ha]
    have hfill := Filled.before (hafter _ hfirst) (hlt _ hfirst) (fun i hi => hgap i fun hmem => ?_) hphysical
    · rwa [show (column measured c).getD frames[0] .nan = .finite a from ha] at hfill
    · obtain ⟨j, hj, rfl⟩ := List.getElem_of_mem hmem
      rcases Nat.eq_zero_or_pos j with rfl | hj0
      · exact hi.false
      · exact absurd hi (List.pairwise_iff_getElem.mp hsorted 0 j hpos hj hj0).not_gt
  · have hlast := List.getElem_mem (Nat.sub_one_lt_of_lt hpos)
    obtain ⟨hphysical, a, ha⟩ := hgood _ hlast
    rw [interp_end hcast (by simpa using hsome) (by simpa [List.getLast_eq_getElem] using (hbefore _ hlast).le),
      List.length_map, hvalue _ (Nat.sub_one_lt_of_lt hpos), ha]
    have hfill := Filled.after (hbefore _ hlast) (fun i hi => hgap i fun hmem => ?_) hphysical
    · rwa [show (column measured c).getD frames[frames.length - 1] .nan = .finite a from ha] at hfill
    · obtain ⟨j, hj, rfl⟩ := List.getElem_of_mem hmem
      rcases (Nat.le_sub_one_of_lt hj).eq_or_lt with heq | hlast
      · simp only [heq] at hi
        exact hi.false
      · exact absurd hi (List.pairwise_iff_getElem.mp hsorted j _ hj (Nat.sub_one_lt_of_lt hpos) hlast).not_gt
  · obtain ⟨hpl, a, ha⟩ := hgood _ (List.getElem_mem (Nat.lt_of_succ_lt hi))
    obtain ⟨hpr, b, hb⟩ := hgood _ (List.getElem_mem hi)
    obtain ⟨hmin, hmax⟩ := interp_between (x := t) (frames.map fun g => (sample measured g c).value) hcast
      (by simpa using Nat.lt_of_succ_lt hi) (by simpa using hi) (by simpa using hlow) (by simpa using hhigh)
    rw [hvalue i (Nat.lt_of_succ_lt hi), hvalue (i + 1) hi, ha, hb] at hmin hmax
    exact .between hlow hhigh (hlt _ (List.getElem_mem hi)) ha hb
      (fun g hg hg' => hgap g (not_mem_gap hsorted hi hg hg')) ⟨hpl, hpr⟩ hmin hmax

end

/-! ### When a repair is sound -/

def NoNan (measured : List (List FloatEntry)) (names : List String) : Prop :=
  ∀ c < names.length, ∀ t < measured.length, sample measured t c ≠ .nan

/-- Channels of one name have as many samples beyond the bound. -/
def CountsByName (measured : List (List FloatEntry)) (names : List String) : Prop :=
  ∀ c < names.length, ∀ c' < names.length, names.getD c "" = names.getD c' "" →
    beyondCount (column measured c) = beyondCount (column measured c')

instance : Decidable (NoNan measured names) :=
  inferInstanceAs (Decidable (∀ c < names.length, ∀ t < measured.length, sample measured t c ≠ .nan))

instance : Decidable (CountsByName measured names) :=
  inferInstanceAs (Decidable (∀ c < names.length, ∀ c' < names.length, names.getD c "" = names.getD c' "" →
    beyondCount (column measured c) = beyondCount (column measured c')))

theorem countOf_repairedChannels (hchannels : record.channels = repairedChannels measured names)
    (hnames : CountsByName measured names) {c : Nat} (hc : c < names.length) :
    record.countOf (names.getD c "") = beyondCount (column measured c) := by
  unfold HandRepair.countOf
  rw [hchannels]
  cases hlookup : (repairedChannels measured names).reverse.lookup (names.getD c "") with
  | some n =>
    -- The entry may be that of another channel, which then has the same name.
    obtain ⟨before, after, heq, -⟩ := List.lookup_eq_some_iff.mp hlookup
    have hmem : (names.getD c "", n) ∈ repairedChannels measured names := by
      rw [← List.mem_reverse, heq]
      exact List.mem_append_right _ List.mem_cons_self
    obtain ⟨c', hc', hentry⟩ := List.mem_filterMap.mp hmem
    split at hentry
    · cases hentry
    · obtain ⟨hname, hcount⟩ := Prod.mk.inj (Option.some.inj hentry)
      rw [Option.getD_some, ← hcount]
      exact hnames c' (List.mem_range.mp hc') c hc hname
  | none =>
    have hnone := List.lookup_eq_none_iff.mp hlookup
    by_contra hsome
    have hmem : (names.getD c "", beyondCount (column measured c)) ∈ (repairedChannels measured names).reverse := by
      rw [List.mem_reverse]
      exact List.mem_filterMap.mpr ⟨c, List.mem_range.mpr hc, if_neg fun hzero => hsome hzero.symm⟩
    exact absurd (hnone _ hmem) (by simp)

theorem countP_physical {samples : List FloatEntry} (h : ∀ x ∈ samples, x ≠ .nan) :
    samples.countP (fun x => !x.physical) = beyondCount samples := by
  refine List.countP_congr fun x hx => ?_
  rw [physical_eq_not_beyond (h x hx), Bool.not_not]

theorem mem_column {c : Nat} {x : FloatEntry} (h : x ∈ column measured c) : ∃ t < measured.length, x = sample measured t c := by
  obtain ⟨t, ht, rfl⟩ := List.getElem_of_mem h
  exact ⟨t, by rwa [column, List.length_map] at ht, (List.getD_eq_getElem _ _ ht).symm⟩

theorem goodFrames_ne_nil {c t : Nat} (ht : t < measured.length)
    (hevery : beyondCount (column measured c) ≠ 0 → beyondCount (column measured c) ≠ measured.length) :
    goodFrames measured c ≠ [] := by
  intro hnil
  have hall : beyondCount (column measured c) = (column measured c).length := by
    refine List.countP_eq_length.mpr fun x hx => ?_
    obtain ⟨i, hi, rfl⟩ := mem_column hx
    by_contra hbeyond
    have hmem := mem_goodFrames.mpr ⟨hi, Bool.eq_false_iff.mpr hbeyond⟩
    rw [hnil] at hmem
    cases hmem
  rw [column, List.length_map] at hall
  exact hevery (by rw [column, hall]; omega) hall

/-- An accepted repair is sound exactly where no sample is NaN and no name stands for two counts. -/
theorem soundRepair_iff (h : repairNonphysicalSamples interpEntry measured names = .ok (repaired, record)) :
    SoundRepair measured names repaired record ↔ NoNan measured names ∧ CountsByName measured names := by
  obtain ⟨hwidth, rfl, hchannels, hevery⟩ := repair_accepted h
  constructor
  · intro hsound
    have hnan : NoNan measured names := fun c hc t ht heq => by
      have hphysical := hsound.physical t ht c hc
      rw [sample_repaired hwidth ht hc, heq] at hphysical
      cases hphysical
    refine ⟨hnan, fun c hc c' hc' hname => ?_⟩
    have hcount : ∀ c < names.length, (column measured c).countP (fun x => !x.physical) = beyondCount (column measured c) :=
      fun c hc => countP_physical fun x hx => by
        obtain ⟨t, ht, rfl⟩ := mem_column hx
        exact hnan c hc t ht
    rw [← hcount c hc, ← hcount c' hc', ← hsound.counts c hc, ← hsound.counts c' hc', hname]
  · rintro ⟨hnan, hnames⟩
    have hfilled : ∀ t < measured.length, ∀ c < names.length, (sample measured t c).physical = false →
        Filled (column measured c) t (sample (repairedRows interpEntry measured) t c) := fun t ht c hc hbad => by
      rw [physical_eq_not_beyond (hnan c hc t ht), Bool.not_eq_false'] at hbad
      rw [sample_repaired hwidth ht hc, if_pos hbad]
      refine filled_of_beyond (hnan c hc) (fun hgood => ?_) (goodFrames_ne_nil ht (hevery c hc))
      rw [(mem_goodFrames.mp hgood).2] at hbad
      cases hbad
    have hkept : ∀ t < measured.length, ∀ c < names.length, (sample measured t c).physical →
        sample (repairedRows interpEntry measured) t c = sample measured t c := fun t ht c hc hgood => by
      rw [physical_eq_not_beyond (hnan c hc t ht), Bool.not_eq_true'] at hgood
      rw [sample_repaired hwidth ht hc, if_neg (Bool.eq_false_iff.mp hgood)]
    refine ⟨fun t ht c hc => ?_, hkept, hfilled, fun c hc => ?_⟩
    · cases hbad : (sample measured t c).physical with
      | true => rwa [hkept t ht c hc hbad]
      | false => exact (hfilled t ht c hc hbad).physical
    · rw [countOf_repairedChannels hchannels hnames hc, countP_physical]
      intro x hx
      obtain ⟨t, ht, rfl⟩ := mem_column hx
      exact hnan c hc t ht

end
/-! ### The extremes of a channel -/

namespace FloatEntry

theorem min_choice (a b : FloatEntry) : min a b = a ∨ min a b = b := by
  show minimum a b = a ∨ minimum a b = b
  unfold minimum
  split
  · exact Or.inl rfl
  · exact Or.inr rfl

theorem max_choice (a b : FloatEntry) : max a b = a ∨ max a b = b := by
  show maximum a b = a ∨ maximum a b = b
  unfold maximum
  split
  · exact Or.inl rfl
  · exact Or.inr rfl

end FloatEntry

theorem entry_le_refl {x : FloatEntry} (h : x ≠ .nan) : x.le x = true := by
  rcases x with _ | (_ | _) | a
  · exact absurd rfl h
  · rfl
  · rfl
  · exact decide_eq_true (le_refl a)

theorem entry_le_trans {x y z : FloatEntry} (hxy : x.le y = true) (hyz : y.le z = true) : x.le z = true := by
  rcases x with _ | (_ | _) | a <;> rcases y with _ | (_ | _) | b <;> rcases z with _ | (_ | _) | c <;>
    simp only [FloatEntry.le, decide_eq_true_eq, Bool.false_eq_true] at hxy hyz ⊢
  exact hxy.trans hyz

theorem entry_le_total {x y : FloatEntry} (hx : x ≠ .nan) (hy : y ≠ .nan) : x.le y = true ∨ y.le x = true := by
  rcases x with _ | (_ | _) | a <;> rcases y with _ | (_ | _) | b <;>
    simp only [FloatEntry.le, decide_eq_true_eq, true_or, or_true, ne_eq, not_true_eq_false] at hx hy ⊢
  exact le_total a b

/-- The entry is NaN, or not less than another one. -/
def AtLeast (x y : FloatEntry) : Prop := y = .nan ∨ x.le y = true

/-- The entry is NaN, or not greater than another one. -/
def AtMost (x y : FloatEntry) : Prop := y = .nan ∨ y.le x = true

section
variable {x a b : FloatEntry}

theorem isNan_iff : x.isNan = true ↔ x = .nan := by
  cases x <;> simp [FloatEntry.isNan]

theorem ne_nan_of_le (h : a.le b = true) : a ≠ .nan := by
  rintro rfl
  cases h

theorem max_atLeast_left (h : AtLeast x a) : AtLeast x (max a b) := by
  show AtLeast x (FloatEntry.maximum a b)
  unfold FloatEntry.maximum
  split
  · exact h
  · rename_i hb
    rw [Bool.or_eq_true, not_or, isNan_iff] at hb
    by_cases hnan : b = .nan
    · exact Or.inl hnan
    · have hab := (entry_le_total hb.1 hnan).resolve_right hb.2
      exact Or.inr (entry_le_trans (h.resolve_left hb.1) hab)

theorem max_atLeast_right (h : AtLeast x b) : AtLeast x (max a b) := by
  show AtLeast x (FloatEntry.maximum a b)
  unfold FloatEntry.maximum
  split
  · rename_i ha
    rw [Bool.or_eq_true, isNan_iff] at ha
    rcases ha with hnan | hba
    · exact Or.inl hnan
    · exact Or.inr (entry_le_trans (h.resolve_left (ne_nan_of_le hba)) hba)
  · exact h

theorem ne_nan_of_le' (h : a.le b = true) : b ≠ .nan := by
  rintro rfl
  rcases a with _ | (_ | _) | a <;> cases h

theorem min_atMost_left (h : AtMost x a) : AtMost x (min a b) := by
  show AtMost x (FloatEntry.minimum a b)
  unfold FloatEntry.minimum
  split
  · exact h
  · rename_i hb
    rw [Bool.or_eq_true, not_or, isNan_iff] at hb
    by_cases hnan : b = .nan
    · exact Or.inl hnan
    · have hba := (entry_le_total hb.1 hnan).resolve_left hb.2
      exact Or.inr (entry_le_trans hba (h.resolve_left hb.1))

theorem min_atMost_right (h : AtMost x b) : AtMost x (min a b) := by
  show AtMost x (FloatEntry.minimum a b)
  unfold FloatEntry.minimum
  split
  · rename_i ha
    rw [Bool.or_eq_true, isNan_iff] at ha
    rcases ha with hnan | hab
    · exact Or.inl hnan
    · exact Or.inr (entry_le_trans hab (h.resolve_left (ne_nan_of_le' hab)))
  · exact h

theorem atLeast_self (x : FloatEntry) : AtLeast x x := by
  by_cases h : x = .nan
  · exact Or.inl h
  · exact Or.inr (entry_le_refl h)

theorem atMost_self (x : FloatEntry) : AtMost x x := atLeast_self x

/-- Where no entry is NaN, an extreme is beyond the bound if an entry between them is. -/
theorem beyond_of_between (hlow : AtMost x a) (hhigh : AtLeast x b) (ha : a ≠ .nan) (hb : b ≠ .nan) {bound : ℚ}
    (hx : x.beyond bound) : a.beyond bound ∨ b.beyond bound := by
  have hlow := hlow.resolve_left ha
  have hhigh := hhigh.resolve_left hb
  rcases x with _ | (_ | _) | x
  · cases hx
  · rcases b with _ | (_ | _) | b
    all_goals first | exact Or.inr rfl | exact absurd rfl hb | cases hhigh
  · rcases a with _ | (_ | _) | a
    all_goals first | exact Or.inl rfl | exact absurd rfl ha | cases hlow
  · rcases a with _ | (_ | _) | a
    · exact absurd rfl ha
    · exact Or.inl rfl
    · exact Or.inl rfl
    rcases b with _ | (_ | _) | b
    · exact absurd rfl hb
    · exact Or.inr rfl
    · exact Or.inr rfl
    simp only [FloatEntry.le, FloatEntry.beyond, decide_eq_true_eq, lt_abs] at hlow hhigh hx ⊢
    rcases hx with hx | hx
    · exact Or.inr (Or.inl (by linarith))
    · exact Or.inl (Or.inr (by linarith))

end
/-- The extremes of each channel: entries of it, or NaN. -/
structure Extremes {d : Nat} (frames : List (Fin d → FloatEntry)) (s : Summary FloatEntry d) : Prop where
  min_mem : ∀ c, s.min c ∈ channel frames c
  max_mem : ∀ c, s.max c ∈ channel frames c
  least : ∀ c, ∀ x ∈ channel frames c, AtMost x (s.min c)
  greatest : ∀ c, ∀ x ∈ channel frames c, AtLeast x (s.max c)

/-! ### The bound on the statistics -/

section
-- Whatever the arithmetic of the means.
variable [Zero FloatEntry] [Add FloatEntry] [Sub FloatEntry] [Mul FloatEntry] [Div FloatEntry] [NatCast FloatEntry] {d : Nat}

theorem block_extremes (first : Fin d → FloatEntry) (rest : List (Fin d → FloatEntry)) :
    Extremes (first :: rest) (Summary.block first rest) where
  min_mem c := foldl_mem FloatEntry.min_choice (first c) (channel rest c)
  max_mem c := foldl_mem FloatEntry.max_choice (first c) (channel rest c)
  least c x hx := foldl_keeps (p := AtMost x) (fun _ _ => min_atMost_left) (fun _ _ => min_atMost_right) (first c)
    (channel rest c) ⟨x, hx, atMost_self x⟩
  greatest c x hx := foldl_keeps (p := AtLeast x) (fun _ _ => max_atLeast_left) (fun _ _ => max_atLeast_right) (first c)
    (channel rest c) ⟨x, hx, atLeast_self x⟩

omit [Zero FloatEntry] in
theorem merge_extremes {frames others : List (Fin d → FloatEntry)} {s b : Summary FloatEntry d} (hs : Extremes frames s)
    (hb : Extremes others b) : Extremes (frames ++ others) (s.merge b) where
  min_mem c := by
    rw [channel_append, List.mem_append]
    rcases FloatEntry.min_choice (s.min c) (b.min c) with h | h
    · exact Or.inl ((show (s.merge b).min c = s.min c from h) ▸ hs.min_mem c)
    · exact Or.inr ((show (s.merge b).min c = b.min c from h) ▸ hb.min_mem c)
  max_mem c := by
    rw [channel_append, List.mem_append]
    rcases FloatEntry.max_choice (s.max c) (b.max c) with h | h
    · exact Or.inl ((show (s.merge b).max c = s.max c from h) ▸ hs.max_mem c)
    · exact Or.inr ((show (s.merge b).max c = b.max c from h) ▸ hb.max_mem c)
  least c x hx := by
    rw [channel_append, List.mem_append] at hx
    rcases hx with hx | hx
    · exact min_atMost_left (hs.least c x hx)
    · exact min_atMost_right (hb.least c x hx)
  greatest c x hx := by
    rw [channel_append, List.mem_append] at hx
    rcases hx with hx | hx
    · exact max_atLeast_left (hs.greatest c x hx)
    · exact max_atLeast_right (hb.greatest c x hx)

end

/-- The measured values of the state of some episodes. -/
def Measured (episodes : List (StatVectors FloatEntry)) (x : FloatEntry) : Prop :=
  ∃ c : Fin stateDim, measuredOffset ≤ c ∧ x ∈ channel (episodes.map (·.state)).flatten c

/-- The greatest magnitude is that of a value, and NaN or not less than that of any. -/
theorem absMax_spec {values : List FloatEntry} (h : values ≠ []) :
    absMax values ∈ values.map FloatEntry.abs ∧ ∀ x ∈ values, AtLeast x.abs (absMax values) := by
  obtain ⟨first, rest, rfl⟩ := List.exists_cons_of_ne_nil h
  refine ⟨foldl_mem FloatEntry.max_choice first.abs (rest.map FloatEntry.abs), fun x hx => ?_⟩
  exact foldl_keeps (p := AtLeast x.abs) (fun _ _ => max_atLeast_left) (fun _ _ => max_atLeast_right) first.abs
    (rest.map FloatEntry.abs) ⟨x.abs, List.mem_map_of_mem (l := first :: rest) hx, atLeast_self _⟩

theorem abs_eq_nan {x : FloatEntry} : x.abs = .nan ↔ x = .nan := by
  cases x <;> simp [FloatEntry.abs]

theorem abs_beyond {x : FloatEntry} {bound : ℚ} : x.abs.beyond bound = x.beyond bound := by
  cases x <;> simp [FloatEntry.abs, FloatEntry.beyond]

theorem beyond_of_abs_le {x y : FloatEntry} {bound : ℚ} (hx : x.beyond bound) (h : x.abs.le y = true) : y.beyond bound := by
  rcases x with _ | _ | x
  · cases hx
  · rcases y with _ | (_ | _) | y
    all_goals first | rfl | cases h
  · rcases y with _ | (_ | _) | y
    · cases h
    · rfl
    · rfl
    · simp only [FloatEntry.beyond, FloatEntry.abs, FloatEntry.le, decide_eq_true_eq] at hx h ⊢
      exact hx.trans_le (h.trans (le_abs_self y))

/-- The greatest magnitude is above the bound exactly where a value is and none is NaN. -/
theorem absMax_beyond_iff {values : List FloatEntry} (hne : values ≠ []) {bound : ℚ} :
    (absMax values).beyond bound = true ↔ .nan ∉ values ∧ ∃ x ∈ values, x.beyond bound = true := by
  obtain ⟨hmem, hge⟩ := absMax_spec hne
  constructor
  · intro h
    refine ⟨fun hnan => ?_, ?_⟩
    · rcases hge _ hnan with heq | hle
      · rw [heq] at h
        cases h
      · exact absurd rfl (ne_nan_of_le hle)
    · obtain ⟨x, hx, heq⟩ := List.mem_map.mp hmem
      exact ⟨x, hx, by rwa [← heq, abs_beyond] at h⟩
  · rintro ⟨hnan, x, hx, hbeyond⟩
    refine beyond_of_abs_le hbeyond ((hge x hx).resolve_left fun heq => ?_)
    rw [heq, List.mem_map] at hmem
    obtain ⟨y, hy, habs⟩ := hmem
    exact hnan (abs_eq_nan.mp habs ▸ hy)

theorem mem_ofFn_drop {n : Nat} {f : Fin n → FloatEntry} {k : Nat} {x : FloatEntry} :
    x ∈ (List.ofFn f).drop k ↔ ∃ c : Fin n, k ≤ c ∧ f c = x := by
  rw [List.mem_drop_iff_getElem]
  constructor
  · rintro ⟨i, hi, rfl⟩
    rw [List.length_ofFn] at hi
    rw [List.getElem_ofFn]
    exact ⟨⟨k + i, by omega⟩, Nat.le_add_right _ _, rfl⟩
  · rintro ⟨c, hc, rfl⟩
    refine ⟨c - k, ?_, ?_⟩
    · rw [List.length_ofFn]
      omega
    · rw [List.getElem_ofFn]
      exact congrArg f (Fin.ext (by simp; omega))

/-- Statistics are refused exactly where a measured extreme is beyond the bound and none is NaN. -/
theorem verify_error_iff {stats : List (String × StatBlock FloatEntry)} {block : StatBlock FloatEntry}
    {low high : Fin stateDim → FloatEntry} {bound : ℚ} (hblock : stats.lookup stateField = some block)
    (hmin : block.min = List.ofFn low) (hmax : block.max = List.ofFn high) :
    (∃ e, verifyStatsArePhysical stats bound = .error e) ↔
      .nan ∉ (List.ofFn low).drop measuredOffset ++ (List.ofFn high).drop measuredOffset ∧
        ∃ x ∈ (List.ofFn low).drop measuredOffset ++ (List.ofFn high).drop measuredOffset, x.beyond bound = true := by
  have hlen : canonicalStateNames.length = stateDim := by decide
  have hne : (List.ofFn low).drop measuredOffset ++ (List.ofFn high).drop measuredOffset ≠ [] := by
    refine List.append_ne_nil_of_left_ne_nil (List.ne_nil_of_length_pos ?_) _
    rw [List.length_drop, List.length_ofFn]
    decide
  rw [← absMax_beyond_iff hne]
  unfold verifyStatsArePhysical
  rw [hblock]
  dsimp only
  rw [hmin, hmax, if_neg (by simp [hlen])]
  constructor
  · rintro ⟨e, h⟩
    by_contra hworst
    rw [if_neg hworst] at h
    cases h
  · intro hworst
    rw [if_pos hworst]
    exact ⟨_, rfl⟩

section
variable [Zero FloatEntry] [Add FloatEntry] [Sub FloatEntry] [Mul FloatEntry] [Div FloatEntry] [NatCast FloatEntry]
variable {sqrt : FloatEntry → FloatEntry} {episodes : List (StatVectors FloatEntry)}
  {stats : List (String × StatBlock FloatEntry)}

theorem add_state {s s' : SplitStats FloatEntry} {e : StatVectors FloatEntry} (h : s.add e = .ok s') :
    s.state.update e.state = .ok s'.state := by
  obtain ⟨state, hstate, h⟩ := bind_ok h
  obtain ⟨handAction, -, h⟩ := bind_ok h
  obtain ⟨bodyToken, -, h⟩ := bind_ok h
  cases h
  exact hstate

theorem adds_state {s s' : SplitStats FloatEntry} (h : episodes.foldlM SplitStats.add s = .ok s') :
    (episodes.map (·.state)).foldlM RunningStats.update s.state = .ok s'.state := by
  induction episodes generalizing s with
  | nil =>
    cases h
    rfl
  | cons e es ih =>
    rw [List.foldlM_cons] at h
    obtain ⟨mid, hmid, hrest⟩ := bind_ok h
    rw [List.map_cons, List.foldlM_cons, add_state hmid]
    exact ih hrest

/-- The block of the state that a split resolves to, and the extremes behind it. -/
theorem state_block (h : splitStatistics sqrt episodes = .ok stats) :
    ∃ s block, stats.lookup stateField = some block ∧ block.min = List.ofFn s.min ∧ block.max = List.ofFn s.max ∧
      Extremes (episodes.map (·.state)).flatten s := by
  obtain ⟨running, hrun, h⟩ := bind_ok h
  obtain ⟨state, hstate, h⟩ := bind_ok h
  obtain ⟨handAction, -, h⟩ := bind_ok h
  obtain ⟨bodyToken, -, h⟩ := bind_ok h
  cases h
  have hstart : Gathers Extremes ([] : List (Fin stateDim → FloatEntry)) none := rfl
  have hgathers := updates_gather block_extremes merge_extremes hstart (adds_state hrun)
  rw [List.nil_append] at hgathers
  cases hs : running.state with
  | none =>
    rw [hs] at hstate
    cases hstate
  | some s =>
    rw [hs] at hstate hgathers
    cases hstate
    exact ⟨s, _, List.lookup_cons_self, rfl, rfl, hgathers⟩

/-- The statistics are refused on account of any value that a joint cannot hold exactly where none is NaN. -/
theorem verify_sound_iff (h : splitStatistics sqrt episodes = .ok stats) :
    ((∃ x, Measured episodes x ∧ x.physical = false) →
      ∃ e, verifyStatsArePhysical stats physicalHandSampleBoundRad = .error e) ↔ ¬Measured episodes .nan := by
  obtain ⟨s, block, hblock, hmin, hmax, hextremes⟩ := state_block h
  rw [verify_error_iff hblock hmin hmax]
  simp only [List.mem_append, mem_ofFn_drop, not_or]
  constructor
  · intro hraises hnan
    obtain ⟨⟨hlow, -⟩, -⟩ := hraises ⟨.nan, hnan, rfl⟩
    obtain ⟨c, hc, hmem⟩ := hnan
    rcases hextremes.least c _ hmem with heq | hle
    · exact hlow ⟨c, hc, heq⟩
    · exact ne_nan_of_le' hle rfl
  · rintro hnan ⟨x, ⟨c, hc, hmem⟩, hbad⟩
    have hx : x ≠ .nan := fun heq => hnan ⟨c, hc, heq ▸ hmem⟩
    rw [physical_eq_not_beyond hx, Bool.not_eq_false'] at hbad
    have hlow : ∀ c : Fin stateDim, measuredOffset ≤ c → s.min c ≠ .nan := fun c hc heq =>
      hnan ⟨c, hc, heq ▸ hextremes.min_mem c⟩
    have hhigh : ∀ c : Fin stateDim, measuredOffset ≤ c → s.max c ≠ .nan := fun c hc heq =>
      hnan ⟨c, hc, heq ▸ hextremes.max_mem c⟩
    refine ⟨⟨fun ⟨c, hc, heq⟩ => hlow c hc heq, fun ⟨c, hc, heq⟩ => hhigh c hc heq⟩, ?_⟩
    rcases beyond_of_between (hextremes.least c x hmem) (hextremes.greatest c x hmem) (hlow c hc) (hhigh c hc) hbad with h | h
    · exact ⟨s.min c, Or.inl ⟨c, hc, rfl⟩, h⟩
    · exact ⟨s.max c, Or.inr ⟨c, hc, rfl⟩, h⟩

end

/-! ### The guards -/

/-- A repair is sound exactly for an episode without a NaN, whose names tell its channels apart as far as their counts go; and the
    statistics of a split are refused whenever they should be exactly where no measured value is NaN. -/
theorem physical_guard (measured : List (List FloatEntry)) (names : List String) (repaired : List (List FloatEntry))
    (record : HandRepair) :
    (repairNonphysicalSamples interpEntry measured names = .ok (repaired, record) →
      (SoundRepair measured names repaired record ↔ NoNan measured names ∧ CountsByName measured names)) ∧
    ∀ [Zero FloatEntry] [Add FloatEntry] [Sub FloatEntry] [Mul FloatEntry] [Div FloatEntry] [NatCast FloatEntry]
      (sqrt : FloatEntry → FloatEntry) (episodes : List (StatVectors FloatEntry)) (stats : List (String × StatBlock FloatEntry)),
      splitStatistics sqrt episodes = .ok stats →
        (((∃ x, Measured episodes x ∧ x.physical = false) →
          ∃ e, verifyStatsArePhysical stats physicalHandSampleBoundRad = .error e) ↔ ¬Measured episodes .nan) :=
  ⟨fun h => soundRepair_iff h, fun _ _ _ h => verify_sound_iff h⟩

section

/-- Float64 arithmetic of finite values. -/
def FloatEntry.rounded (op : ℚ → ℚ → ℚ) : FloatEntry → FloatEntry → FloatEntry
  | .finite a, .finite b => .finite (float64 (op a b))
  | _, _ => .nan

local instance : Zero FloatEntry := ⟨.finite 0⟩
local instance : Add FloatEntry := ⟨.rounded (· + ·)⟩
local instance : Sub FloatEntry := ⟨.rounded (· - ·)⟩
local instance : Mul FloatEntry := ⟨.rounded (· * ·)⟩
local instance : Div FloatEntry := ⟨.rounded (· / ·)⟩
local instance : NatCast FloatEntry := ⟨fun n => .finite (float64 n)⟩

/-- An episode of one frame, in which a measured channel holds a spike. -/
def spikedFrame : StatVectors FloatEntry where
  state := [fun c => if c.val = 20 then .finite 500 else 0]
  handAction := [fun _ => 0]
  bodyToken := [fun _ => 0]

/-- A spike between two samples is repaired, and the statistics of one that was left are refused. The deviations of a single frame are
    zero, and so are their roots. -/
theorem physical_guard_spike :
    SoundRepair [[.finite 1], [.finite 500], [.finite 2]] ["kRightHandMiddle0"] [[.finite 1], [.finite (3 / 2)], [.finite 2]]
      ⟨"linear_interpolation_over_valid_source_samples", 3, [("kRightHandMiddle0", 1)]⟩ ∧
    ∃ stats, splitStatistics id [spikedFrame] = .ok stats ∧ ∃ e, verifyStatsArePhysical stats physicalHandSampleBoundRad = .error e := by
  have hspike : Measured [spikedFrame] (.finite 500) := ⟨⟨20, by decide⟩, by decide, by decide⟩
  have hnone : ∀ c : Fin stateDim, .nan ∉ channel ([spikedFrame].map (·.state)).flatten c := by decide
  refine ⟨((physical_guard _ _ _ _).1 (by decide +kernel)).mpr ⟨by decide, by decide⟩, _, rfl, ?_⟩
  refine ((physical_guard [] [] [] ⟨"", 0, []⟩).2 id [spikedFrame] _ rfl).mpr ?_ ⟨.finite 500, hspike, by decide⟩
  rintro ⟨c, -, hmem⟩
  exact hnone c hmem

end

/-- A NaN is returned as it was read, and the statistics of a channel that holds one pass beside another one that reaches
    500 rad. -/
theorem nan_passes_the_guards :
    (∃ repaired record, repairNonphysicalSamples interpEntry [[.finite 1], [.nan]] ["kRightHandMiddle0"] = .ok (repaired, record) ∧
      ¬SoundRepair [[.finite 1], [.nan]] ["kRightHandMiddle0"] repaired record) ∧
    verifyStatsArePhysical [(stateField, ⟨List.replicate 42 (.finite (-1)) ++ [.nan],
      List.replicate 41 (.finite 1) ++ [.finite 500, .nan], List.replicate 43 (.finite 0), List.replicate 43 (.finite 1), 2⟩)]
      physicalHandSampleBoundRad = .ok ⟨.nan, 3⟩ := by
  refine ⟨⟨[[.finite 1], [.nan]], ⟨"none", 3, []⟩, by decide, fun h => ?_⟩, by decide +kernel⟩
  exact absurd (h.physical 1 (by decide) 0 (by decide)) (by decide)

end HumanoidLab.Psi0Dex3
