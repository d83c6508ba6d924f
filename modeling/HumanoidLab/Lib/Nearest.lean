import Mathlib.Algebra.Order.Group.Abs
import Mathlib.Data.Finset.Max
import Mathlib.Data.List.GetD
import Mathlib.Tactic.Linarith

/-! The nearest sample of a sorted list. A bisection leaves two neighbours; where the distances on either side of the target
    differ, the nearer of the two is the first least distance of a search through all samples. -/

namespace Nearest

variable {K D : Type} [LinearOrder D]

/-! ### The first least value -/

/-- The first place of a least value. -/
def least (ds : List D) : Nat := ds.findIdx fun d => ds.all (d ≤ ·)

theorem least_lt {ds : List D} (h : ds ≠ []) : least ds < ds.length := by
  obtain ⟨d, hd, hmin⟩ := ds.toFinset.exists_min_image id (List.toFinset_nonempty_iff ds |>.mpr h)
  refine List.findIdx_lt_length_of_exists ⟨d, List.mem_toFinset.mp hd, List.all_eq_true.mpr fun x hx => ?_⟩
  exact decide_eq_true (hmin x (List.mem_toFinset.mpr hx))

theorem least_le {ds : List D} (h : least ds < ds.length) {i : Nat} (hi : i < ds.length) : ds[least ds] ≤ ds[i] := by
  have hleast := List.findIdx_getElem (p := fun d => ds.all (d ≤ ·)) (w := h)
  exact of_decide_eq_true (List.all_eq_true.mp hleast _ (List.getElem_mem hi))

theorem least_first {ds : List D} (h : least ds < ds.length) {i : Nat} (hlen : i < ds.length) (hi : i < least ds) :
    ds[least ds] < ds[i] := by
  refine lt_of_le_of_ne (least_le h hlen) fun heq => ?_
  have hnot := List.not_of_lt_findIdx (p := fun d => ds.all (d ≤ ·)) hi
  rw [Bool.eq_false_iff] at hnot
  refine hnot (List.all_eq_true.mpr fun x hx => ?_)
  obtain ⟨j, hj, rfl⟩ := List.getElem_of_mem hx
  exact decide_eq_true (heq ▸ least_le h hj)

/-! ### The two neighbours of a target -/

section
variable [LinearOrder K]

/-- The first place whose sample is not before the target. -/
def bisect (source : List K) (t : K) : Nat := source.findIdx (t ≤ ·)

/-- The target lies between the samples `k` and `k + 1`, or beyond the end that they are at. -/
structure Around (source : List K) (t : K) (k : Nat) : Prop where
  below : k = 0 ∨ k < bisect source t
  above : k + 2 = source.length ∨ bisect source t ≤ k + 1

/-- A sample is no nearer than one between it and the target. -/
def Between (d : K → K → D) : Prop := ∀ {a b t : K}, a ≤ b ∧ b ≤ t ∨ t ≤ b ∧ b ≤ a → d b t ≤ d a t

/-- The samples on one side of the target are at different distances. -/
def Apart (d : K → K → D) (source : List K) (t : K) : Prop :=
  ∀ i j (hj : j < source.length) (hij : i < j), source[j] < t ∨ t ≤ source[i] → d source[i] t ≠ d source[j] t

variable {d : K → K → D} {source : List K} {t : K} {k : Nat}

theorem lt_of_bisect {i : Nat} (hi : i < source.length) (h : i < bisect source t) : source[i] < t :=
  not_le.mp (of_decide_eq_false (List.not_of_lt_findIdx h))

theorem le_of_bisect (hsorted : source.Pairwise (· < ·)) {i : Nat} (hi : i < source.length) (h : bisect source t ≤ i) :
    t ≤ source[i] := by
  have hat : t ≤ source[bisect source t] := of_decide_eq_true (List.findIdx_getElem (p := (t ≤ ·)) (w := h.trans_lt hi))
  rcases h.eq_or_lt with heq | hgt
  · simpa only [heq] using hat
  · exact hat.trans (List.pairwise_iff_getElem.mp hsorted _ _ _ hi hgt).le

/-! ### The first and the last of the nearest samples -/

/-- No sample is nearer to the target. -/
def Closest (d : K → K → D) (source : List K) (t : K) (i : Nat) : Prop :=
  ∃ h : i < source.length, ∀ j (hj : j < source.length), d source[i] t ≤ d source[j] t

/-- The sample lies before the target and is not the last of all. -/
def Inside (source : List K) (t : K) (i : Nat) : Prop := ∃ h : i + 1 < source.length, source[i] < t

/-- The first of the nearest samples. -/
structure Earliest (d : K → K → D) (source : List K) (t : K) (i : Nat) : Prop where
  closest : Closest d source t i
  first : ∀ j, Closest d source t j → i ≤ j

/-- The last of the nearest samples that lie before the target, the last sample of all aside. -/
structure Latest (d : K → K → D) (source : List K) (t : K) (i : Nat) : Prop where
  closest : Closest d source t i
  inside : Inside source t i
  last : ∀ j, Closest d source t j → Inside source t j → j ≤ i

omit [LinearOrder K] in
theorem earliest_unique {i j : Nat} (hi : Earliest d source t i) (hj : Earliest d source t j) : i = j :=
  (hi.first j hj.closest).antisymm (hj.first i hi.closest)

theorem latest_unique {i j : Nat} (hi : Latest d source t i) (hj : Latest d source t j) : i = j :=
  (hj.last i hi.closest hi.inside).antisymm (hi.last j hj.closest hj.inside)

omit [LinearOrder K] in
/-- A search through all samples finds the first of the nearest ones. -/
theorem earliest_least (hne : source ≠ []) : Earliest d source t (least (source.map (d · t))) := by
  have hlt : least (source.map (d · t)) < (source.map (d · t)).length := least_lt (by simpa using hne)
  have hlen := hlt
  rw [List.length_map] at hlen
  refine ⟨⟨hlen, fun j hj => ?_⟩, fun j ⟨hj, hclosest⟩ => ?_⟩
  · have hle := least_le hlt (i := j) (by simpa using hj)
    rwa [List.getElem_map, List.getElem_map] at hle
  · by_contra hgt
    have hfirst := least_first hlt (by simpa using hj) (not_le.mp hgt)
    rw [List.getElem_map, List.getElem_map] at hfirst
    exact absurd (hclosest _ hlen) (not_le.mpr hfirst)

theorem Around.inside_le (h : Around source t k) (hsorted : source.Pairwise (· < ·)) {j : Nat} (hj : Inside source t j) :
    j ≤ k := by
  obtain ⟨hlen, hbefore⟩ := hj
  by_contra hgt
  have hafter : bisect source t ≤ j := by
    rcases h.above with hend | hle
    · omega
    · omega
  exact absurd hbefore (not_lt.mpr (le_of_bisect hsorted (by omega) hafter))

/-- The nearer neighbour of a target is the last of the nearest samples before it. Where none lies before it, the nearer
    neighbour is the first of them all. -/
theorem latest_or_earliest (hbetween : Between d) (hsorted : source.Pairwise (· < ·)) (hk : k + 1 < source.length)
    (h : Around source t k) : Latest d source t (if d source[k] t ≤ d source[k + 1] t then k else k + 1) ∨
      Earliest d source t (if d source[k] t ≤ d source[k + 1] t then k else k + 1) ∧ ∀ j, ¬Latest d source t j := by
  have hle : ∀ i j (hj : j < source.length) (hij : i ≤ j), source[i] ≤ source[j] := fun i j hj hij =>
    hij.eq_or_lt.elim (fun heq => by simp only [heq, le_refl]) fun hlt =>
      (List.pairwise_iff_getElem.mp hsorted i j (hij.trans_lt hj) hj hlt).le
  -- No sample below `k` is nearer than it, and no sample above `k + 1` is nearer than that one.
  have hbelow : ∀ i (hi : i ≤ k), d source[k] t ≤ d source[i] t := by
    intro i hi
    rcases h.below with rfl | hlow
    · simp only [Nat.le_zero.mp hi, le_refl]
    · exact hbetween (.inl ⟨hle i k (by omega) hi, (lt_of_bisect (by omega) hlow).le⟩)
  have habove : ∀ i (hi : i < source.length), k + 1 ≤ i → d source[k + 1] t ≤ d source[i] t := by
    intro i hi hgt
    rcases h.above with hend | hhigh
    · simp only [show i = k + 1 by omega, le_refl]
    · exact hbetween (.inr ⟨le_of_bisect hsorted hk hhigh, hle (k + 1) i hi hgt⟩)
  split
  · rename_i hnearer
    have hclosest : Closest d source t k := by
      refine ⟨by omega, fun j hj => ?_⟩
      rcases Nat.lt_or_ge k j with hlt | hge
      · exact hnearer.trans (habove j hj hlt)
      · exact hbelow j hge
    by_cases hbefore : source[k] < t
    · exact .inl ⟨hclosest, ⟨hk, hbefore⟩, fun j _ hinside => h.inside_le hsorted hinside⟩
    · -- Every sample is at the target or after it.
      have hzero : k = 0 := h.below.resolve_right fun hlow => hbefore (lt_of_bisect (by omega) hlow)
      refine .inr ⟨⟨hclosest, fun j _ => by omega⟩, fun j hlatest => ?_⟩
      obtain ⟨hj, hlt⟩ := hlatest.inside
      exact hbefore ((hle k j (by omega) (by omega)).trans_lt hlt)
  · rename_i hnearer
    have hfarther : ∀ i (hi : i ≤ k), d source[k + 1] t < d source[i] t := fun i hi =>
      (not_le.mp hnearer).trans_le (hbelow i hi)
    have hfirst : ∀ j, Closest d source t j → k + 1 ≤ j := by
      rintro j ⟨hj, hclosest⟩
      by_contra hlt
      exact absurd (hclosest (k + 1) hk) (not_le.mpr (hfarther j (by omega)))
    refine .inr ⟨⟨⟨hk, fun j hj => ?_⟩, hfirst⟩, fun j hlatest => ?_⟩
    · rcases Nat.lt_or_ge k j with hlt | hge
      · exact habove j hj hlt
      · exact (hfarther j hge).le
    · have hlow := h.inside_le hsorted hlatest.inside
      have hhigh := hfirst j hlatest.closest
      omega

/-- Where the samples are apart, no earlier sample is at the distance of the latest. -/
theorem Latest.earliest {i : Nat} (h : Latest d source t i) (hapart : Apart d source t) : Earliest d source t i := by
  refine ⟨h.closest, fun j ⟨hj, hclosest⟩ => ?_⟩
  by_contra hlt
  obtain ⟨hi, hleast⟩ := h.closest
  obtain ⟨_, hbefore⟩ := h.inside
  exact hapart j i hi (not_le.mp hlt) (.inl hbefore) ((hclosest i hi).antisymm (hleast j hj))

/-- Where the samples are apart, the nearer neighbour is the one that a search through all samples finds. -/
theorem least_of_around (hbetween : Between d) (hsorted : source.Pairwise (· < ·)) (hapart : Apart d source t)
    (hk : k + 1 < source.length) (h : Around source t k) :
    least (source.map (d · t)) = if d source[k] t ≤ d source[k + 1] t then k else k + 1 := by
  refine earliest_unique (earliest_least (List.ne_nil_of_length_pos (by omega))) ?_
  rcases latest_or_earliest hbetween hsorted hk h with hlatest | ⟨hearliest, -⟩
  · exact hlatest.earliest hapart
  · exact hearliest

end

/-! ### Exact distances -/

section
variable [Field K] [LinearOrder K] [IsStrictOrderedRing K] {source : List K} {t u : K}

theorem between_abs : Between fun a b : K => |a - b| := by
  intro a b t h
  show |b - t| ≤ |a - t|
  rcases h with ⟨hab, hbt⟩ | ⟨htb, hba⟩
  · rw [abs_of_nonpos (by linarith), abs_of_nonpos (by linarith)]
    linarith
  · rw [abs_of_nonneg (by linarith), abs_of_nonneg (by linarith)]
    linarith

theorem apart_abs (hsorted : source.Pairwise (· < ·)) (t : K) : Apart (fun a b : K => |a - b|) source t := by
  intro i j hj hij hside
  have hlt : source[i] < source[j] := List.pairwise_iff_getElem.mp hsorted i j (hij.trans hj) hj hij
  show |source[i] - t| ≠ |source[j] - t|
  rcases hside with hbefore | hafter
  · rw [abs_of_nonpos (by linarith), abs_of_nonpos (by linarith)]
    intro heq
    linarith
  · rw [abs_of_nonneg (by linarith), abs_of_nonneg (by linarith)]
    intro heq
    linarith

/-- A target after one that is nearer to the later sample is nearer to it too. -/
theorem nearer_mono {a b : K} (hab : a < b) (h : t ≤ u) (hnearer : |b - t| < |a - t|) : |b - u| < |a - u| := by
  have ht : a + b < 2 * t := by
    by_contra hge
    have hle : |a - t| ≤ b - t := abs_le.mpr ⟨by linarith, by linarith⟩
    exact absurd (hle.trans (le_abs_self _)) (not_le.mpr hnearer)
  rw [abs_of_nonpos (show a - u ≤ 0 by linarith), abs_lt]
  constructor <;> linarith

/-- A later target has no earlier nearest sample. -/
theorem least_mono (hsorted : source.Pairwise (· < ·)) (h : t ≤ u) :
    least (source.map fun s => |s - t|) ≤ least (source.map fun s => |s - u|) := by
  rcases eq_or_ne source [] with rfl | hne
  · exact le_rfl
  · have hi : least (source.map fun s => |s - t|) < (source.map fun s => |s - t|).length := least_lt (by simpa using hne)
    have hj : least (source.map fun s => |s - u|) < (source.map fun s => |s - u|).length := least_lt (by simpa using hne)
    by_contra hlt
    rw [not_le] at hlt
    have hnearer := least_first hi (hlt.trans hi) hlt
    have hle := least_le hj (i := least (source.map fun s => |s - t|)) (by simpa using hi)
    rw [List.length_map] at hi hj
    rw [List.getElem_map, List.getElem_map] at hnearer hle
    have hord := List.pairwise_iff_getElem.mp hsorted _ _ hj hi hlt
    exact absurd (nearer_mono hord h hnearer) (not_lt.mpr hle)

end

end Nearest
