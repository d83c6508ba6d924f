import HumanoidLab.Datasets.Selection

/-! The nearest sample, in exact arithmetic. From two samples on, the bisection selects what a search through the whole timeline
    selects, the lower of two samples at one distance. With one sample it selects the place before it. -/

namespace HumanoidLab.Psi0Dex3
open Nearest

/-- The place of the nearest sample of a target, the lowest one on a tie. -/
def IsNearest (source : List ℚ) (t : ℚ) (i : Int) : Prop :=
  ∃ n, ∃ hn : n < source.length, i = n ∧ (∀ j (hj : j < source.length), |source[n] - t| ≤ |source[j] - t|) ∧
    ∀ j (hj : j < source.length), |source[j] - t| = |source[n] - t| → n ≤ j

/-- The indices that the nearest-timestamp selection is to return. -/
structure Selects (source target : List ℚ) (index : List Int) : Prop where
  nearest : List.Forall₂ (IsNearest source) target index
  sorted : target.Pairwise (· ≤ ·) → index.Pairwise (· ≤ ·)
  brute : index = (nearestBruteBy (· - ·) source target).map Nat.cast

variable {source target : List ℚ}

theorem isNearest_least (hne : source ≠ []) (t : ℚ) :
    IsNearest source t ((least (source.map fun s => |s - t|) : Nat) : Int) := by
  have hearliest : Earliest (fun a b : ℚ => |a - b|) source t (least (source.map fun s => |s - t|)) := earliest_least hne
  obtain ⟨hlen, hleast⟩ := hearliest.closest
  refine ⟨_, hlen, rfl, hleast, fun j hj heq => hearliest.first j ⟨hj, fun i hi => ?_⟩⟩
  exact heq.trans_le (hleast i hi)

/-- In exact arithmetic, two samples or more give the place that a search through all of them finds. -/
theorem nearestIndexBy_exact (hsorted : source.Pairwise (· < ·)) (hmany : 1 < source.length) (t : ℚ) :
    nearestIndexBy (· - ·) source t = ((least (source.map fun s => |s - t|) : Nat) : Int) := by
  obtain ⟨k, hk, haround, heq⟩ := nearestIndexBy_many (· - ·) hmany t
  have hleast := least_of_around between_abs hsorted (apart_abs hsorted t) hk haround
  rw [heq, hleast]
  simp only [abs_sub_comm t]

theorem belowBy_lt {a b : ℚ} (h : a < b) : (FloatEntry.finite a).belowBy (· - ·) (.finite b) = true :=
  decide_eq_true (sub_pos.mpr h)

theorem strictlyIncreasingBy_exact (hsorted : source.Pairwise (· < ·)) :
    strictlyIncreasingBy (· - ·) (source.map FloatEntry.finite) = true := by
  induction source with
  | nil => rfl
  | cons a rest ih =>
    cases rest with
    | nil => rfl
    | cons b rest =>
      rw [List.pairwise_cons] at hsorted
      have hrest := ih hsorted.2
      simp only [strictlyIncreasingBy, List.map_cons, List.tail_cons, List.zip_cons_cons, List.all_cons, Bool.and_eq_true] at hrest ⊢
      exact ⟨belowBy_lt (hsorted.1 b List.mem_cons_self), hrest⟩

/-- Finite timelines are accepted when the source is strictly increasing. -/
theorem nearestIndicesBy_exact (hne : source ≠ []) (hsorted : source.Pairwise (· < ·)) :
    nearestIndicesBy (· - ·) (source.map FloatEntry.finite) (target.map FloatEntry.finite) =
      .ok (target.map fun t => nearestIndexBy (· - ·) source t) := by
  have hfinite : ∀ l : List ℚ, (l.map FloatEntry.finite).all FloatEntry.isFinite = true := fun l => by
    rw [List.all_map, List.all_eq_true]
    intro x _
    rfl
  have hvalue : (source.map FloatEntry.finite).map FloatEntry.value = source := by
    rw [List.map_map]
    exact List.map_id _
  unfold nearestIndicesBy
  rw [if_neg (by simpa using hne), if_neg (by simp [strictlyIncreasingBy_exact hsorted]), if_neg (by simp [hfinite]), hvalue,
    List.map_map]
  rfl

/-- The place before the only sample is the nearest one of no target. -/
theorem not_isNearest_one {s t : ℚ} : ¬IsNearest [s] t (-1) := by
  rintro ⟨n, hn, h, -⟩
  omega

/-- With exact differences the bisection selects the nearest samples of any targets exactly where there is more than one sample. With
    those of float64 it is the function that runs, and so is the search. -/
theorem nearest_selection (source target : List ℚ) (hne : source ≠ []) (hsorted : source.Pairwise (· < ·)) :
    ((∃ index, nearestIndicesBy (· - ·) (source.map FloatEntry.finite) (target.map FloatEntry.finite) = .ok index ∧
      Selects source target index) ↔ 1 < source.length ∨ target = []) ∧
    (∀ source target, nearestIndicesBy (fun x y => float64 (x - y)) source target = nearestIndices source target) ∧
    ∀ source target, nearestBruteBy (fun x y => float64 (x - y)) source target = nearestBrute source target := by
  refine ⟨?_, nearestIndicesBy_float64, nearestBruteBy_float64⟩
  rw [nearestIndicesBy_exact hne hsorted]
  constructor
  · rintro ⟨index, hindex, hselects⟩
    by_contra hnot
    rw [not_or] at hnot
    match source, target, hne, hnot with
    | [s], t :: target, _, _ =>
      have hnearest := hselects.nearest
      rw [← Except.ok.inj hindex, List.map_cons, nearestIndexBy_one _ (abs_sub_comm · ·), List.forall₂_cons] at hnearest
      exact not_isNearest_one hnearest.1
    | _ :: _ :: _, _, _, hnot => exact hnot.1 (by simp)
  · rintro (hmany | rfl)
    · have hbrute : (target.map fun t => nearestIndexBy (· - ·) source t) =
          (nearestBruteBy (· - ·) source target).map Nat.cast := by
        unfold nearestBruteBy
        rw [List.map_map]
        exact List.map_congr_left fun t _ => nearestIndexBy_exact hsorted hmany t
      refine ⟨_, rfl, ?_, fun htarget => ?_, hbrute⟩
      · rw [List.forall₂_map_right_iff, List.forall₂_same]
        intro t _
        rw [nearestIndexBy_exact hsorted hmany]
        exact isNearest_least hne t
      · refine List.pairwise_map.mpr (htarget.imp fun {t u} htu => ?_)
        rw [nearestIndexBy_exact hsorted hmany, nearestIndexBy_exact hsorted hmany]
        exact_mod_cast least_mono hsorted htu
    · exact ⟨[], rfl, List.Forall₂.nil, fun _ => List.Pairwise.nil, rfl⟩

theorem nearest_selection_two : ∃ index, nearestIndicesBy (· - ·) ([0, 1 / 50].map FloatEntry.finite)
    ([1 / 100].map FloatEntry.finite) = .ok index ∧ Selects [0, 1 / 50] [1 / 100] index :=
  (nearest_selection [0, 1 / 50] [1 / 100] (by simp) (by norm_num)).1.mpr (.inl (by decide))

/-- One sample: the bisection selects the place −1, and the search the place 0. -/
theorem nearest_selection_one :
    nearestIndicesBy (· - ·) [FloatEntry.finite 0] [FloatEntry.finite 0] = .ok [-1] ∧
      nearestIndices [FloatEntry.finite 0] [FloatEntry.finite 0] = .ok [-1] ∧ nearestBruteBy (· - ·) [0] [0] = [0] ∧
      ¬Selects [0] [0] [-1] := by
  refine ⟨by decide +kernel, by decide +kernel, by decide +kernel, fun h => ?_⟩
  have hnearest := h.nearest
  rw [List.forall₂_cons] at hnearest
  exact not_isNearest_one hnearest.1

end HumanoidLab.Psi0Dex3
