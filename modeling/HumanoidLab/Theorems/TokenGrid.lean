import HumanoidLab.Bridge.Actions
import HumanoidLab.Lib.Floating

/-! The token channel and its grid. A component goes to a cell of the grid, and the second clip has nothing to do, because the ends of
    the range are on the grid. -/

namespace HumanoidLab
open Rounding

variable {K : Type} [Field K] [LinearOrder K]

/-- A multiple of the step in the range. -/
def OnGrid (x : K) : Prop := (∃ m : Int, x = m * fsqStep) ∧ fsqMin ≤ x ∧ x ≤ fsqMax

/-! ### The clip -/

section
variable {x y lo hi : K}

omit [Field K] in
theorem le_clip (h : lo ≤ hi) : lo ≤ clip x lo hi := le_min (le_max_right x lo) h

omit [Field K] in
theorem clip_le : clip x lo hi ≤ hi := min_le_right _ hi

omit [Field K] in
theorem clip_of_mem (hlow : lo ≤ x) (hhigh : x ≤ hi) : clip x lo hi = x := by
  unfold clip
  rw [max_eq_left hlow, min_eq_left hhigh]

omit [Field K] in
theorem clip_mono (h : x ≤ y) : clip x lo hi ≤ clip y lo hi := min_le_min_right hi (max_le_max_right lo h)

end

/-! ### The cells -/

variable [IsStrictOrderedRing K]

theorem fsqStep_pos : (0 : K) < fsqStep := by
  unfold fsqStep
  norm_num

theorem fsqMin_eq : (fsqMin : K) = (-10 : Int) * fsqStep := by
  unfold fsqMin fsqStep
  norm_num

theorem fsqMax_eq : (fsqMax : K) = (10 : Int) * fsqStep := by
  unfold fsqMax fsqStep
  norm_num

theorem fsqMin_le_fsqMax : (fsqMin : K) ≤ fsqMax := by
  unfold fsqMin fsqMax
  norm_num

variable [FloorRing K]

/-- The cell of a component. -/
def cell (x : K) : Int := roundHalfEven (clip x fsqMin fsqMax / fsqStep)

theorem cell_mono {x y : K} (h : x ≤ y) : cell x ≤ cell y :=
  roundHalfEven_mono (div_le_div_of_nonneg_right (clip_mono h) fsqStep_pos.le)

/-- The cell of a point of the grid is the point. -/
theorem cell_mul_fsqStep {x : K} (h : OnGrid x) : (cell x : K) * fsqStep = x := by
  obtain ⟨⟨m, rfl⟩, hlow, hhigh⟩ := h
  unfold cell
  rw [clip_of_mem hlow hhigh, mul_div_cancel_right₀ _ fsqStep_pos.ne', roundHalfEven_intCast]

theorem neg_ten_le_cell (x : K) : -10 ≤ cell x := by
  have hlow : ((-10 : Int) : K) ≤ clip x fsqMin fsqMax / fsqStep := by
    rw [le_div_iff₀ fsqStep_pos, ← fsqMin_eq]
    exact le_clip fsqMin_le_fsqMax
  have hround := roundHalfEven_mono hlow
  rwa [roundHalfEven_intCast] at hround

theorem cell_le_ten (x : K) : cell x ≤ 10 := by
  have hhigh : clip x fsqMin fsqMax / fsqStep ≤ ((10 : Int) : K) := by
    rw [div_le_iff₀ fsqStep_pos, ← fsqMax_eq]
    exact clip_le
  have hround := roundHalfEven_mono hhigh
  rwa [roundHalfEven_intCast] at hround

/-- The cells do not leave the range. -/
theorem cell_onGrid (x : K) : OnGrid ((cell x : K) * fsqStep) := by
  refine ⟨⟨cell x, rfl⟩, ?_, ?_⟩
  · rw [fsqMin_eq]
    exact mul_le_mul_of_nonneg_right (Int.cast_le.mpr (neg_ten_le_cell x)) fsqStep_pos.le
  · rw [fsqMax_eq]
    exact mul_le_mul_of_nonneg_right (Int.cast_le.mpr (cell_le_ten x)) fsqStep_pos.le

/-- What is clipped after the rounding is in the range. -/
theorem fsqQuantize_eq (values : List K) : fsqQuantize values = values.map fun x => (cell x : K) * fsqStep := by
  refine List.map_congr_left fun x _ => ?_
  exact clip_of_mem (cell_onGrid x).2.1 (cell_onGrid x).2.2

/-- A component moves by at most half a step from where the range puts it. -/
theorem abs_cell_sub_clip_le (x : K) : |(cell x : K) * fsqStep - clip x fsqMin fsqMax| ≤ fsqStep / 2 := by
  have hround := abs_roundHalfEven_sub_le (clip x fsqMin fsqMax / fsqStep)
  calc |(cell x : K) * fsqStep - clip x fsqMin fsqMax|
      = |(cell x - clip x fsqMin fsqMax / fsqStep) * fsqStep| := by rw [sub_mul, div_mul_cancel₀ _ fsqStep_pos.ne']
    _ = |cell x - clip x fsqMin fsqMax / fsqStep| * fsqStep := by rw [abs_mul, abs_of_pos (fsqStep_pos (K := K))]
    _ ≤ 1 / 2 * fsqStep := mul_le_mul_of_nonneg_right hround fsqStep_pos.le
    _ = fsqStep / 2 := by ring

/-- The tokens that the quantizer gives are on the grid, next to the clipped ones, and it keeps the order and the grid. -/
theorem token_grid (values : List K) : (∀ y ∈ fsqQuantize values, OnGrid y) ∧
    List.Forall₂ (fun x y => |y - clip x (-0.625) 0.625| ≤ 1 / 32) values (fsqQuantize values) ∧
    fsqQuantize (fsqQuantize values) = fsqQuantize values ∧
    (∀ larger, List.Forall₂ (· ≤ ·) values larger → List.Forall₂ (· ≤ ·) (fsqQuantize values) (fsqQuantize larger)) ∧
    List.Forall₂ (fun x y => OnGrid x → y = x) values (fsqQuantize values) := by
  simp only [fsqQuantize_eq]
  refine ⟨?_, ?_, ?_, ?_, ?_⟩
  · intro y hy
    obtain ⟨x, -, rfl⟩ := List.mem_map.mp hy
    exact cell_onGrid x
  · refine List.forall₂_map_right_iff.mpr (List.forall₂_same.mpr fun x _ => ?_)
    have hnear := abs_cell_sub_clip_le x
    have hhalf : (fsqStep : K) / 2 = 1 / 32 := by
      unfold fsqStep
      norm_num
    have hmin : (fsqMin : K) = -0.625 := by
      unfold fsqMin
      norm_num
    have hmax : (fsqMax : K) = 0.625 := by
      unfold fsqMax
      norm_num
    rwa [hhalf, hmin, hmax] at hnear
  · rw [List.map_map]
    exact List.map_congr_left fun x _ => cell_mul_fsqStep (cell_onGrid x)
  · intro larger hle
    refine List.forall₂_map_left_iff.mpr (List.forall₂_map_right_iff.mpr (hle.imp fun x y h => ?_))
    exact mul_le_mul_of_nonneg_right (Int.cast_le.mpr (cell_mono h)) fsqStep_pos.le
  · exact List.forall₂_map_right_iff.mpr (List.forall₂_same.mpr fun x _ => cell_mul_fsqStep)

theorem token_grid_half : (∀ y ∈ fsqQuantize [(-1 : ℚ), 1 / 32, 3 / 32, 5 / 8], OnGrid y) ∧
    List.Forall₂ (fun x y => |y - clip x (-0.625) 0.625| ≤ 1 / 32) [(-1 : ℚ), 1 / 32, 3 / 32, 5 / 8]
      (fsqQuantize [(-1 : ℚ), 1 / 32, 3 / 32, 5 / 8]) :=
  have h := token_grid [(-1 : ℚ), 1 / 32, 3 / 32, 5 / 8]
  ⟨h.1, h.2.1⟩

example : fsqQuantize [(-1 : ℚ), 1 / 32, 3 / 32, 5 / 8] = [-5 / 8, 0, 1 / 8, 5 / 8] := by
  decide +kernel

end HumanoidLab
