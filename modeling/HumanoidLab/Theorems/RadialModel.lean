import HumanoidLab.Simulators.Lens
import Mathlib.Topology.Order.IntermediateValue

/-! The radial model of the lens over the exact reals. It stretches a radius by a factor that grows with it, so that it has an inverse,
    which the bisection finds up to its last bracket. -/

namespace HumanoidLab
open Arithmetic Bisection

theorem ofRat_real (q : ℚ) : (ofRat q : ℝ) = q := rfl

variable {k1 k2 a b r ρ : ℝ}

/-! ### The radial model -/

/-- How far a radius is stretched, by its square. -/
noncomputable def stretch (k1 k2 r2 : ℝ) : ℝ := ofRat 1 + k1 * r2 + k2 * r2 * r2

theorem stretch_real (k1 k2 r2 : ℝ) : stretch k1 k2 r2 = 1 + k1 * r2 + k2 * r2 * r2 := by
  unfold stretch
  rw [ofRat_real, Rat.cast_one]

theorem undistortedRadius_eq (k1 k2 ρ : ℝ) : undistortedRadius ρ k1 k2 = ρ * stretch k1 k2 (ρ * ρ) := rfl

/-- The derivative of the radial model. -/
noncomputable def slope (k1 k2 ρ : ℝ) : ℝ := ofRat 1 + ofRat 3 * k1 * (ρ * ρ) + ofRat 5 * k2 * (ρ * ρ) * (ρ * ρ)

theorem slope_real (k1 k2 ρ : ℝ) : slope k1 k2 ρ = 1 + 3 * k1 * (ρ * ρ) + 5 * k2 * (ρ * ρ) * (ρ * ρ) := by
  unfold slope
  rw [ofRat_real, ofRat_real, ofRat_real]
  norm_num

section
variable (hk1 : 0 ≤ k1) (hk2 : 0 ≤ k2)
include hk1 hk2

theorem one_le_stretch (hr : 0 ≤ r) : 1 ≤ stretch k1 k2 r := by
  rw [stretch_real]
  have h1 := mul_nonneg hk1 hr
  have h2 := mul_nonneg (mul_nonneg hk2 hr) hr
  linarith

theorem stretch_mono (ha : 0 ≤ a) (hab : a ≤ b) : stretch k1 k2 a ≤ stretch k1 k2 b := by
  rw [stretch_real, stretch_real]
  have hb := ha.trans hab
  have h1 := mul_le_mul_of_nonneg_left hab hk1
  have h2 := mul_le_mul (mul_le_mul_of_nonneg_left hab hk2) hab ha (mul_nonneg hk2 hb)
  linarith

theorem le_undistortedRadius (hρ : 0 ≤ ρ) : ρ ≤ undistortedRadius ρ k1 k2 := by
  rw [undistortedRadius_eq]
  exact le_mul_of_one_le_right hρ (one_le_stretch hk1 hk2 (mul_self_nonneg ρ))

/-- The model keeps the order, to the left of a radius. -/
theorem undistortedRadius_lt (hb : 0 ≤ b) (hab : a < b) : undistortedRadius a k1 k2 < undistortedRadius b k1 k2 := by
  rw [undistortedRadius_eq, undistortedRadius_eq]
  have hstretch := one_le_stretch hk1 hk2 (mul_self_nonneg a)
  rcases lt_or_ge a 0 with ha | ha
  · have hneg : a * stretch k1 k2 (a * a) < 0 := mul_neg_of_neg_of_pos ha (by linarith)
    have hpos : 0 ≤ b * stretch k1 k2 (b * b) := mul_nonneg hb (by linarith [one_le_stretch hk1 hk2 (mul_self_nonneg b)])
    linarith
  · exact mul_lt_mul hab (stretch_mono hk1 hk2 (mul_self_nonneg a) (mul_self_le_mul_self ha hab.le)) (by linarith) hb

/-- Between two radii the model rises by at most the slope at the larger one. -/
theorem undistortedRadius_sub_le (ha : 0 ≤ a) (hb : 0 ≤ b) :
    |undistortedRadius a k1 k2 - undistortedRadius b k1 k2| ≤ slope k1 k2 (max a b) * |a - b| := by
  have hchord : undistortedRadius a k1 k2 - undistortedRadius b k1 k2 = (1 + k1 * (a * a + a * b + b * b) +
      k2 * (a * a * (a * a) + a * a * (a * b) + a * a * (b * b) + a * b * (b * b) + b * b * (b * b))) * (a - b) := by
    rw [undistortedRadius_eq, undistortedRadius_eq, stretch_real, stretch_real]
    ring
  have haa := mul_self_nonneg a
  have hbb := mul_self_nonneg b
  have hab := mul_nonneg ha hb
  rw [hchord, abs_mul]
  refine mul_le_mul_of_nonneg_right ?_ (abs_nonneg _)
  rw [abs_of_nonneg (by positivity), slope_real]
  -- Each product of the two radii is at most that of the larger one.
  have h1 : a * a ≤ max a b * max a b := mul_self_le_mul_self ha (le_max_left a b)
  have h2 : a * b ≤ max a b * max a b := mul_le_mul (le_max_left a b) (le_max_right a b) hb (ha.trans (le_max_left a b))
  have h3 : b * b ≤ max a b * max a b := mul_self_le_mul_self hb (le_max_right a b)
  have hmax := mul_self_nonneg (max a b)
  have hquadratic : k1 * (a * a + a * b + b * b) ≤ 3 * k1 * (max a b * max a b) := by
    have hle := mul_le_mul_of_nonneg_left (add_le_add (add_le_add h1 h2) h3) hk1
    linarith
  have hquartic : k2 * (a * a * (a * a) + a * a * (a * b) + a * a * (b * b) + a * b * (b * b) + b * b * (b * b)) ≤
      5 * k2 * (max a b * max a b) * (max a b * max a b) := by
    have h11 := mul_le_mul h1 h1 haa hmax
    have h12 := mul_le_mul h1 h2 hab hmax
    have h13 := mul_le_mul h1 h3 hbb hmax
    have h23 := mul_le_mul h2 h3 hbb hmax
    have h33 := mul_le_mul h3 h3 hbb hmax
    have hle := mul_le_mul_of_nonneg_left (add_le_add (add_le_add (add_le_add (add_le_add h11 h12) h13) h23) h33) hk2
    linarith
  linarith

/-- Each radius of the rendered image is that of one radius of the output. -/
theorem exists_radius (hr : 0 ≤ r) : ∃ ρ, 0 ≤ ρ ∧ ρ ≤ r ∧ undistortedRadius ρ k1 k2 = r := by
  have hcontinuous : Continuous fun ρ => undistortedRadius ρ k1 k2 := by
    simp only [undistortedRadius_eq, stretch_real]
    fun_prop
  have hzero : undistortedRadius 0 k1 k2 = 0 := by rw [undistortedRadius_eq, zero_mul]
  have hmem : r ∈ Set.Icc (undistortedRadius 0 k1 k2) (undistortedRadius r k1 k2) :=
    ⟨hzero.trans_le hr, le_undistortedRadius hk1 hk2 hr⟩
  obtain ⟨ρ, ⟨hlow, hhigh⟩, hρ⟩ := intermediate_value_Icc hr hcontinuous.continuousOn hmem
  exact ⟨ρ, hlow, hhigh, hρ⟩

theorem radius_unique (ha : 0 ≤ a) (hb : 0 ≤ b) (h : undistortedRadius a k1 k2 = undistortedRadius b k1 k2) : a = b := by
  rcases lt_trichotomy a b with hab | hab | hab
  · exact absurd h (undistortedRadius_lt hk1 hk2 hb hab).ne
  · exact hab
  · exact absurd h (undistortedRadius_lt hk1 hk2 ha hab).ne'

end

/-! ### The bisection -/

/-- The bisection error at a radius: the first bracket, halved a hundred times. -/
noncomputable def bisectionError (r : ℝ) : ℝ := larger r (ofRat 1e-9) * ofRat (1 / 2 ^ 100)

theorem larger_real (a b : ℝ) : larger a b = max a b := by
  unfold larger
  rcases lt_or_ge a b with h | h
  · have hlt : lt a b = true := decide_eq_true h
    rw [if_pos hlt, max_eq_right h.le]
  · have hlt : ¬lt a b = true := fun hab => absurd (of_decide_eq_true hab) (not_lt_of_ge h)
    rw [if_neg hlt, max_eq_left h]

theorem bisectionError_real (r : ℝ) : bisectionError r = larger r (ofRat 1e-9) / 2 ^ 100 := by
  have hcast : (ofRat (1 / 2 ^ 100) : ℝ) = 1 / 2 ^ 100 := by
    rw [ofRat_real]
    push_cast
    rfl
  unfold bisectionError
  rw [hcast, mul_one_div]

theorem half_isMiddle : IsMiddle (half : ℝ → ℝ → ℝ) := by
  intro x y
  unfold half
  rw [ofRat_real]
  push_cast
  ring

theorem ofRat_zero_real : (ofRat 0 : ℝ) = 0 := Rat.cast_zero

theorem bracket_real (r : ℝ) : 0 < larger r (ofRat 1e-9) := by
  rw [larger_real, ofRat_real]
  exact lt_max_of_lt_right (by norm_num)

theorem bisectionError_pos (r : ℝ) : 0 < bisectionError r := by
  have hbracket := bracket_real r
  rw [bisectionError_real]
  positivity

/-- The radius that is found is positive, because the bracket is. -/
theorem bisectionError_le (r : ℝ) : bisectionError r ≤ 2 * distortedRadius r k1 k2 := by
  have hordered : (ofRat 0 : ℝ) ≤ larger r (ofRat 1e-9) := ofRat_zero_real ▸ (bracket_real r).le
  have hle : larger r (ofRat 1e-9) - ofRat 0 ≤ 2 ^ (100 + 1) * (distortedRadius r k1 k2 - ofRat 0) :=
    @le_found ℝ _ _ half (fun mid => lt (undistortedRadius mid k1 k2) r) (ofRat 0, larger r (ofRat 1e-9)) _ half_isMiddle 100 hordered
  rw [ofRat_zero_real, sub_zero, sub_zero] at hle
  rw [bisectionError_real, div_le_iff₀ (by positivity)]
  linarith

theorem distortedRadius_pos (r : ℝ) : 0 < distortedRadius r k1 k2 := by
  have hpos := bisectionError_pos r
  have hle : bisectionError r ≤ 2 * distortedRadius r k1 k2 := bisectionError_le r
  linarith

section
variable (hk1 : 0 ≤ k1) (hk2 : 0 ≤ k2)
include hk1 hk2

/-- The test of the loop tells the sides of the radius that is looked for. -/
theorem undistortedRadius_tells (hρ : 0 ≤ ρ) : Tells (fun mid => lt (undistortedRadius mid k1 k2) (undistortedRadius ρ k1 k2)) ρ := by
  refine ⟨fun x hx => ?_, fun x hx => ?_⟩
  · by_contra hlt
    have hlt := not_le.mp hlt
    exact absurd (of_decide_eq_true hx) (undistortedRadius_lt hk1 hk2 (hρ.trans hlt.le) hlt).le.not_gt
  · by_contra hlt
    exact absurd (undistortedRadius_lt hk1 hk2 hρ (not_le.mp hlt)) (of_decide_eq_false hx)

/-- The bisection finds the radius up to its error. -/
theorem distortedRadius_near (hρ : 0 ≤ ρ) (h : undistortedRadius ρ k1 k2 = r) : |distortedRadius r k1 k2 - ρ| ≤ bisectionError r := by
  have hle : ρ ≤ r := h ▸ le_undistortedRadius hk1 hk2 hρ
  have htells : Tells (fun mid => lt (undistortedRadius mid k1 k2) r) ρ := h ▸ undistortedRadius_tells hk1 hk2 hρ
  have hhigh : ρ ≤ larger r (ofRat 1e-9) := hle.trans (larger_real r _ ▸ le_max_left r _)
  have hnear : 2 ^ (100 + 1) * |distortedRadius r k1 k2 - ρ| ≤ larger r (ofRat 1e-9) - ofRat 0 :=
    abs_found_sub_le half_isMiddle htells 100 (ofRat_zero_real ▸ hρ) hhigh
  rw [ofRat_zero_real, sub_zero] at hnear
  have hnonneg := abs_nonneg (distortedRadius r k1 k2 - ρ)
  rw [bisectionError_real, le_div_iff₀ (by positivity)]
  linarith

end

end HumanoidLab
