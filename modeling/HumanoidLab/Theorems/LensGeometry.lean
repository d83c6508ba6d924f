import HumanoidLab.Theorems.RadialModel

/-! The lens over the exact reals. What it does to a point is what the radial model does to its radius, along the same direction: the output
    corner is sampled near the rendered corner, the pixels within it, and the samples are projected back. -/

namespace HumanoidLab
open Arithmetic

/-! ### The lens -/

theorem ofRat_natCast_real (n : Nat) : (ofRat n : ℝ) = n := Rat.cast_natCast n

theorem ofRat_half_real : (ofRat 0.5 : ℝ) = 1 / 2 := by
  rw [ofRat_real]
  norm_num

theorem ofRat_one_real : (ofRat 1 : ℝ) = 1 := Rat.cast_one

theorem ofRat_two_real : (ofRat 2 : ℝ) = 2 := Rat.cast_ofNat 2

/-! ### Directions -/

theorem hypot_real (x y : ℝ) : hypot x y = Real.sqrt (x * x + y * y) := rfl

theorem hypot_nonneg (x y : ℝ) : 0 ≤ hypot x y := Real.sqrt_nonneg _

theorem hypot_mul_self (x y : ℝ) : hypot x y * hypot x y = x * x + y * y :=
  Real.mul_self_sqrt (add_nonneg (mul_self_nonneg x) (mul_self_nonneg y))

theorem abs_le_hypot_left (x y : ℝ) : |x| ≤ hypot x y := by
  refine abs_le_of_sq_le_sq ?_ (hypot_nonneg x y)
  nlinarith [hypot_mul_self x y, mul_self_nonneg y]

theorem abs_le_hypot_right (x y : ℝ) : |y| ≤ hypot x y := by
  refine abs_le_of_sq_le_sq ?_ (hypot_nonneg x y)
  nlinarith [hypot_mul_self x y, mul_self_nonneg x]

theorem hypot_scale {c : ℝ} (hc : 0 ≤ c) (x y : ℝ) : hypot (x * c) (y * c) = hypot x y * c := by
  have hsquare : x * c * (x * c) + y * c * (y * c) = (x * x + y * y) * (c * c) := by ring
  rw [hypot_real, hypot_real, hsquare, Real.sqrt_mul' _ (mul_self_nonneg c), Real.sqrt_mul_self hc]

theorem hypot_pos {x y : ℝ} (hx : 0 < x) : 0 < hypot x y := hx.trans_le ((le_abs_self x).trans (abs_le_hypot_left x y))

namespace LensModel

variable {lens : LensModel ℝ}

/-- The radius of the rendered corner. -/
noncomputable def cornerU (lens : LensModel ℝ) : ℝ :=
  hypot (ofRat lens.renderWidth / ofRat 2) (ofRat lens.renderHeight / ofRat 2) / lens.renderFocalPx

/-- The radius of the output corner. -/
noncomputable def cornerD (lens : LensModel ℝ) : ℝ := distortedRadius lens.cornerU lens.k1 lens.k2

theorem cornerD_pos (lens : LensModel ℝ) : 0 < lens.cornerD := distortedRadius_pos lens.cornerU

/-- The pinhole coordinates of a sample position. -/
noncomputable def pinhole (lens : LensModel ℝ) (sample : ℝ × ℝ) : ℝ × ℝ :=
  ((sample.1 - (ofRat lens.renderWidth / ofRat 2 - ofRat 0.5)) / lens.renderFocalPx,
    (sample.2 - (ofRat lens.renderHeight / ofRat 2 - ofRat 0.5)) / lens.renderFocalPx)

/-- A sample position in the rendered image, up to an error. -/
def InRendered (lens : LensModel ℝ) (error : ℝ) (sample : ℝ × ℝ) : Prop :=
  |sample.1 - (lens.renderWidth / ofRat 2 - ofRat 0.5)| ≤ lens.renderWidth / ofRat 2 + error ∧
    |sample.2 - (lens.renderHeight / ofRat 2 - ofRat 0.5)| ≤ lens.renderHeight / ofRat 2 + error

theorem u_real (column : Nat) : lens.u column = (column + 1 / 2 - lens.width / 2) / lens.outputFocalPx := by
  unfold u
  rw [ofRat_natCast_real, ofRat_natCast_real, ofRat_half_real, ofRat_two_real]

theorem v_real (row : Nat) : lens.v row = (row + 1 / 2 - lens.height / 2) / lens.outputFocalPx := by
  unfold v
  rw [ofRat_natCast_real, ofRat_natCast_real, ofRat_half_real, ofRat_two_real]

theorem sampleAt_real (a b : ℝ) : lens.sampleAt a b =
    (a * stretch lens.k1 lens.k2 (a * a + b * b) * lens.renderFocalPx + lens.renderWidth / 2 - 1 / 2,
      b * stretch lens.k1 lens.k2 (a * a + b * b) * lens.renderFocalPx + lens.renderHeight / 2 - 1 / 2) := by
  unfold sampleAt stretch
  rw [ofRat_natCast_real, ofRat_natCast_real, ofRat_half_real, ofRat_two_real]

theorem sample_sub_centre (t centre : ℝ) : t + centre - 1 / 2 - (centre - 1 / 2) = t := by ring

/-- The pinhole coordinates of a sample. -/
theorem pinhole_sampleAt (hfocal : lens.renderFocalPx ≠ 0) (a b : ℝ) : lens.pinhole (lens.sampleAt a b) =
    (a * stretch lens.k1 lens.k2 (a * a + b * b), b * stretch lens.k1 lens.k2 (a * a + b * b)) := by
  rw [sampleAt_real]
  unfold pinhole
  simp only [ofRat_natCast_real, ofRat_two_real, ofRat_half_real, sample_sub_centre, mul_div_cancel_right₀ _ hfocal]

theorem project_zero {x y : ℝ} (h : hypot x y = 0) :
    lens.project x y = (x * lens.outputFocalPx + lens.width / 2, y * lens.outputFocalPx + lens.height / 2) := by
  have hlt : (!lt (ofRat 0) (hypot x y) && !lt (hypot x y) (ofRat 0)) = true := by
    rw [h, ofRat_zero_real]
    simp [lt]
  unfold project
  simp only [hlt, if_true, ofRat_natCast_real, ofRat_two_real, ofRat_one_real, mul_one]

theorem project_pos {x y : ℝ} (h : 0 < hypot x y) :
    lens.project x y = (x * (distortedRadius (hypot x y) lens.k1 lens.k2 / hypot x y) * lens.outputFocalPx + lens.width / 2,
      y * (distortedRadius (hypot x y) lens.k1 lens.k2 / hypot x y) * lens.outputFocalPx + lens.height / 2) := by
  have hlt : (!lt (ofRat 0) (hypot x y) && !lt (hypot x y) (ofRat 0)) = false := by
    rw [ofRat_zero_real]
    simp [lt, h]
  unfold project
  simp only [hlt, Bool.false_eq_true, if_false, ofRat_natCast_real, ofRat_two_real]

/-- What `build` settles of a lens: the output corner is at the radius that the bisection finds for the rendered corner. -/
structure Fitted (lens : LensModel ℝ) : Prop where
  width : 0 < lens.width
  height : 0 < lens.height
  aspect : (lens.renderWidth : ℝ) * lens.height = lens.renderHeight * lens.width
  renderFocal : 0 < lens.renderFocalPx
  k1 : 0 ≤ lens.k1
  k2 : 0 ≤ lens.k2
  corner : lens.outputFocalPx * lens.cornerD =
    hypot (ofRat lens.width / ofRat 2) (ofRat lens.height / ofRat 2)

/-- The rendered pixels for an output pixel. -/
noncomputable def pitch (lens : LensModel ℝ) : ℝ := lens.renderWidth / lens.width

/-- The error of the output corner in the rendered image. -/
noncomputable def cornerMiss (lens : LensModel ℝ) : ℝ :=
  lens.renderFocalPx * |undistortedRadius (lens.cornerD) lens.k1 lens.k2 - lens.cornerU|

namespace Fitted

theorem width_real (h : lens.Fitted) : (0 : ℝ) < lens.width := Nat.cast_pos.mpr h.width

theorem height_real (h : lens.Fitted) : (0 : ℝ) < lens.height := Nat.cast_pos.mpr h.height

theorem diagonal (h : lens.Fitted) : 0 < hypot ((lens.width : ℝ) / 2) (lens.height / 2) := hypot_pos (half_pos h.width_real)

theorem corner_real (h : lens.Fitted) : lens.outputFocalPx * lens.cornerD =
    hypot ((lens.width : ℝ) / 2) (lens.height / 2) := by
  rw [h.corner, ofRat_natCast_real, ofRat_natCast_real, ofRat_two_real]

theorem outputFocal (h : lens.Fitted) : 0 < lens.outputFocalPx := by
  have hdiagonal := h.diagonal
  rw [← h.corner_real] at hdiagonal
  exact pos_of_mul_pos_left hdiagonal lens.cornerD_pos.le

theorem renderWidth (h : lens.Fitted) : (lens.renderWidth : ℝ) = lens.width * lens.pitch := by
  unfold pitch
  rw [mul_div_cancel₀ _ h.width_real.ne']

theorem renderHeight (h : lens.Fitted) : (lens.renderHeight : ℝ) = lens.height * lens.pitch := by
  unfold pitch
  rw [mul_div_assoc', eq_div_iff h.width_real.ne', ← h.aspect, mul_comm]

/-- The rendered corner is the output corner, scaled. -/
theorem cornerU_mul (h : lens.Fitted) :
    lens.cornerU * lens.renderFocalPx = hypot ((lens.width : ℝ) / 2) (lens.height / 2) * lens.pitch := by
  have hpitch : 0 ≤ lens.pitch := div_nonneg (Nat.cast_nonneg _) (Nat.cast_nonneg _)
  unfold cornerU
  rw [div_mul_cancel₀ _ h.renderFocal.ne', ofRat_natCast_real, ofRat_natCast_real, ofRat_two_real, h.renderWidth, h.renderHeight,
    ← hypot_scale hpitch]
  congr 1 <;> ring

end Fitted

/-- A coordinate of the output corner is off by a share of what its radius is off. -/
theorem stretched_sub_le {D d S fr fo s c m : ℝ} (hd : 0 < d) (hfr : 0 < fr) (hD : 0 < D) (hfo : fo * d = D) (hs : c * fr = D * s)
    (hm : 0 ≤ m) (hmD : m ≤ D) : |m / fo * S * fr - m * s| ≤ fr * |d * S - c| := by
  have hfo' : fo = D / d := (eq_div_iff hd.ne').mpr hfo
  have hs' : s = c * fr / D := by rw [hs, mul_div_cancel_left₀ _ hD.ne']
  have hshare : m / fo * S * fr - m * s = m / D * (fr * (d * S - c)) := by
    rw [hfo', hs']
    field_simp
  have hone : m / D ≤ 1 := (div_le_one hD).mpr hmD
  rw [hshare, abs_mul, abs_mul, abs_of_pos hfr, abs_of_nonneg (div_nonneg hm hD.le)]
  exact mul_le_of_le_one_left (mul_nonneg hfr.le (abs_nonneg _)) hone

/-- A coordinate of a point that is put at a radius near its own. -/
theorem directed_sub_le {x S d q fo o error : ℝ} (hS : 0 < S) (hq : 0 < q) (hfo : 0 < fo) (hx : |x| ≤ q) (hd : |d - q| ≤ error) :
    |x * S * (d / (q * S)) * fo + o - (x * fo + o)| ≤ fo * error := by
  have hshare : x * S * (d / (q * S)) * fo + o - (x * fo + o) = x / q * (fo * (d - q)) := by
    field_simp
    ring
  have hone : |x / q| ≤ 1 := by
    rw [abs_div, abs_of_pos hq]
    exact (div_le_one hq).mpr hx
  rw [hshare, abs_mul, abs_mul, abs_of_pos hfo]
  calc |x / q| * (fo * |d - q|) ≤ fo * |d - q| := mul_le_of_le_one_left (mul_nonneg hfo.le (abs_nonneg _)) hone
    _ ≤ fo * error := mul_le_mul_of_nonneg_left hd hfo.le

/-- The rest of a coordinate that keeps half a pixel off the edge, in a stretch that overshoots the edge by less than that. -/
theorem inside_of_margin {m T s M E q : ℝ} (hT : 0 ≤ T) (hm : 0 ≤ m) (hover : m * T ≤ m * s + E) (hq : q ≤ m - 1 / 2) (hE : E ≤ s / 2)
    (hM : M = m * s) : q * T ≤ M := by
  have hle : q * T ≤ (m - 1 / 2) * T := mul_le_mul_of_nonneg_right hq hT
  rcases le_or_gt T s with hTs | hTs
  · have hms := mul_le_mul_of_nonneg_left hTs hm
    linarith
  · linarith

/-- A corner of the output image: its normalised coordinates, and the corner of the rendered image that it is to be. -/
noncomputable def cornerAt (lens : LensModel ℝ) (sx sy : ℝ) : ℝ × ℝ :=
  (sx * (ofRat lens.width / ofRat 2) / lens.outputFocalPx, sy * (ofRat lens.height / ofRat 2) / lens.outputFocalPx)

noncomputable def renderedCorner (lens : LensModel ℝ) (sx sy : ℝ) : ℝ × ℝ :=
  (sx * (ofRat lens.renderWidth / ofRat 2) + ofRat lens.renderWidth / ofRat 2 - ofRat 0.5,
    sy * (ofRat lens.renderHeight / ofRat 2) + ofRat lens.renderHeight / ofRat 2 - ofRat 0.5)

theorem cornerAt_real (sx sy : ℝ) : lens.cornerAt sx sy =
    (sx * (lens.width / 2 / lens.outputFocalPx), sy * (lens.height / 2 / lens.outputFocalPx)) := by
  unfold cornerAt
  rw [ofRat_natCast_real, ofRat_natCast_real, ofRat_two_real, mul_div_assoc, mul_div_assoc]

theorem renderedCorner_real (sx sy : ℝ) : lens.renderedCorner sx sy =
    (sx * (lens.renderWidth / 2) + lens.renderWidth / 2 - 1 / 2, sy * (lens.renderHeight / 2) + lens.renderHeight / 2 - 1 / 2) := by
  unfold renderedCorner
  rw [ofRat_natCast_real, ofRat_natCast_real, ofRat_two_real, ofRat_half_real]

namespace Fitted

variable (h : lens.Fitted)
include h

/-- Half a side of the output image, stretched as its corner. -/
theorem side_sub_le {m : ℝ} (hm : 0 ≤ m) (hside : m ≤ hypot ((lens.width : ℝ) / 2) (lens.height / 2)) :
    |m / lens.outputFocalPx * stretch lens.k1 lens.k2 (lens.cornerD * lens.cornerD) *
      lens.renderFocalPx - m * lens.pitch| ≤ lens.cornerMiss :=
  stretched_sub_le lens.cornerD_pos h.renderFocal h.diagonal h.corner_real h.cornerU_mul hm hside

omit h in
theorem width_le : (lens.width : ℝ) / 2 ≤ hypot ((lens.width : ℝ) / 2) (lens.height / 2) :=
  (le_abs_self _).trans (abs_le_hypot_left _ _)

omit h in
theorem height_le : (lens.height : ℝ) / 2 ≤ hypot ((lens.width : ℝ) / 2) (lens.height / 2) :=
  (le_abs_self _).trans (abs_le_hypot_right _ _)

/-- The output corner is at the radius that was found. -/
theorem radius_corner : (lens.width : ℝ) / 2 / lens.outputFocalPx * (lens.width / 2 / lens.outputFocalPx) +
    lens.height / 2 / lens.outputFocalPx * (lens.height / 2 / lens.outputFocalPx) =
    lens.cornerD * lens.cornerD := by
  have hfocal := h.outputFocal.ne'
  have hsquare := hypot_mul_self ((lens.width : ℝ) / 2) (lens.height / 2)
  rw [← h.corner_real] at hsquare
  field_simp at hsquare ⊢
  linarith

/-- The output corner is sampled near the rendered corner. -/
theorem corner_near {sx sy : ℝ} (hsx : |sx| = 1) (hsy : |sy| = 1) :
    |(lens.sampleAt (lens.cornerAt sx sy).1 (lens.cornerAt sx sy).2).1 - (lens.renderedCorner sx sy).1| ≤ lens.cornerMiss ∧
      |(lens.sampleAt (lens.cornerAt sx sy).1 (lens.cornerAt sx sy).2).2 - (lens.renderedCorner sx sy).2| ≤ lens.cornerMiss := by
  have hxx : sx * sx = 1 := by rw [← abs_mul_abs_self sx, hsx, one_mul]
  have hyy : sy * sy = 1 := by rw [← abs_mul_abs_self sy, hsy, one_mul]
  have hradius : sx * (lens.width / 2 / lens.outputFocalPx) * (sx * (lens.width / 2 / lens.outputFocalPx)) +
      sy * (lens.height / 2 / lens.outputFocalPx) * (sy * (lens.height / 2 / lens.outputFocalPx)) =
      lens.cornerD * lens.cornerD := by
    rw [mul_mul_mul_comm, mul_mul_mul_comm sy, hxx, hyy, one_mul, one_mul]
    exact h.radius_corner
  rw [cornerAt_real, renderedCorner_real, sampleAt_real]
  dsimp only
  rw [hradius]
  generalize hS : stretch lens.k1 lens.k2
    (lens.cornerD * lens.cornerD) = S
  constructor
  · calc _ = |sx * (lens.width / 2 / lens.outputFocalPx * S * lens.renderFocalPx - lens.width / 2 * lens.pitch)| := by
          rw [h.renderWidth]
          congr 1
          ring
      _ = |lens.width / 2 / lens.outputFocalPx * S * lens.renderFocalPx - lens.width / 2 * lens.pitch| := by rw [abs_mul, hsx, one_mul]
      _ ≤ lens.cornerMiss := hS ▸ h.side_sub_le (half_pos h.width_real).le width_le
  · calc _ = |sy * (lens.height / 2 / lens.outputFocalPx * S * lens.renderFocalPx - lens.height / 2 * lens.pitch)| := by
          rw [h.renderHeight]
          congr 1
          ring
      _ = |lens.height / 2 / lens.outputFocalPx * S * lens.renderFocalPx - lens.height / 2 * lens.pitch| := by rw [abs_mul, hsy, one_mul]
      _ ≤ lens.cornerMiss := hS ▸ h.side_sub_le (half_pos h.height_real).le height_le

/-- A coordinate half a pixel off the edge, at a radius that is not larger than that of the corner. -/
theorem coordinate_le {m q S : ℝ} (hm : 0 ≤ m) (hside : m ≤ hypot ((lens.width : ℝ) / 2) (lens.height / 2)) (hq : |q| ≤ m - 1 / 2)
    (hS : 0 ≤ S) (hle : S ≤ stretch lens.k1 lens.k2 (lens.cornerD * lens.cornerD)) :
    |q / lens.outputFocalPx * S * lens.renderFocalPx| ≤ m * lens.pitch + lens.cornerMiss ∧
      (lens.cornerMiss ≤ lens.pitch / 2 → |q / lens.outputFocalPx * S * lens.renderFocalPx| ≤ m * lens.pitch) := by
  have hedge := (le_abs_self _).trans (h.side_sub_le hm hside)
  generalize stretch lens.k1 lens.k2
    (lens.cornerD * lens.cornerD) = S₀ at hedge hle
  have hfactor : 0 ≤ lens.renderFocalPx / lens.outputFocalPx := div_nonneg h.renderFocal.le h.outputFocal.le
  have hT : 0 ≤ S₀ * (lens.renderFocalPx / lens.outputFocalPx) := mul_nonneg (hS.trans hle) hfactor
  have hedge : m * (S₀ * (lens.renderFocalPx / lens.outputFocalPx)) ≤ m * lens.pitch + lens.cornerMiss := by
    have hmT : m / lens.outputFocalPx * S₀ * lens.renderFocalPx = m * (S₀ * (lens.renderFocalPx / lens.outputFocalPx)) := by ring
    rw [hmT] at hedge
    linarith
  have hcoordinate : |q / lens.outputFocalPx * S * lens.renderFocalPx| ≤ |q| * (S₀ * (lens.renderFocalPx / lens.outputFocalPx)) := by
    have hqT : q / lens.outputFocalPx * S * lens.renderFocalPx = q * (S * (lens.renderFocalPx / lens.outputFocalPx)) := by ring
    rw [hqT, abs_mul, abs_of_nonneg (mul_nonneg hS hfactor)]
    exact mul_le_mul_of_nonneg_left (mul_le_mul_of_nonneg_right hle hfactor) (abs_nonneg q)
  refine ⟨?_, fun hmargin => ?_⟩
  · have hqm : |q| ≤ m := by linarith
    exact hcoordinate.trans ((mul_le_mul_of_nonneg_right hqm hT).trans hedge)
  · exact hcoordinate.trans (inside_of_margin hT hm hedge hq hmargin rfl)

omit h in
theorem offset_le {n i : Nat} (hi : i < n) : |(i : ℝ) + 1 / 2 - n / 2| ≤ n / 2 - 1 / 2 := by
  have hnonneg : (0 : ℝ) ≤ i := Nat.cast_nonneg i
  have hsucc : (i : ℝ) + 1 ≤ n := by exact_mod_cast hi
  rw [abs_le]
  constructor <;> linarith

/-- A pixel is at a smaller radius than the corner. -/
theorem stretch_le {row column : Nat} (hrow : row < lens.height) (hcolumn : column < lens.width) :
    stretch lens.k1 lens.k2 (lens.u column * lens.u column + lens.v row * lens.v row) ≤
      stretch lens.k1 lens.k2 (lens.cornerD * lens.cornerD) := by
  have hu : |lens.u column| ≤ lens.width / 2 / lens.outputFocalPx := by
    rw [u_real, abs_div, abs_of_pos h.outputFocal]
    exact div_le_div_of_nonneg_right ((offset_le hcolumn).trans (by linarith)) h.outputFocal.le
  have hv : |lens.v row| ≤ lens.height / 2 / lens.outputFocalPx := by
    rw [v_real, abs_div, abs_of_pos h.outputFocal]
    exact div_le_div_of_nonneg_right ((offset_le hrow).trans (by linarith)) h.outputFocal.le
  refine stretch_mono h.k1 h.k2 (add_nonneg (mul_self_nonneg _) (mul_self_nonneg _)) ?_
  rw [← h.radius_corner, ← abs_mul_abs_self (lens.u column), ← abs_mul_abs_self (lens.v row)]
  exact add_le_add (mul_self_le_mul_self (abs_nonneg _) hu) (mul_self_le_mul_self (abs_nonneg _) hv)

/-- The sample of a pixel is in the rendered image, up to what the corner is off. -/
theorem pixel_inRendered {row column : Nat} (hrow : row < lens.height) (hcolumn : column < lens.width) :
    lens.InRendered lens.cornerMiss (lens.sampleAt (lens.u column) (lens.v row)) ∧
      (lens.cornerMiss ≤ lens.pitch / 2 → lens.InRendered 0 (lens.sampleAt (lens.u column) (lens.v row))) := by
  have hstretch := h.stretch_le hrow hcolumn
  have hone := one_le_stretch h.k1 h.k2 (add_nonneg (mul_self_nonneg (lens.u column)) (mul_self_nonneg (lens.v row)))
  rw [sampleAt_real]
  generalize stretch lens.k1 lens.k2 (lens.u column * lens.u column + lens.v row * lens.v row) = S at hstretch hone
  have hS : 0 ≤ S := zero_le_one.trans hone
  obtain ⟨hx, hx'⟩ := h.coordinate_le (half_pos h.width_real).le width_le (offset_le hcolumn) hS hstretch
  obtain ⟨hy, hy'⟩ := h.coordinate_le (half_pos h.height_real).le height_le (offset_le hrow) hS hstretch
  rw [← u_real] at hx hx'
  rw [← v_real] at hy hy'
  have hwidth : (lens.width : ℝ) / 2 * lens.pitch = lens.renderWidth / 2 := by rw [h.renderWidth]; ring
  have hheight : (lens.height : ℝ) / 2 * lens.pitch = lens.renderHeight / 2 := by rw [h.renderHeight]; ring
  rw [hwidth] at hx hx'
  rw [hheight] at hy hy'
  unfold InRendered
  simp only [ofRat_two_real, ofRat_half_real, sample_sub_centre, add_zero]
  exact ⟨⟨hx, hy⟩, fun hmargin => ⟨hx' hmargin, hy' hmargin⟩⟩

/-- The pinhole coordinates of a sample have the undistorted radius, in the direction of the point. -/
theorem project_pinhole (a b : ℝ) :
    |(lens.project (lens.pinhole (lens.sampleAt a b)).1 (lens.pinhole (lens.sampleAt a b)).2).1 -
        (a * lens.outputFocalPx + lens.width / 2)| ≤
      lens.outputFocalPx * bisectionError (hypot (lens.pinhole (lens.sampleAt a b)).1 (lens.pinhole (lens.sampleAt a b)).2) ∧
    |(lens.project (lens.pinhole (lens.sampleAt a b)).1 (lens.pinhole (lens.sampleAt a b)).2).2 -
        (b * lens.outputFocalPx + lens.height / 2)| ≤
      lens.outputFocalPx * bisectionError (hypot (lens.pinhole (lens.sampleAt a b)).1 (lens.pinhole (lens.sampleAt a b)).2) := by
  have hS : 0 < stretch lens.k1 lens.k2 (a * a + b * b) :=
    zero_lt_one.trans_le (one_le_stretch h.k1 h.k2 (add_nonneg (mul_self_nonneg a) (mul_self_nonneg b)))
  have hradius : hypot (a * stretch lens.k1 lens.k2 (a * a + b * b)) (b * stretch lens.k1 lens.k2 (a * a + b * b)) =
      undistortedRadius (hypot a b) lens.k1 lens.k2 := by
    rw [hypot_scale hS.le, undistortedRadius_eq, hypot_mul_self]
  rw [pinhole_sampleAt h.renderFocal.ne']
  dsimp only
  rw [hradius]
  rcases (hypot_nonneg a b).eq_or_lt with hzero | hpos
  · -- The middle of the image.
    have ha : a = 0 := abs_nonpos_iff.mp (hzero ▸ abs_le_hypot_left a b)
    have hb : b = 0 := abs_nonpos_iff.mp (hzero ▸ abs_le_hypot_right a b)
    have hmiddle : undistortedRadius (hypot a b) lens.k1 lens.k2 = 0 := by rw [← hzero, undistortedRadius_eq, zero_mul]
    have hbound := mul_nonneg h.outputFocal.le (bisectionError_pos 0).le
    rw [project_zero (hradius.trans hmiddle), hmiddle, ha, hb]
    simp only [zero_mul, sub_self, abs_zero]
    exact ⟨hbound, hbound⟩
  · have hundistorted : 0 < undistortedRadius (hypot a b) lens.k1 lens.k2 := hpos.trans_le (le_undistortedRadius h.k1 h.k2 hpos.le)
    have hnear := distortedRadius_near h.k1 h.k2 hpos.le rfl
    rw [project_pos (hradius ▸ hundistorted), hradius]
    have hsplit : undistortedRadius (hypot a b) lens.k1 lens.k2 = hypot a b * stretch lens.k1 lens.k2 (a * a + b * b) := by
      rw [undistortedRadius_eq, hypot_mul_self]
    generalize distortedRadius (undistortedRadius (hypot a b) lens.k1 lens.k2) lens.k1 lens.k2 = d at hnear ⊢
    generalize bisectionError (undistortedRadius (hypot a b) lens.k1 lens.k2) = error at hnear ⊢
    rw [hsplit]
    exact ⟨directed_sub_le hS hpos h.outputFocal (abs_le_hypot_left a b) hnear,
      directed_sub_le hS hpos h.outputFocal (abs_le_hypot_right a b) hnear⟩

end Fitted

/-! ### The maps -/

/-- An entry of a map. -/
def sampled {K : Type} (map : List (List K)) (row column : Nat) : Option K := map[row]?.bind (·[column]?)

theorem sampled_maps {row column : Nat} (hrow : row < lens.height) (hcolumn : column < lens.width) :
    sampled lens.maps.1 row column = some (lens.sampleAt (lens.u column) (lens.v row)).1 ∧
      sampled lens.maps.2 row column = some (lens.sampleAt (lens.u column) (lens.v row)).2 := by
  simp only [sampled, maps, List.getElem?_map, List.getElem?_range hrow, List.getElem?_range hcolumn, Option.map_some, Option.bind_some]
  exact ⟨rfl, rfl⟩

/-! ### The lens that is built -/

/-- The lens up to an error in the rendered image. -/
structure Faithful (lens : LensModel ℝ) (error : ℝ) : Prop where
  /-- The corners of the output image are sampled at those of the rendered image. -/
  corner : ∀ sx sy : ℝ, |sx| = 1 → |sy| = 1 →
    |(lens.sampleAt (lens.cornerAt sx sy).1 (lens.cornerAt sx sy).2).1 - (lens.renderedCorner sx sy).1| ≤ error ∧
      |(lens.sampleAt (lens.cornerAt sx sy).1 (lens.cornerAt sx sy).2).2 - (lens.renderedCorner sx sy).2| ≤ error
  /-- Each pixel is sampled in the rendered image, exactly so when the error is at most half an output pixel. -/
  pixel : ∀ row column, row < lens.height → column < lens.width → ∃ sample : ℝ × ℝ,
    sampled lens.maps.1 row column = some sample.1 ∧ sampled lens.maps.2 row column = some sample.2 ∧
      lens.InRendered error sample ∧ (error ≤ lens.pitch / ofRat 2 → lens.InRendered 0 sample)
  /-- The pinhole coordinates of its sample are projected to its centre. -/
  project : ∀ row column x y, sampled lens.maps.1 row column = some x → sampled lens.maps.2 row column = some y →
    row < lens.height → column < lens.width →
    |(lens.project (lens.pinhole (x, y)).1 (lens.pinhole (x, y)).2).1 - (column + ofRat 0.5)| ≤
        lens.outputFocalPx * bisectionError (hypot (lens.pinhole (x, y)).1 (lens.pinhole (x, y)).2) ∧
      |(lens.project (lens.pinhole (x, y)).1 (lens.pinhole (x, y)).2).2 - (row + ofRat 0.5)| ≤
        lens.outputFocalPx * bisectionError (hypot (lens.pinhole (x, y)).1 (lens.pinhole (x, y)).2)

theorem InRendered.mono {error error' : ℝ} {sample : ℝ × ℝ} (h : lens.InRendered error sample) (hle : error ≤ error') :
    lens.InRendered error' sample :=
  ⟨h.1.trans (add_le_add_right hle _), h.2.trans (add_le_add_right hle _)⟩

theorem Fitted.faithful {error : ℝ} (h : lens.Fitted) (hle : lens.cornerMiss ≤ error) : lens.Faithful error := by
  have hfocal := h.outputFocal.ne'
  refine ⟨?_, ?_, ?_⟩
  · intro sx sy hsx hsy
    obtain ⟨hx, hy⟩ := h.corner_near hsx hsy
    exact ⟨hx.trans hle, hy.trans hle⟩
  · intro row column hrow hcolumn
    obtain ⟨hx, hy⟩ := lens.sampled_maps hrow hcolumn
    obtain ⟨hin, hexact⟩ := h.pixel_inRendered hrow hcolumn
    exact ⟨_, hx, hy, hin.mono hle, fun hmargin => hexact (ofRat_two_real ▸ hle.trans hmargin)⟩
  · intro row column x y hx hy hrow hcolumn
    obtain ⟨hx', hy'⟩ := lens.sampled_maps hrow hcolumn
    obtain rfl := Option.some.inj (hx'.symm.trans hx)
    obtain rfl := Option.some.inj (hy'.symm.trans hy)
    have hcentre := h.project_pinhole (lens.u column) (lens.v row)
    rw [u_real, v_real, div_mul_cancel₀ _ hfocal, div_mul_cancel₀ _ hfocal, sub_add_cancel, sub_add_cancel, ← ofRat_half_real] at hcentre
    rw [u_real, v_real, ← ofRat_half_real]
    exact hcentre

/-- The output corner is off by what the bisection is off, as much as the radial model magnifies it there. -/
theorem Fitted.cornerMiss_le {ρ : ℝ} (h : lens.Fitted) (hρ : 0 ≤ ρ) (hcorner : undistortedRadius ρ lens.k1 lens.k2 = lens.cornerU) :
    lens.cornerMiss ≤ lens.renderFocalPx * slope lens.k1 lens.k2 (max (lens.cornerD) ρ) *
      bisectionError lens.cornerU := by
  have hfound : 0 ≤ lens.cornerD := lens.cornerD_pos.le
  have hrise := undistortedRadius_sub_le h.k1 h.k2 hfound hρ
  rw [hcorner] at hrise
  have hslope : 0 ≤ slope lens.k1 lens.k2 (max (lens.cornerD) ρ) := by
    rw [slope_real]
    have hk1 := h.k1
    have hk2 := h.k2
    have hsquare := mul_self_nonneg (max (lens.cornerD) ρ)
    positivity
  unfold cornerMiss
  rw [mul_assoc]
  refine mul_le_mul_of_nonneg_left (hrise.trans ?_) h.renderFocal.le
  exact mul_le_mul_of_nonneg_left (distortedRadius_near h.k1 h.k2 hρ hcorner) hslope

theorem build_fitted {width height renderWidth renderHeight : Nat} {focalLengthMm horizontalApertureMm k1 k2 : ℝ} (hwidth : 0 < width)
    (hheight : 0 < height) (hrender : 0 < renderWidth) (haspect : renderWidth * height = renderHeight * width) (hfocal : 0 < focalLengthMm)
    (haperture : 0 < horizontalApertureMm) (hk1 : 0 ≤ k1) (hk2 : 0 ≤ k2) :
    (build width height renderWidth renderHeight focalLengthMm horizontalApertureMm k1 k2).Fitted := by
  refine ⟨hwidth, hheight, ?_, ?_, hk1, hk2, ?_⟩
  · exact_mod_cast haspect
  · have hpositive : (0 : ℝ) < ofRat renderWidth := by
      rw [ofRat_natCast_real]
      exact Nat.cast_pos.mpr hrender
    exact div_pos (mul_pos hpositive hfocal) haperture
  · exact div_mul_cancel₀ _ (distortedRadius_pos _).ne'

end LensModel

open LensModel

/-- The radial model has one radius for each, which the bisection finds up to its error; and a lens that is built samples its corners and
    pixels in the rendered image up to that error, magnified by the model at the corner, and projects the samples to the pixels. -/
theorem lens_geometry {width height renderWidth renderHeight : Nat} {focalLengthMm horizontalApertureMm k1 k2 : ℝ} (hwidth : 0 < width)
    (hheight : 0 < height) (hrender : 0 < renderWidth) (haspect : renderWidth * height = renderHeight * width) (hfocal : 0 < focalLengthMm)
    (haperture : 0 < horizontalApertureMm) (hk1 : 0 ≤ k1) (hk2 : 0 ≤ k2) :
    (∀ r, 0 ≤ r → ∃ ρ, 0 ≤ ρ ∧ undistortedRadius ρ k1 k2 = r ∧ (∀ σ, 0 ≤ σ → undistortedRadius σ k1 k2 = r → σ = ρ) ∧
      |distortedRadius r k1 k2 - ρ| ≤ bisectionError r) ∧
    ∀ lens, lens = build width height renderWidth renderHeight focalLengthMm horizontalApertureMm k1 k2 →
      ∃ ρ, 0 ≤ ρ ∧ undistortedRadius ρ k1 k2 = lens.cornerU ∧
        lens.Faithful (lens.renderFocalPx * slope k1 k2 (max (lens.cornerD) ρ) * bisectionError lens.cornerU) := by
  refine ⟨fun r hr => ?_, ?_⟩
  · obtain ⟨ρ, hρ, -, hradius⟩ := exists_radius hk1 hk2 hr
    exact ⟨ρ, hρ, hradius, fun σ hσ h => radius_unique hk1 hk2 hσ hρ (h.trans hradius.symm), distortedRadius_near hk1 hk2 hρ hradius⟩
  · rintro _ rfl
    have hfitted := build_fitted hwidth hheight hrender haspect hfocal haperture hk1 hk2
    obtain ⟨ρ, hρ, -, hcorner⟩ := exists_radius hk1 hk2 (div_nonneg (hypot_nonneg _ _) hfitted.renderFocal.le)
    exact ⟨ρ, hρ, hcorner, hfitted.faithful (hfitted.cornerMiss_le hρ hcorner)⟩

/-- The lens of the head camera. -/
noncomputable def headLens : LensModel ℝ := build 640 480 960 720 8.79 20.955 0.15 0

theorem headLens_focal : 402 ≤ headLens.renderFocalPx ∧ headLens.renderFocalPx ≤ 403 := by
  have hfocal : headLens.renderFocalPx = 960 * 8.79 / 20.955 := by
    show ofRat ((960 : Nat) : ℚ) * (8.79 : ℝ) / 20.955 = 960 * 8.79 / 20.955
    rw [ofRat_natCast_real]
    norm_num
  rw [hfocal]
  constructor <;> norm_num

theorem headLens_cornerU : headLens.cornerU ≤ 2 := by
  have hdiagonal : hypot (ofRat ((960 : Nat) : ℚ) / ofRat 2) (ofRat ((720 : Nat) : ℚ) / ofRat 2) = (600 : ℝ) := by
    rw [ofRat_natCast_real, ofRat_natCast_real, ofRat_two_real, hypot_real, Real.sqrt_eq_iff_mul_self_eq (by norm_num) (by norm_num)]
    norm_num
  have hfocal := headLens_focal.1
  show hypot (ofRat ((960 : Nat) : ℚ) / ofRat 2) (ofRat ((720 : Nat) : ℚ) / ofRat 2) / headLens.renderFocalPx ≤ 2
  rw [hdiagonal, div_le_iff₀ (by linarith)]
  linarith

/-- The last pixel of the head camera is sampled in the rendered image. -/
theorem lens_geometry_head : ∃ sample : ℝ × ℝ, sampled headLens.maps.1 479 639 = some sample.1 ∧
    sampled headLens.maps.2 479 639 = some sample.2 ∧ headLens.InRendered 0 sample := by
  have hk1 : (0 : ℝ) ≤ 0.15 := by norm_num
  obtain ⟨ρ, hρ, hcorner, hfaithful⟩ : ∃ ρ, 0 ≤ ρ ∧ undistortedRadius ρ 0.15 0 = headLens.cornerU ∧ headLens.Faithful
      (headLens.renderFocalPx * slope 0.15 0 (max (headLens.cornerD) ρ) * bisectionError headLens.cornerU) :=
    (lens_geometry (by decide) (by decide) (by decide) (by decide) (by norm_num) (by norm_num) hk1 le_rfl).2 headLens rfl
  obtain ⟨sample, hx, hy, -, hexact⟩ := hfaithful.pixel 479 639 (by decide) (by decide)
  refine ⟨sample, hx, hy, hexact ?_⟩
  obtain ⟨hfocal, hfocal'⟩ := headLens_focal
  have hnear : |headLens.cornerD - ρ| ≤ bisectionError headLens.cornerU := distortedRadius_near hk1 le_rfl hρ hcorner
  have hρ' : ρ ≤ 2 := (hcorner ▸ le_undistortedRadius hk1 le_rfl hρ).trans headLens_cornerU
  have herror : bisectionError headLens.cornerU ≤ 2 / 2 ^ 100 := by
    rw [bisectionError_real, larger_real, ofRat_real]
    exact div_le_div_of_nonneg_right (max_le headLens_cornerU (by norm_num)) (by positivity)
  have hfound : headLens.cornerD ≤ 3 := by
    have hone : (2 : ℝ) / 2 ^ 100 ≤ 1 := by norm_num
    linarith [(abs_le.mp hnear).2]
  have hmax : max (headLens.cornerD) ρ ≤ 3 := max_le hfound (by linarith)
  have hsquare := mul_self_le_mul_self (le_max_of_le_right hρ) hmax
  have hslope : slope 0.15 0 (max (headLens.cornerD) ρ) ≤ 6 := by
    rw [slope_real]
    linarith
  have hpitch : headLens.pitch / ofRat 2 = 3 / 4 := by
    show ((960 : Nat) : ℝ) / ((640 : Nat) : ℝ) / ofRat 2 = 3 / 4
    rw [ofRat_two_real]
    norm_num
  rw [hpitch]
  calc headLens.renderFocalPx * slope 0.15 0 (max (headLens.cornerD) ρ) * bisectionError headLens.cornerU
      ≤ 403 * 6 * (2 / 2 ^ 100) := by
        have hslope' : 0 ≤ slope 0.15 0 (max (headLens.cornerD) ρ) := by
          rw [slope_real]
          linarith [mul_self_nonneg (max (headLens.cornerD) ρ)]
        exact mul_le_mul (mul_le_mul hfocal' hslope hslope' (by norm_num)) herror (bisectionError_pos _).le (by norm_num)
    _ ≤ 3 / 4 := by norm_num

/-! A lens whose model rises so steeply that the radius of its corner is far below the last bracket. The bisection never leaves the low end,
and what it is off is magnified more than the focal lengths scale it. -/

noncomputable def steepLens : LensModel ℝ := build 8 6 8 6 (ofRat 5) (ofRat 8) (ofRat (2 ^ 330)) 0

theorem steepLens_fitted : steepLens.Fitted :=
  build_fitted (by decide) (by decide) (by decide) rfl (by rw [ofRat_real]; norm_num) (by rw [ofRat_real]; norm_num)
    (by rw [ofRat_real]; norm_num) le_rfl

theorem hypot_four_three : hypot (ofRat ((8 : Nat) : ℚ) / ofRat 2) (ofRat ((6 : Nat) : ℚ) / ofRat 2) = (5 : ℝ) := by
  rw [ofRat_natCast_real, ofRat_natCast_real, ofRat_two_real, hypot_real, Real.sqrt_eq_iff_mul_self_eq (by norm_num) (by norm_num)]
  norm_num

theorem steepLens_focal : steepLens.renderFocalPx = 5 := by
  show ofRat ((8 : Nat) : ℚ) * (ofRat 5 : ℝ) / ofRat 8 = 5
  rw [ofRat_natCast_real, ofRat_real, ofRat_real]
  norm_num

theorem steepLens_cornerU : steepLens.cornerU = 1 := by
  show hypot (ofRat ((8 : Nat) : ℚ) / ofRat 2) (ofRat ((6 : Nat) : ℚ) / ofRat 2) / steepLens.renderFocalPx = 1
  rw [hypot_four_three, steepLens_focal, div_self (by norm_num)]

/-- The radius that is found for the corner. -/
noncomputable def steepRadius : ℝ := distortedRadius 1 (ofRat (2 ^ 330)) 0

theorem steepRadius_pos : 0 < steepRadius := distortedRadius_pos 1

theorem steepLens_cornerD : steepLens.cornerD = steepRadius := by
  unfold cornerD
  rw [steepLens_cornerU]
  rfl

theorem steepLens_outputFocal : steepLens.outputFocalPx = 5 / steepRadius := by
  have hcorner := steepLens_fitted.corner
  rw [steepLens_cornerD] at hcorner
  exact (eq_div_iff steepRadius_pos.ne').mpr (hcorner.trans hypot_four_three)

theorem bisectionError_one : bisectionError 1 = 1 / 2 ^ 100 := by
  rw [bisectionError_real, larger_real, ofRat_real, max_eq_left (by norm_num)]

theorem le_steepRadius : 1 / 2 ^ 101 ≤ steepRadius := by
  have hle : bisectionError 1 ≤ 2 * steepRadius := bisectionError_le 1
  rw [bisectionError_one] at hle
  linarith

/-- The corner is stretched over a hundred million pixels. -/
theorem steepRadius_stretched : 2 ^ 27 ≤ 2 ^ 330 * (steepRadius * steepRadius * steepRadius) := by
  have hle := le_steepRadius
  have hcube : (1 / 2 ^ 101) * (1 / 2 ^ 101) * (1 / 2 ^ 101) ≤ steepRadius * steepRadius * steepRadius := by gcongr
  have hpower : (2 : ℝ) ^ 330 = 2 ^ 27 * (2 ^ 101 * 2 ^ 101 * 2 ^ 101) := by rw [← pow_add, ← pow_add, ← pow_add]
  calc (2 : ℝ) ^ 27 = 2 ^ 330 * ((1 / 2 ^ 101) * (1 / 2 ^ 101) * (1 / 2 ^ 101)) := by
        rw [hpower]
        field_simp
    _ ≤ 2 ^ 330 * (steepRadius * steepRadius * steepRadius) := mul_le_mul_of_nonneg_left hcube (by positivity)

/-- The error, scaled by each of the focal lengths and by both. -/
noncomputable def LensModel.scaledError (lens : LensModel ℝ) : ℝ :=
  (lens.renderFocalPx + lens.outputFocalPx + lens.renderFocalPx * lens.outputFocalPx) * bisectionError lens.cornerU

theorem steepLens_scaledError : steepLens.scaledError ≤ 61 := by
  have houtput : 5 / steepRadius ≤ 5 * 2 ^ 101 := by
    rw [div_le_iff₀ steepRadius_pos]
    linarith [le_steepRadius]
  unfold scaledError
  rw [steepLens_cornerU, bisectionError_one, steepLens_focal, steepLens_outputFocal]
  linarith

theorem steepLens_stretch (r2 : ℝ) : stretch steepLens.k1 steepLens.k2 r2 = 1 + 2 ^ 330 * r2 := by
  have hk1 : steepLens.k1 = 2 ^ 330 := by
    show ofRat (2 ^ 330) = _
    rw [ofRat_real]
    push_cast
    rfl
  have hk2 : steepLens.k2 = 0 := rfl
  rw [stretch_real, hk1, hk2, zero_mul, zero_mul, add_zero]

/-- The corner and the last pixel, by the radius of the corner. -/
theorem steepLens_cornerAt : steepLens.cornerAt 1 1 = (4 / 5 * steepRadius, 3 / 5 * steepRadius) := by
  have hwidth : (steepLens.width : ℝ) = 8 := Nat.cast_ofNat
  have hheight : (steepLens.height : ℝ) = 6 := Nat.cast_ofNat
  have hpos := steepRadius_pos
  rw [cornerAt_real, steepLens_outputFocal, hwidth, hheight, Prod.mk.injEq]
  constructor <;>
  · field_simp
    norm_num

theorem steepLens_pixel : steepLens.u 7 = 7 / 10 * steepRadius ∧ steepLens.v 5 = 1 / 2 * steepRadius := by
  have hwidth : (steepLens.width : ℝ) = 8 := Nat.cast_ofNat
  have hheight : (steepLens.height : ℝ) = 6 := Nat.cast_ofNat
  have hpos := steepRadius_pos
  rw [u_real, v_real, steepLens_outputFocal, hwidth, hheight]
  push_cast
  constructor <;>
  · field_simp
    norm_num

/-- The corner and a pixel are sampled outside the rendered image, by more than the error scaled by the focal lengths. -/
theorem steep_lens_misses :
    steepLens.scaledError <
        |(steepLens.sampleAt (steepLens.cornerAt 1 1).1 (steepLens.cornerAt 1 1).2).1 - (steepLens.renderedCorner 1 1).1| ∧
      ∃ sample : ℝ × ℝ, sampled steepLens.maps.1 5 7 = some sample.1 ∧ sampled steepLens.maps.2 5 7 = some sample.2 ∧
        ¬steepLens.InRendered steepLens.scaledError sample := by
  have herror := steepLens_scaledError
  have hstretched := steepRadius_stretched
  have hpos := steepRadius_pos
  have hrender : (steepLens.renderWidth : ℝ) = 8 := Nat.cast_ofNat
  constructor
  · have hoff : ∀ k ρ : ℝ, 4 / 5 * ρ * (1 + k * (4 / 5 * ρ * (4 / 5 * ρ) + 3 / 5 * ρ * (3 / 5 * ρ))) * 5 + 8 / 2 - 1 / 2 -
        (1 * (8 / 2) + 8 / 2 - 1 / 2) = 4 * ρ + 4 * (k * (ρ * ρ * ρ)) - 4 := fun k ρ => by ring
    rw [steepLens_cornerAt, renderedCorner_real, sampleAt_real]
    dsimp only
    rw [steepLens_stretch, steepLens_focal, hrender, hoff]
    generalize (2 : ℝ) ^ 330 * (steepRadius * steepRadius * steepRadius) = stretched at hstretched
    refine lt_of_lt_of_le ?_ (le_abs_self _)
    linarith
  · have hsampled : sampled steepLens.maps.1 5 7 = some (steepLens.sampleAt (steepLens.u 7) (steepLens.v 5)).1 ∧
        sampled steepLens.maps.2 5 7 = some (steepLens.sampleAt (steepLens.u 7) (steepLens.v 5)).2 :=
      steepLens.sampled_maps (by decide) (by decide)
    refine ⟨_, hsampled.1, hsampled.2, fun hin => ?_⟩
    have hin := hin.1.trans (add_le_add_right herror _)
    have hoff : ∀ k ρ : ℝ, 7 / 10 * ρ * (1 + k * (7 / 10 * ρ * (7 / 10 * ρ) + 1 / 2 * ρ * (1 / 2 * ρ))) * 5 =
        7 / 2 * ρ + 259 / 100 * (k * (ρ * ρ * ρ)) := fun k ρ => by ring
    rw [steepLens_pixel.1, steepLens_pixel.2, sampleAt_real, ofRat_two_real, ofRat_half_real, hrender] at hin
    dsimp only at hin
    rw [sample_sub_centre, steepLens_stretch, steepLens_focal, hoff] at hin
    generalize (2 : ℝ) ^ 330 * (steepRadius * steepRadius * steepRadius) = stretched at hstretched hin
    linarith [le_abs_self (7 / 2 * steepRadius + 259 / 100 * stretched)]

end HumanoidLab
