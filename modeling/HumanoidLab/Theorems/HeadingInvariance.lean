import HumanoidLab.Theorems.ObservationLocality
import Mathlib.Data.List.GetD

/-! The anchor orientations over the exact reals: a yaw of the whole episode turns the heading of the base and the orientation of
    the reference together, and the sign of a quaternion is lost in both. -/

namespace HumanoidLab

/-! ### Quaternions over the reals -/

namespace Quat
variable {q : Quat ℝ}

def Unit (q : Quat ℝ) : Prop := q.w * q.w + q.x * q.x + q.y * q.y + q.z * q.z = 1

section
open Arithmetic

/-- The first two columns of the rotation matrix: the horizontal part of each as a complex number, the third row apart. -/
noncomputable def column₀ (q : Quat ℝ) : ℂ := ⟨ofRat 1 - ofRat 2 * (q.y * q.y + q.z * q.z), ofRat 2 * (q.x * q.y + q.w * q.z)⟩

noncomputable def column₁ (q : Quat ℝ) : ℂ := ⟨ofRat 2 * (q.x * q.y - q.w * q.z), ofRat 1 - ofRat 2 * (q.x * q.x + q.z * q.z)⟩

noncomputable def thirdRow (q : Quat ℝ) : List ℝ := [ofRat 2 * (q.x * q.z - q.w * q.y), ofRat 2 * (q.y * q.z + q.w * q.x)]

theorem ofRat_one : (ofRat 1 : ℝ) = 1 := Rat.cast_one

theorem ofRat_two : (ofRat 2 : ℝ) = 2 := Rat.cast_ofNat 2

theorem column₀_real (q : Quat ℝ) : q.column₀ = ⟨1 - 2 * (q.y * q.y + q.z * q.z), 2 * (q.x * q.y + q.w * q.z)⟩ := by
  unfold column₀
  rw [ofRat_one, ofRat_two]

theorem column₁_real (q : Quat ℝ) : q.column₁ = ⟨2 * (q.x * q.y - q.w * q.z), 1 - 2 * (q.x * q.x + q.z * q.z)⟩ := by
  unfold column₁
  rw [ofRat_one, ofRat_two]

theorem thirdRow_real (q : Quat ℝ) : q.thirdRow = [2 * (q.x * q.z - q.w * q.y), 2 * (q.y * q.z + q.w * q.x)] := by
  unfold thirdRow
  rw [ofRat_two]

end

/-- The horizontal part of the rotated x-axis. -/
noncomputable def direction (q : Quat ℝ) : ℂ := ⟨(quatRotate q ⟨1, 0, 0⟩).x, (quatRotate q ⟨1, 0, 0⟩).y⟩

/-- A unit quaternion with a heading. -/
structure Upright (q : Quat ℝ) : Prop where
  unit : q.Unit
  heading : q.direction ≠ 0

noncomputable def turn (θ : ℝ) (q : Quat ℝ) : Quat ℝ := quatMul (yaw θ) q

def neg (q : Quat ℝ) : Quat ℝ := ⟨-q.w, -q.x, -q.y, -q.z⟩

end Quat

open Quat

theorem quatUnit_unit {q : Quat ℝ} (h : q.Unit) : quatUnit q = q := by
  have hnorm : q.norm = 1 := by
    show Real.sqrt (q.w * q.w + q.x * q.x + q.y * q.y + q.z * q.z) = 1
    rw [h, Real.sqrt_one]
  have hlt : Arithmetic.lt (Arithmetic.ofRat 1e-12) q.norm = true := by
    rw [hnorm]
    show decide (((1e-12 : ℚ) : ℝ) < 1) = true
    norm_num
  unfold quatUnit
  rw [if_pos hlt, hnorm]
  show (⟨q.w / (1 : ℝ), q.x / (1 : ℝ), q.y / (1 : ℝ), q.z / (1 : ℝ)⟩ : Quat ℝ) = q
  simp only [div_one]

theorem quatUnit_neg (q : Quat ℝ) : quatUnit q.neg = (quatUnit q).neg := by
  have hnorm : q.neg.norm = q.norm := by
    show Real.sqrt (-q.w * -q.w + -q.x * -q.x + -q.y * -q.y + -q.z * -q.z) =
      Real.sqrt (q.w * q.w + q.x * q.x + q.y * q.y + q.z * q.z)
    simp only [neg_mul_neg]
  unfold quatUnit
  rw [hnorm]
  split
  · show (⟨-q.w / q.norm, -q.x / q.norm, -q.y / q.norm, -q.z / q.norm⟩ : Quat ℝ) =
      ⟨-(q.w / q.norm), -(q.x / q.norm), -(q.y / q.norm), -(q.z / q.norm)⟩
    simp only [neg_div]
  · show (⟨((0 : ℚ) : ℝ), ((0 : ℚ) : ℝ), ((0 : ℚ) : ℝ), ((0 : ℚ) : ℝ)⟩ : Quat ℝ) =
      ⟨-((0 : ℚ) : ℝ), -((0 : ℚ) : ℝ), -((0 : ℚ) : ℝ), -((0 : ℚ) : ℝ)⟩
    simp only [Rat.cast_zero, neg_zero]

theorem rotation6d_real (q : Quat ℝ) : rotation6d q = [(quatUnit q).column₀.re, (quatUnit q).column₁.re, (quatUnit q).column₀.im,
    (quatUnit q).column₁.im] ++ (quatUnit q).thirdRow := rfl

theorem rotation6d_neg (q : Quat ℝ) : rotation6d q.neg = rotation6d q := by
  have hcolumn₀ : ∀ u : Quat ℝ, u.neg.column₀ = u.column₀ := by
    intro u
    simp only [column₀, neg, neg_mul_neg]
  have hcolumn₁ : ∀ u : Quat ℝ, u.neg.column₁ = u.column₁ := by
    intro u
    simp only [column₁, neg, neg_mul_neg]
  have hthird : ∀ u : Quat ℝ, u.neg.thirdRow = u.thirdRow := by
    intro u
    simp only [thirdRow, neg, neg_mul_neg]
  rw [rotation6d_real, rotation6d_real, quatUnit_neg, hcolumn₀, hcolumn₁, hthird]

/-! ### The heading -/

theorem direction_real (q : Quat ℝ) :
    q.direction = ⟨2 * q.w * q.w - 1 + 2 * q.x * q.x, 2 * q.w * q.z + 2 * q.y * q.x⟩ := by
  unfold direction quatRotate
  rw [ofRat_one, ofRat_two]
  refine Complex.ext ?_ ?_
  · show 1 * (2 * q.w * q.w - 1) + 2 * q.w * (q.y * 0 - q.z * 0) + 2 * q.x * (q.x * 1 + q.y * 0 + q.z * 0) =
      2 * q.w * q.w - 1 + 2 * q.x * q.x
    ring
  · show 0 * (2 * q.w * q.w - 1) + 2 * q.w * (q.z * 1 - q.x * 0) + 2 * q.y * (q.x * 1 + q.y * 0 + q.z * 0) =
      2 * q.w * q.z + 2 * q.y * q.x
    ring

theorem direction_unit {q : Quat ℝ} (h : q.Unit) : q.direction = q.column₀ := by
  unfold Quat.Unit at h
  rw [direction_real, column₀_real]
  refine Complex.ext ?_ ?_
  · show 2 * q.w * q.w - 1 + 2 * q.x * q.x = 1 - 2 * (q.y * q.y + q.z * q.z)
    linear_combination 2 * h
  · show 2 * q.w * q.z + 2 * q.y * q.x = 2 * (q.x * q.y + q.w * q.z)
    ring

theorem direction_neg (q : Quat ℝ) : q.neg.direction = q.direction := by
  rw [direction_real, direction_real]
  refine Complex.ext ?_ ?_
  · show 2 * -q.w * -q.w - 1 + 2 * -q.x * -q.x = 2 * q.w * q.w - 1 + 2 * q.x * q.x
    ring
  · show 2 * -q.w * -q.z + 2 * -q.y * -q.x = 2 * q.w * q.z + 2 * q.y * q.x
    ring

theorem calcHeading_real (q : Quat ℝ) : calcHeading q = q.direction.arg := by
  have hzero : (Arithmetic.ofRat 0 : ℝ) = 0 := Rat.cast_zero
  unfold calcHeading direction
  rw [ofRat_one, hzero]
  rfl

theorem yaw_real (θ : ℝ) : yaw θ = ⟨Real.cos (θ / 2), 0, 0, Real.sin (θ / 2)⟩ := by
  have hzero : (Arithmetic.ofRat 0 : ℝ) = 0 := Rat.cast_zero
  have haxis : Real.sqrt (0 * 0 + 0 * 0 + 1 * 1) = 1 := by norm_num
  have hunit : (⟨Real.cos (θ / 2), 0, 0, Real.sin (θ / 2)⟩ : Quat ℝ).Unit := by
    show Real.cos (θ / 2) * Real.cos (θ / 2) + 0 * 0 + 0 * 0 + Real.sin (θ / 2) * Real.sin (θ / 2) = 1
    linear_combination Real.sin_sq_add_cos_sq (θ / 2)
  unfold yaw quatFromAngleAxis
  rw [ofRat_one, hzero, ofRat_two]
  show quatUnit ⟨Real.cos (θ / 2), Real.sin (θ / 2) * (0 / Real.sqrt (0 * 0 + 0 * 0 + 1 * 1)),
    Real.sin (θ / 2) * (0 / Real.sqrt (0 * 0 + 0 * 0 + 1 * 1)), Real.sin (θ / 2) * (1 / Real.sqrt (0 * 0 + 0 * 0 + 1 * 1))⟩ = _
  rw [haxis, zero_div, mul_zero, div_one, mul_one, quatUnit_unit hunit]

/-! ### A yaw -/

theorem turn_real (θ : ℝ) (q : Quat ℝ) : q.turn θ =
    ⟨Real.cos (θ / 2) * q.w - Real.sin (θ / 2) * q.z, Real.cos (θ / 2) * q.x - Real.sin (θ / 2) * q.y,
     Real.cos (θ / 2) * q.y + Real.sin (θ / 2) * q.x, Real.cos (θ / 2) * q.z + Real.sin (θ / 2) * q.w⟩ := by
  unfold turn
  rw [yaw_real]
  refine Quat.ext ?_ ?_ ?_ ?_
  · show Real.cos (θ / 2) * q.w - 0 * q.x - 0 * q.y - Real.sin (θ / 2) * q.z = _
    ring
  · show Real.cos (θ / 2) * q.x + 0 * q.w + 0 * q.z - Real.sin (θ / 2) * q.y = _
    ring
  · show Real.cos (θ / 2) * q.y - 0 * q.z + 0 * q.w + Real.sin (θ / 2) * q.x = _
    ring
  · show Real.cos (θ / 2) * q.z + 0 * q.y - 0 * q.x + Real.sin (θ / 2) * q.w = _
    ring

theorem cos_half (θ : ℝ) : Real.cos θ = Real.cos (θ / 2) * Real.cos (θ / 2) - Real.sin (θ / 2) * Real.sin (θ / 2) := by
  rw [← Real.cos_add, add_halves]

theorem sin_half (θ : ℝ) : Real.sin θ = 2 * (Real.sin (θ / 2) * Real.cos (θ / 2)) := by
  rw [← mul_assoc, ← Real.sin_two_mul, mul_div_cancel₀ θ two_ne_zero]

theorem turn_unit {q : Quat ℝ} (θ : ℝ) (h : q.Unit) : (q.turn θ).Unit := by
  unfold Quat.Unit at h ⊢
  rw [turn_real]
  linear_combination (q.w * q.w + q.x * q.x + q.y * q.y + q.z * q.z) * Real.sin_sq_add_cos_sq (θ / 2) + h

theorem column₀_turn {q : Quat ℝ} (θ : ℝ) (h : q.Unit) : (q.turn θ).column₀ = Complex.exp (θ * Complex.I) * q.column₀ := by
  unfold Quat.Unit at h
  rw [turn_real]
  refine Complex.ext ?_ ?_
  · rw [Complex.mul_re, Complex.exp_ofReal_mul_I_re, Complex.exp_ofReal_mul_I_im, cos_half θ, sin_half θ]
    rw [column₀_real, column₀_real]
    dsimp only
    linear_combination (-1 : ℝ) * Real.sin_sq_add_cos_sq (θ / 2) - 2 * Real.sin (θ / 2) * Real.sin (θ / 2) * h
  · rw [Complex.mul_im, Complex.exp_ofReal_mul_I_re, Complex.exp_ofReal_mul_I_im, cos_half θ, sin_half θ]
    rw [column₀_real, column₀_real]
    dsimp only
    linear_combination 2 * Real.sin (θ / 2) * Real.cos (θ / 2) * h

theorem column₁_turn {q : Quat ℝ} (θ : ℝ) (h : q.Unit) : (q.turn θ).column₁ = Complex.exp (θ * Complex.I) * q.column₁ := by
  unfold Quat.Unit at h
  rw [turn_real]
  refine Complex.ext ?_ ?_
  · rw [Complex.mul_re, Complex.exp_ofReal_mul_I_re, Complex.exp_ofReal_mul_I_im, cos_half θ, sin_half θ]
    rw [column₁_real, column₁_real]
    dsimp only
    linear_combination (-2 : ℝ) * Real.sin (θ / 2) * Real.cos (θ / 2) * h
  · rw [Complex.mul_im, Complex.exp_ofReal_mul_I_re, Complex.exp_ofReal_mul_I_im, cos_half θ, sin_half θ]
    rw [column₁_real, column₁_real]
    dsimp only
    linear_combination (-1 : ℝ) * Real.sin_sq_add_cos_sq (θ / 2) - 2 * Real.sin (θ / 2) * Real.sin (θ / 2) * h

theorem thirdRow_turn (θ : ℝ) (q : Quat ℝ) : (q.turn θ).thirdRow = q.thirdRow := by
  rw [turn_real]
  rw [thirdRow_real, thirdRow_real]
  dsimp only
  congr 1
  · linear_combination 2 * (q.x * q.z - q.w * q.y) * Real.sin_sq_add_cos_sq (θ / 2)
  · congr 1
    linear_combination 2 * (q.y * q.z + q.w * q.x) * Real.sin_sq_add_cos_sq (θ / 2)

theorem conjugate_yaw (θ : ℝ) : quatConjugate (yaw θ) = yaw (-θ) := by
  rw [yaw_real, yaw_real, neg_div, Real.cos_neg, Real.sin_neg]
  show (⟨Real.cos (θ / 2), -0, -0, -Real.sin (θ / 2)⟩ : Quat ℝ) = _
  rw [neg_zero]

/-- The anchor orientation: the columns of the reference, turned back by the heading of the base. -/
theorem anchor_real {b r : Quat ℝ} (hr : r.Unit) : headingRelativeAnchor6d b r =
    [(Complex.exp (-b.direction.arg * Complex.I) * r.column₀).re, (Complex.exp (-b.direction.arg * Complex.I) * r.column₁).re,
     (Complex.exp (-b.direction.arg * Complex.I) * r.column₀).im, (Complex.exp (-b.direction.arg * Complex.I) * r.column₁).im] ++
      r.thirdRow := by
  have hturn : quatMul (quatConjugate (calcHeadingQuat b)) r = r.turn (-b.direction.arg) := by
    unfold calcHeadingQuat turn
    rw [conjugate_yaw, calcHeading_real]
  unfold headingRelativeAnchor6d
  rw [hturn, rotation6d_real, quatUnit_unit (turn_unit _ hr), column₀_turn _ hr, column₁_turn _ hr, thirdRow_turn,
    Complex.ofReal_neg]
  exact List.map_id _

theorem Quat.Upright.turn {q : Quat ℝ} (h : q.Upright) (θ : ℝ) :
    (q.turn θ).direction = Complex.exp (θ * Complex.I) * q.direction := by
  rw [direction_unit (turn_unit θ h.unit), direction_unit h.unit, column₀_turn θ h.unit]

/-- The heading of a base that is turned. -/
theorem exp_heading_turn {b : Quat ℝ} (hb : b.Upright) (θ : ℝ) : Complex.exp ((b.turn θ).direction.arg * Complex.I) =
    Complex.exp (θ * Complex.I) * Complex.exp (b.direction.arg * Complex.I) := by
  have hnorm : ‖(b.turn θ).direction‖ = ‖b.direction‖ := by
    rw [hb.turn, norm_mul, Complex.norm_exp_ofReal_mul_I, one_mul]
  have hne : (‖b.direction‖ : ℂ) ≠ 0 := Complex.ofReal_ne_zero.mpr (norm_ne_zero_iff.mpr hb.heading)
  refine mul_left_cancel₀ hne ?_
  calc (‖b.direction‖ : ℂ) * Complex.exp ((b.turn θ).direction.arg * Complex.I)
    _ = (b.turn θ).direction := by rw [← hnorm, Complex.norm_mul_exp_arg_mul_I]
    _ = Complex.exp (θ * Complex.I) * (‖b.direction‖ * Complex.exp (b.direction.arg * Complex.I)) := by
      rw [Complex.norm_mul_exp_arg_mul_I, hb.turn]
    _ = ‖b.direction‖ * (Complex.exp (θ * Complex.I) * Complex.exp (b.direction.arg * Complex.I)) := mul_left_comm _ _ _

theorem anchor_turn {b r : Quat ℝ} (hb : b.Upright) (hr : r.Unit) (θ : ℝ) :
    headingRelativeAnchor6d (b.turn θ) (r.turn θ) = headingRelativeAnchor6d b r := by
  have hback : Complex.exp (-(b.turn θ).direction.arg * Complex.I) * Complex.exp (θ * Complex.I) =
      Complex.exp (-b.direction.arg * Complex.I) := by
    rw [neg_mul, neg_mul, Complex.exp_neg, Complex.exp_neg, exp_heading_turn hb, mul_inv, mul_comm, ← mul_assoc,
      mul_inv_cancel₀ (Complex.exp_ne_zero _), one_mul]
  rw [anchor_real (turn_unit θ hr), anchor_real hr, column₀_turn θ hr, column₁_turn θ hr, thirdRow_turn, ← mul_assoc, ← mul_assoc,
    hback]

theorem anchor_neg_base (b r : Quat ℝ) : headingRelativeAnchor6d b.neg r = headingRelativeAnchor6d b r := by
  unfold headingRelativeAnchor6d calcHeadingQuat
  rw [calcHeading_real, calcHeading_real, direction_neg]

theorem anchor_neg_reference (b r : Quat ℝ) : headingRelativeAnchor6d b r.neg = headingRelativeAnchor6d b r := by
  have hmul : ∀ a : Quat ℝ, quatMul a r.neg = (quatMul a r).neg := by
    intro a
    refine Quat.ext ?_ ?_ ?_ ?_
    · show a.w * -r.w - a.x * -r.x - a.y * -r.y - a.z * -r.z = -(a.w * r.w - a.x * r.x - a.y * r.y - a.z * r.z)
      ring
    · show a.w * -r.x + a.x * -r.w + a.y * -r.z - a.z * -r.y = -(a.w * r.x + a.x * r.w + a.y * r.z - a.z * r.y)
      ring
    · show a.w * -r.y - a.x * -r.z + a.y * -r.w + a.z * -r.x = -(a.w * r.y - a.x * r.z + a.y * r.w + a.z * r.x)
      ring
    · show a.w * -r.z + a.x * -r.y - a.y * -r.x + a.z * -r.w = -(a.w * r.z + a.x * r.y - a.y * r.x + a.z * r.w)
      ring
  unfold headingRelativeAnchor6d
  rw [hmul, rotation6d_neg]

/-! ### The episode -/

/-- A row of a quaternion, turned. -/
noncomputable def turnQuat (θ : ℝ) : List ℝ → List ℝ
  | [w, x, y, z] => (Quat.turn θ ⟨w, x, y, z⟩).toRow
  | row => row

/-- A row of a position, turned. -/
noncomputable def turnPos (θ : ℝ) : List ℝ → List ℝ
  | [x, y, z] => [(quatRotate (yaw θ) ⟨x, y, z⟩).x, (quatRotate (yaw θ) ⟨x, y, z⟩).y, (quatRotate (yaw θ) ⟨x, y, z⟩).z]
  | row => row

/-- Some of the rows, negated. -/
def flipRows (flips : Nat → Bool) (rows : List (List ℝ)) : List (List ℝ) :=
  rows.mapIdx fun i row => if flips i then row.map (- ·) else row

namespace CanonicalEpisode

/-- The whole episode, turned about the vertical. -/
noncomputable def turn (θ : ℝ) (e : CanonicalEpisode ℝ) : CanonicalEpisode ℝ :=
  { e with bodyQuatWxyz := e.bodyQuatWxyz.map (turnQuat θ), bodyPos := e.bodyPos.map (turnPos θ) }

def flip (flips : Nat → Bool) (e : CanonicalEpisode ℝ) : CanonicalEpisode ℝ :=
  { e with bodyQuatWxyz := flipRows flips e.bodyQuatWxyz }

end CanonicalEpisode

/-- A row of a unit quaternion with a heading. -/
def UprightRow (row : List ℝ) : Prop := row.length = 4 ∧ (Quat.ofRow row).Upright

section
variable {e : CanonicalEpisode ℝ} {quat pos reference : List (List ℝ)} {policy : OrientationPolicy}
  {base base' : Option (List (List ℝ))} {layout : EncoderLayout}

theorem turnQuat_length (θ : ℝ) (row : List ℝ) : (turnQuat θ row).length = row.length := by
  unfold turnQuat
  split <;> rfl

theorem turnPos_length (θ : ℝ) (row : List ℝ) : (turnPos θ row).length = row.length := by
  unfold turnPos
  split <;> rfl

theorem flipRows_lengths (flips : Nat → Bool) (rows : List (List ℝ)) :
    (flipRows flips rows).map List.length = rows.map List.length := by
  refine List.ext_getElem (by simp [flipRows]) fun i hi hi' => ?_
  simp only [flipRows, List.getElem_map, List.getElem_mapIdx]
  split
  · exact List.length_map _
  · rfl

theorem map_lengths {f : List ℝ → List ℝ} (hf : ∀ row, (f row).length = row.length) (rows : List (List ℝ)) :
    (rows.map f).map List.length = rows.map List.length := by
  rw [List.map_map]
  exact List.map_congr_left fun row _ => hf row

theorem hasShape_lengths {rows rows' : List (List ℝ)} (h : rows'.map List.length = rows.map List.length) (frames width : Nat) :
    hasShape rows' frames width = hasShape rows frames width := by
  have hall : ∀ l : List (List ℝ), l.all (fun row => row.length = width) = (l.map List.length).all (fun n => n = width) :=
    fun l => by rw [List.all_map]; rfl
  have hlength : rows'.length = rows.length := by simpa using congrArg List.length h
  unfold hasShape
  rw [hall, hall, h, hlength]

theorem forM_congr {α : Type} {f : α → Except SchemaError Unit} {l l' : List α} (h : l'.map f = l.map f) : l'.forM f = l.forM f := by
  induction l generalizing l' with
  | nil =>
    obtain rfl : l' = [] := List.map_eq_nil_iff.mp h
    rfl
  | cons a l ih =>
    obtain ⟨b, rest, rfl, hb, hrest⟩ := List.map_eq_cons_iff.mp h
    show (f b >>= fun _ => rest.forM f) = (f a >>= fun _ => l.forM f)
    rw [hb, ih hrest]

/-- Over the reals, only the shapes of the arrays are checked. -/
theorem validate_with (hquat : quat.map List.length = e.bodyQuatWxyz.map List.length)
    (hpos : pos.map List.length = e.bodyPos.map List.length) :
    CanonicalEpisode.validate { e with bodyQuatWxyz := quat, bodyPos := pos } = e.validate := by
  have hfinite : ∀ rows : List (List ℝ), finiteRows rows = true := by
    intro rows
    simp [finiteRows, Scalar.isFinite]
  have hfield : ∀ {rows rows' : List (List ℝ)} (name : String) (width : Nat), rows'.map List.length = rows.map List.length →
      CanonicalEpisode.validateField e.timestamps.length (name, rows', width) =
        CanonicalEpisode.validateField e.timestamps.length (name, rows, width) := by
    intro rows rows' name width h
    unfold CanonicalEpisode.validateField
    dsimp only
    rw [hasShape_lengths h, hfinite, hfinite]
  have hfields : (CanonicalEpisode.expected { e with bodyQuatWxyz := quat, bodyPos := pos }).map
      (CanonicalEpisode.validateField e.timestamps.length) = e.expected.map (CanonicalEpisode.validateField e.timestamps.length) := by
    unfold CanonicalEpisode.expected
    simp only [List.map_cons, List.map_nil, hfield "body_quat_wxyz" 4 hquat, hfield "body_pos" 3 hpos]
  unfold CanonicalEpisode.validate
  dsimp only
  rw [forM_congr hfields]

/-- The observation depends on the orientations through their block alone. -/
theorem build_congr {e' : CanonicalEpisode ℝ} (hvalid : e'.validate = e.validate) (htimestamps : e'.timestamps = e.timestamps)
    (hpos : e'.jointPos = e.jointPos) (hvel : e'.jointVel = e.jointVel)
    (hblock : e.validate = .ok () → e.timestamps.length ≠ 0 →
      orientationBlock e'.bodyQuatWxyz ((List.range e.timestamps.length).map (futureRow e.timestamps.length)) policy base' =
      orientationBlock e.bodyQuatWxyz ((List.range e.timestamps.length).map (futureRow e.timestamps.length)) policy base) :
    buildG1EncoderObservation e' policy base' layout = buildG1EncoderObservation e policy base layout := by
  unfold buildG1EncoderObservation futureIndices
  rw [hvalid, htimestamps, hpos, hvel]
  cases hok : e.validate with
  | error d => simp only [bind, Except.bind, Except.mapError]
  | ok u =>
    simp only [bind, Except.bind, Except.mapError]
    by_cases hne : e.timestamps.length = 0
    · rw [if_pos hne]
    · rw [if_neg hne]
      dsimp only
      rw [hblock hok hne]

/-! ### The block -/

theorem futureRow_lt {n i j : Nat} (hn : n ≠ 0) (hj : j ∈ futureRow n i) : j < n := by
  obtain ⟨o, -, rfl⟩ := List.mem_map.mp hj
  omega

theorem anchorRow_congr {b b' : Quat ℝ} {reference' : List (List ℝ)} {js : List Nat}
    (h : ∀ j ∈ js, headingRelativeAnchor6d b' (Quat.ofRow (reference'.getD j [])) =
      headingRelativeAnchor6d b (Quat.ofRow (reference.getD j []))) : anchorRow b' reference' js = anchorRow b reference js := by
  unfold anchorRow
  rw [List.flatMap_def, List.flatMap_def]
  exact congrArg List.flatten (List.map_congr_left h)

theorem orientationBlock_congr {n : Nat} (hn : n ≠ 0) {reference' : List (List ℝ)} (hlength : reference'.length = reference.length)
    (hraw : policy = .legacyRawWorld → ∀ j < n,
      worldQuaternionTo6d (Quat.ofRow (reference'.getD j [])) = worldQuaternionTo6d (Quat.ofRow (reference.getD j [])))
    (hanchor : policy = .referenceRootCurrentFrame → ∀ i < n, ∀ j < n,
      headingRelativeAnchor6d (Quat.ofRow (reference'.getD i [])) (Quat.ofRow (reference'.getD j [])) =
        headingRelativeAnchor6d (Quat.ofRow (reference.getD i [])) (Quat.ofRow (reference.getD j [])))
    (hshape : base'.map (·.map List.length) = base.map (·.map List.length))
    (hmeasured : policy = .measuredBase → ∀ rows rows', base = some rows → base' = some rows' → rows.length = reference.length →
      ∀ i < n, ∀ j < n, headingRelativeAnchor6d (Quat.ofRow (rows'.getD i [])) (Quat.ofRow (reference'.getD j [])) =
        headingRelativeAnchor6d (Quat.ofRow (rows.getD i [])) (Quat.ofRow (reference.getD j []))) :
    orientationBlock reference' ((List.range n).map (futureRow n)) policy base' =
      orientationBlock reference ((List.range n).map (futureRow n)) policy base := by
  unfold orientationBlock
  cases policy with
  | legacyRawWorld =>
    dsimp only
    rw [List.map_map, List.map_map]
    refine congrArg Except.ok (List.map_congr_left fun i _ => ?_)
    dsimp only [Function.comp]
    rw [List.flatMap_def, List.flatMap_def]
    exact congrArg List.flatten (List.map_congr_left fun j hj => hraw rfl j (futureRow_lt hn hj))
  | referenceRootCurrentFrame =>
    dsimp only
    rw [mapIdx_range, mapIdx_range]
    refine congrArg Except.ok (List.map_congr_left fun i hi => anchorRow_congr fun j hj => ?_)
    exact hanchor rfl i (List.mem_range.mp hi) j (futureRow_lt hn hj)
  | measuredBase =>
    cases base with
    | none =>
      obtain rfl : base' = none := Option.map_eq_none_iff.mp hshape
      rfl
    | some rows =>
      obtain ⟨rows', rfl, hrows⟩ := Option.map_eq_some_iff.mp hshape
      have hany : ∀ l : List (List ℝ), l.any (fun row => row.length ≠ 4) = (l.map List.length).any (fun k => k ≠ 4) :=
        fun l => by rw [List.any_map]; rfl
      have hcount : rows'.length = rows.length := by simpa using congrArg List.length hrows
      dsimp only
      rw [hany rows', hany rows, hrows, hcount, hlength, mapIdx_range, mapIdx_range]
      by_cases hbad : rows.length ≠ reference.length ∨ (rows.map List.length).any (fun k => k ≠ 4)
      · rw [if_pos hbad, if_pos hbad]
      · rw [if_neg hbad, if_neg hbad]
        refine congrArg Except.ok (List.map_congr_left fun i hi => anchorRow_congr fun j hj => ?_)
        exact hmeasured rfl rows rows' rfl rfl (not_not.mp (not_or.mp hbad).1) i (List.mem_range.mp hi) j (futureRow_lt hn hj)

theorem ofRow_turn {row : List ℝ} (h : row.length = 4) (θ : ℝ) : Quat.ofRow (turnQuat θ row) = (Quat.ofRow row).turn θ := by
  obtain ⟨w, x, y, z, rfl⟩ : ∃ w x y z, row = [w, x, y, z] := List.length_eq_four.mp h
  rfl

theorem ofRow_neg (row : List ℝ) : Quat.ofRow (row.map (- ·)) = (Quat.ofRow row).neg := by
  have hget : ∀ i, (row.map (- ·)).getD i (Arithmetic.ofRat 0) = -row.getD i (Arithmetic.ofRat 0) := by
    intro i
    have hzero : (Arithmetic.ofRat 0 : ℝ) = 0 := Rat.cast_zero
    rw [hzero, List.getD_eq_getElem?_getD, List.getD_eq_getElem?_getD, List.getElem?_map]
    cases row[i]? with
    | none => exact neg_zero.symm
    | some x => rfl
  unfold Quat.ofRow Quat.neg
  rw [hget, hget, hget, hget]

/-- A row of an episode that is turned. -/
theorem getD_turn (θ : ℝ) {rows : List (List ℝ)} (h : ∀ row ∈ rows, UprightRow row) {i : Nat} (hi : i < rows.length) :
    Quat.ofRow ((rows.map (turnQuat θ)).getD i []) = (Quat.ofRow (rows.getD i [])).turn θ ∧
      (Quat.ofRow (rows.getD i [])).Upright := by
  have hrow : UprightRow (rows.getD i []) := by
    rw [List.getD_eq_getElem _ _ hi]
    exact h _ (List.getElem_mem hi)
  refine ⟨?_, hrow.2⟩
  rw [← ofRow_turn hrow.1 θ, List.getD_eq_getElem?_getD, List.getElem?_map, List.getD_eq_getElem _ _ hi,
    List.getElem?_eq_getElem hi]
  rfl

/-- A row of an episode of which some are negated. -/
theorem getD_flip (flips : Nat → Bool) (rows : List (List ℝ)) (i : Nat) :
    Quat.ofRow ((flipRows flips rows).getD i []) = Quat.ofRow (rows.getD i []) ∨
      Quat.ofRow ((flipRows flips rows).getD i []) = (Quat.ofRow (rows.getD i [])).neg := by
  have hget : (flipRows flips rows).getD i [] = if flips i then (rows.getD i []).map (- ·) else rows.getD i [] := by
    unfold flipRows
    rw [List.getD_eq_getElem?_getD, List.getD_eq_getElem?_getD, List.getElem?_mapIdx]
    cases rows[i]? <;> simp
  rw [hget]
  split
  · exact .inr (ofRow_neg _)
  · exact .inl rfl

theorem anchor_flip (flips flips' : Nat → Bool) (rows reference : List (List ℝ)) (i j : Nat) :
    headingRelativeAnchor6d (Quat.ofRow ((flipRows flips rows).getD i [])) (Quat.ofRow ((flipRows flips' reference).getD j [])) =
      headingRelativeAnchor6d (Quat.ofRow (rows.getD i [])) (Quat.ofRow (reference.getD j [])) := by
  have hbase : ∀ r, headingRelativeAnchor6d (Quat.ofRow ((flipRows flips rows).getD i [])) r =
      headingRelativeAnchor6d (Quat.ofRow (rows.getD i [])) r := by
    intro r
    rcases getD_flip flips rows i with h | h
    · rw [h]
    · rw [h, anchor_neg_base]
  rw [hbase]
  rcases getD_flip flips' reference j with h | h
  · rw [h]
  · rw [h, anchor_neg_reference]

theorem validated_length (h : e.validate = .ok ()) : e.bodyQuatWxyz.length = e.timestamps.length := by
  have hshape := ((CanonicalEpisode.validate_ok.mp h).1 ("body_quat_wxyz", e.bodyQuatWxyz, 4) (by simp [CanonicalEpisode.expected])).1
  unfold hasShape at hshape
  rw [Bool.and_eq_true, decide_eq_true_eq] at hshape
  exact hshape.1

/-- A turned episode and its base, against the episode and a base. -/
theorem build_turn (h : ∀ row ∈ e.bodyQuatWxyz, UprightRow row) (θ : ℝ) (hpolicy : policy ≠ .legacyRawWorld)
    (hshape : base'.map (·.map List.length) = base.map (·.map List.length))
    (hbase : policy = .measuredBase → ∀ rows rows', base = some rows → base' = some rows' →
      rows' = rows.map (turnQuat θ) ∧ ∀ row ∈ rows, UprightRow row) :
    buildG1EncoderObservation (e.turn θ) policy base' layout = buildG1EncoderObservation e policy base layout := by
  have hvalid : (e.turn θ).validate = e.validate :=
    validate_with (map_lengths (turnQuat_length θ) _) (map_lengths (turnPos_length θ) _)
  refine build_congr hvalid rfl rfl rfl fun hok hne => ?_
  have hlength := validated_length hok
  refine orientationBlock_congr hne (List.length_map _) (fun hraw => absurd hraw hpolicy) (fun _ i hi j hj => ?_) hshape
    fun hmeasured rows rows' hrows hrows' hcount i hi j hj => ?_
  · obtain ⟨hturn, hupright⟩ := getD_turn θ h (hlength ▸ hi)
    obtain ⟨hturn', hupright'⟩ := getD_turn θ h (hlength ▸ hj)
    show headingRelativeAnchor6d (Quat.ofRow ((e.bodyQuatWxyz.map (turnQuat θ)).getD i []))
      (Quat.ofRow ((e.bodyQuatWxyz.map (turnQuat θ)).getD j [])) = _
    rw [hturn, hturn', anchor_turn hupright hupright'.unit]
  · obtain ⟨rfl, hall⟩ := hbase hmeasured rows rows' hrows hrows'
    obtain ⟨hturn, hupright⟩ := getD_turn θ hall (hcount ▸ hlength ▸ hi)
    obtain ⟨hturn', hupright'⟩ := getD_turn θ h (hlength ▸ hj)
    show headingRelativeAnchor6d _ (Quat.ofRow ((e.bodyQuatWxyz.map (turnQuat θ)).getD j [])) = _
    rw [hturn, hturn', anchor_turn hupright hupright'.unit]

theorem build_flip (flips baseFlips : Nat → Bool) :
    buildG1EncoderObservation (e.flip flips) policy (base.map (flipRows baseFlips)) layout =
      buildG1EncoderObservation e policy base layout := by
  have hvalid : (e.flip flips).validate = e.validate := validate_with (flipRows_lengths flips _) rfl
  refine build_congr hvalid rfl rfl rfl fun _ hne => ?_
  refine orientationBlock_congr hne ?_ (fun _ j _ => ?_) (fun _ i _ j _ => anchor_flip flips flips _ _ i j) ?_
    fun _ rows rows' hrows hrows' _ i _ j _ => ?_
  · exact List.length_mapIdx
  · rcases getD_flip flips e.bodyQuatWxyz j with hj | hj
    · exact congrArg worldQuaternionTo6d hj
    · refine (congrArg worldQuaternionTo6d hj).trans ?_
      unfold worldQuaternionTo6d
      rw [rotation6d_neg]
  · rw [Option.map_map]
    congr 1
    funext rows
    exact flipRows_lengths baseFlips rows
  · obtain rfl : flipRows baseFlips rows = rows' := by
      rw [hrows] at hrows'
      exact Option.some.inj hrows'
    exact anchor_flip baseFlips flips _ _ i j

/-- With the heading of the reference or of a measured base, the observation does not depend on the yaw of the room; with any
    policy, it does not depend on the signs of the quaternions. -/
theorem heading_invariance (e : CanonicalEpisode ℝ) (layout : EncoderLayout) (h : ∀ row ∈ e.bodyQuatWxyz, UprightRow row) :
    (∀ θ base, buildG1EncoderObservation (e.turn θ) .referenceRootCurrentFrame base layout =
      buildG1EncoderObservation e .referenceRootCurrentFrame base layout) ∧
    (∀ θ base, (∀ row ∈ base, UprightRow row) →
      buildG1EncoderObservation (e.turn θ) .measuredBase (some (base.map (turnQuat θ))) layout =
        buildG1EncoderObservation e .measuredBase (some base) layout) ∧
    ∀ flips baseFlips policy base, buildG1EncoderObservation (e.flip flips) policy (base.map (flipRows baseFlips)) layout =
      buildG1EncoderObservation e policy base layout := by
  refine ⟨fun θ base => ?_, fun θ base hbase => ?_, fun flips baseFlips policy base => build_flip flips baseFlips⟩
  · exact build_turn h θ nofun rfl nofun
  · refine build_turn h θ nofun (congrArg some (map_lengths (turnQuat_length θ) base)) fun _ rows rows' hrows hrows' => ?_
    obtain rfl := Option.some.inj hrows
    obtain rfl := Option.some.inj hrows'
    exact ⟨rfl, hbase⟩

theorem walking_upright (n : Nat) : ∀ row ∈ (walking n).bodyQuatWxyz, UprightRow row := by
  have hupright : ∀ w z : ℝ, w * w + z * z = 1 → 1 - 2 * (z * z) ≠ 0 → UprightRow [w, 0, 0, z] := by
    intro w z hone hheading
    have hunit : (⟨w, 0, 0, z⟩ : Quat ℝ).Unit := by
      unfold Quat.Unit
      linarith
    refine ⟨rfl, hunit, ?_⟩
    show (⟨w, 0, 0, z⟩ : Quat ℝ).direction ≠ 0
    rw [direction_unit hunit]
    intro hzero
    have hre := congrArg Complex.re hzero
    simp [column₀_real] at hre
    exact hheading (by linarith)
  intro row hrow
  obtain ⟨i, -, rfl⟩ := List.mem_map.mp hrow
  split
  · exact hupright 1 0 (by norm_num) (by norm_num)
  · exact hupright 0 1 (by norm_num) (by norm_num)

/-- The observation of an episode whose heading alternates is that of the episode in a room that is turned round. -/
theorem heading_invariance_walking : ∃ built,
    buildG1EncoderObservation (walking 50) .referenceRootCurrentFrame none pinnedLayout = .ok built ∧
    buildG1EncoderObservation ((walking 50).turn Real.pi) .referenceRootCurrentFrame none pinnedLayout = .ok built ∧
    ∀ flips, buildG1EncoderObservation ((walking 50).flip flips) .referenceRootCurrentFrame none pinnedLayout = .ok built := by
  have hbuild := build_walking (n := 50) (by decide) .referenceRootCurrentFrame (by decide)
  obtain ⟨hturn, -, hflip⟩ := heading_invariance (walking 50) pinnedLayout (walking_upright 50)
  exact ⟨_, hbuild, (hturn Real.pi none).trans hbuild, fun flips => (hflip flips flips _ none).trans hbuild⟩

theorem splice_block {offset : Nat} {block row : List ℝ} (h : offset ≤ row.length) :
    ((splice offset block row).drop offset).take block.length = block := by
  have hlength : (row.take offset).length = offset := List.length_take_of_le h
  unfold splice
  rw [List.append_assoc, List.drop_left' hlength, List.take_left']
  rfl

/-- The orientation of a row is in its place in the observation. -/
theorem observationRow_orientation (hobs : Observable e policy base layout) {i : Nat} (hi : i < e.timestamps.length) :
    ((observationRow e policy base layout i).drop (layout.offset "motion_anchor_orientation_heading_10frame_step5")).take
      (orientationRow e policy base i).length = orientationRow e policy base i := by
  have hfit := g1Blocks_fit hobs hi
  have hlength : (((g1Blocks e policy base i).take 3).foldl (fun row b => splice (layout.offset b.1) b.2 row)
      (List.replicate encoderInputDim (Arithmetic.ofRat 0))).length = (List.replicate encoderInputDim (Arithmetic.ofRat 0 : ℝ)).length :=
    (foldl_splice fun b hb => hfit b (List.mem_of_mem_take hb)).1
  have hlast := hfit ("motion_anchor_orientation_heading_10frame_step5", orientationRow e policy base i) (by simp [g1Blocks])
  rw [← hlength] at hlast
  exact splice_block (Nat.le_of_add_right_le hlast)

/-- The raw world orientation is what the heading takes away: it turns with the room. -/
theorem heading_raw_world : (∀ row ∈ standing.bodyQuatWxyz, UprightRow row) ∧
    buildG1EncoderObservation (standing.turn Real.pi) .legacyRawWorld none pinnedLayout ≠
      buildG1EncoderObservation standing .legacyRawWorld none pinnedLayout := by
  refine ⟨walking_upright 1, fun heq => ?_⟩
  have hbuild := build_standing .legacyRawWorld (by decide)
  obtain ⟨hobs, -, -, -⟩ := observation_ok.mp hbuild
  rw [← heq] at hbuild
  obtain ⟨hobs', hrows, -, -⟩ := observation_ok.mp hbuild
  have hrow : observationRow standing .legacyRawWorld none pinnedLayout 0 =
      observationRow (standing.turn Real.pi) .legacyRawWorld none pinnedLayout 0 := List.head_eq_of_cons_eq hrows
  have horientation : orientationRow standing .legacyRawWorld none 0 = orientationRow (standing.turn Real.pi) .legacyRawWorld none 0 := by
    have hplace := observationRow_orientation hobs Nat.zero_lt_one
    have hplace' := observationRow_orientation hobs' (i := 0) Nat.zero_lt_one
    rw [hrow] at hplace
    exact hplace.symm.trans hplace'
  have hunit : (Quat.ofRow ([1, 0, 0, 0] : List ℝ)).Unit := (walking_upright 1 _ List.mem_cons_self).2.unit
  have hcolumn : ∀ q : Quat ℝ, q.Unit → (worldQuaternionTo6d q).head? = some q.column₀.re := by
    intro q hq
    unfold worldQuaternionTo6d
    rw [rotation6d_real, quatUnit_unit hq]
    rfl
  have hhead : ∀ e : CanonicalEpisode ℝ, e.timestamps.length = 1 → (orientationRow e .legacyRawWorld none 0).head? =
      (worldQuaternionTo6d (Quat.ofRow (e.bodyQuatWxyz.getD 0 []))).head? := by
    intro e hframe
    unfold orientationRow
    rw [hframe]
    rfl
  have hfirst : (worldQuaternionTo6d (Quat.ofRow [1, 0, 0, 0])).head? =
      (worldQuaternionTo6d ((Quat.ofRow [1, 0, 0, 0]).turn Real.pi)).head? :=
    (hhead standing rfl).symm.trans ((congrArg List.head? horientation).trans (hhead (standing.turn Real.pi) rfl))
  rw [hcolumn _ hunit, hcolumn _ (turn_unit _ hunit), column₀_turn _ hunit, Complex.exp_pi_mul_I] at hfirst
  simp [column₀_real, Quat.ofRow] at hfirst
  norm_num at hfirst

end

end HumanoidLab
