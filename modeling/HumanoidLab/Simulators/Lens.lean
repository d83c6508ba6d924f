import HumanoidLab.Datasets.Heading
import HumanoidLab.Lib.Bisection

/-! The lens of the head camera (`simulators/isaac/lens.py`): the radial model, its inverse by bisection, and the sample positions of the
    output pixels in the rendered image. -/

namespace HumanoidLab
open Bisection

variable {K : Type} [Arithmetic K]
open Arithmetic

/-- `_undistorted_radius`. -/
def undistortedRadius (rD k1 k2 : K) : K :=
  let r2 := rD * rD
  rD * (ofRat 1 + k1 * r2 + k2 * r2 * r2)

/-- `0.5 * (lo + hi)`. -/
def half (lo hi : K) : K := ofRat 0.5 * (lo + hi)

/-- `max`. -/
def larger (a b : K) : K := if lt a b then b else a

/-- `distorted_radius`. -/
def distortedRadius (rU k1 k2 : K) : K :=
  found half (fun mid => lt (undistortedRadius mid k1 k2) rU) 100 (ofRat 0, larger rU (ofRat 1e-9))

/-- `math.hypot`. -/
def hypot (x y : K) : K := sqrt (x * x + y * y)

structure LensModel (K : Type) where
  width : Nat
  height : Nat
  renderWidth : Nat
  renderHeight : Nat
  renderFocalPx : K
  outputFocalPx : K
  k1 : K
  k2 : K

namespace LensModel

/-- `build`; the output focal length puts the output corner at the rendered corner. -/
def build (width height renderWidth renderHeight : Nat) (focalLengthMm horizontalApertureMm k1 k2 : K) : LensModel K :=
  let renderFocal := ofRat renderWidth * focalLengthMm / horizontalApertureMm
  let cornerU := hypot (ofRat renderWidth / ofRat 2) (ofRat renderHeight / ofRat 2) / renderFocal
  let cornerD := distortedRadius cornerU k1 k2
  let outputFocal := hypot (ofRat width / ofRat 2) (ofRat height / ofRat 2) / cornerD
  ⟨width, height, renderWidth, renderHeight, renderFocal, outputFocal, k1, k2⟩

variable (lens : LensModel K)

/-- The normalised coordinate of the centre of a column, and of a row. -/
def u (column : Nat) : K := (ofRat column + ofRat 0.5 - ofRat lens.width / ofRat 2) / lens.outputFocalPx

def v (row : Nat) : K := (ofRat row + ofRat 0.5 - ofRat lens.height / ofRat 2) / lens.outputFocalPx

/-- The sample position of a point of the output image. -/
def sampleAt (xd yd : K) : K × K :=
  let r2 := xd * xd + yd * yd
  let scale := ofRat 1 + lens.k1 * r2 + lens.k2 * r2 * r2
  (xd * scale * lens.renderFocalPx + ofRat lens.renderWidth / ofRat 2 - ofRat 0.5,
    yd * scale * lens.renderFocalPx + ofRat lens.renderHeight / ofRat 2 - ofRat 0.5)

/-- `maps`: the rows of both maps. -/
def maps : List (List K) × List (List K) :=
  let samples := (List.range lens.height).map fun row =>
    (List.range lens.width).map fun column => lens.sampleAt (lens.u column) (lens.v row)
  (samples.map fun row => row.map fun sample => Scalar.toFloat32 sample.1,
    samples.map fun row => row.map fun sample => Scalar.toFloat32 sample.2)

/-- `project`. -/
def project (xU yU : K) : K × K :=
  let rU := hypot xU yU
  let factor := if !lt (ofRat 0) rU && !lt rU (ofRat 0) then ofRat 1 else distortedRadius rU lens.k1 lens.k2 / rU
  (xU * factor * lens.outputFocalPx + ofRat lens.width / ofRat 2, yU * factor * lens.outputFocalPx + ofRat lens.height / ofRat 2)

end LensModel
end HumanoidLab
