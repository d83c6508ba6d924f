import HumanoidLab.Datasets.Schema
import Mathlib.Analysis.SpecialFunctions.Complex.Arg

/-! The heading of a quaternion and the orientation relative to it (`datasets/sonic/heading.py`), over any arithmetic with
    elementary functions. -/

namespace HumanoidLab

/-- A float type with the functions that the heading needs. -/
class Arithmetic (K : Type) extends Scalar K, Add K, Sub K, Mul K, Div K, Neg K where
  ofRat : ℚ → K
  lt : K → K → Bool
  sqrt : K → K
  sin : K → K
  cos : K → K
  arctan2 : K → K → K

/-- The exact reals, without rounding. -/
noncomputable instance : Arithmetic ℝ where
  isFinite _ := true
  after a b := decide (a < b)
  toFloat32 x := x
  ofRat q := q
  lt a b := decide (a < b)
  sqrt := Real.sqrt
  sin := Real.sin
  cos := Real.cos
  arctan2 y x := Complex.arg ⟨x, y⟩

/-- A quaternion in wxyz order. -/
@[ext]
structure Quat (K : Type) where
  w : K
  x : K
  y : K
  z : K

/-- A vector. -/
structure Vec3 (K : Type) where
  x : K
  y : K
  z : K

section
variable {K : Type} [Arithmetic K]
open Arithmetic

/-- A row of four numbers as a quaternion. -/
def Quat.ofRow (row : List K) : Quat K :=
  ⟨row.getD 0 (ofRat 0), row.getD 1 (ofRat 0), row.getD 2 (ofRat 0), row.getD 3 (ofRat 0)⟩

def Quat.toRow (q : Quat K) : List K := [q.w, q.x, q.y, q.z]

def Quat.norm (q : Quat K) : K := sqrt (q.w * q.w + q.x * q.x + q.y * q.y + q.z * q.z)

def quatUnit (q : Quat K) : Quat K :=
  if lt (ofRat 1e-12) q.norm then ⟨q.w / q.norm, q.x / q.norm, q.y / q.norm, q.z / q.norm⟩
  else ⟨ofRat 0, ofRat 0, ofRat 0, ofRat 0⟩

def quatMul (a b : Quat K) : Quat K :=
  ⟨a.w * b.w - a.x * b.x - a.y * b.y - a.z * b.z, a.w * b.x + a.x * b.w + a.y * b.z - a.z * b.y,
   a.w * b.y - a.x * b.z + a.y * b.w + a.z * b.x, a.w * b.z + a.x * b.y - a.y * b.x + a.z * b.w⟩

def quatConjugate (q : Quat K) : Quat K := ⟨q.w, -q.x, -q.y, -q.z⟩

def quatRotate (q : Quat K) (v : Vec3 K) : Vec3 K :=
  let scale := ofRat 2 * q.w * q.w - ofRat 1
  let dot := q.x * v.x + q.y * v.y + q.z * v.z
  ⟨v.x * scale + ofRat 2 * q.w * (q.y * v.z - q.z * v.y) + ofRat 2 * q.x * dot,
   v.y * scale + ofRat 2 * q.w * (q.z * v.x - q.x * v.z) + ofRat 2 * q.y * dot,
   v.z * scale + ofRat 2 * q.w * (q.x * v.y - q.y * v.x) + ofRat 2 * q.z * dot⟩

def quatFromAngleAxis (angle : K) (axis : Vec3 K) : Quat K :=
  let norm := sqrt (axis.x * axis.x + axis.y * axis.y + axis.z * axis.z)
  let theta := angle / ofRat 2
  quatUnit ⟨cos theta, sin theta * (axis.x / norm), sin theta * (axis.y / norm), sin theta * (axis.z / norm)⟩

def calcHeading (q : Quat K) : K :=
  let direction := quatRotate q ⟨ofRat 1, ofRat 0, ofRat 0⟩
  arctan2 direction.y direction.x

/-- The rotation about the vertical by an angle. -/
def yaw (angle : K) : Quat K := quatFromAngleAxis angle ⟨ofRat 0, ofRat 0, ofRat 1⟩

def calcHeadingQuat (q : Quat K) : Quat K := yaw (calcHeading q)

/-- The first two columns of the rotation matrix of a quaternion, row by row (`quat_to_rotation_matrix` and
    `rotation_matrix_to_6d`). -/
def rotation6d (q : Quat K) : List K :=
  let u := quatUnit q
  [ofRat 1 - ofRat 2 * (u.y * u.y + u.z * u.z), ofRat 2 * (u.x * u.y - u.w * u.z),
   ofRat 2 * (u.x * u.y + u.w * u.z), ofRat 1 - ofRat 2 * (u.x * u.x + u.z * u.z),
   ofRat 2 * (u.x * u.z - u.w * u.y), ofRat 2 * (u.y * u.z + u.w * u.x)]

def worldQuaternionTo6d (q : Quat K) : List K := (rotation6d q).map Scalar.toFloat32

def headingRelativeAnchor6d (base reference : Quat K) : List K :=
  (rotation6d (quatMul (quatConjugate (calcHeadingQuat base)) reference)).map Scalar.toFloat32

end

end HumanoidLab
