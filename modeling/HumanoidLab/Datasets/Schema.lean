import Mathlib.Data.Rat.Lemmas

/-! The canonical episode of the dataset tools (`datasets/sonic/schema.py`). An array is a list of rows. -/

namespace HumanoidLab

/-- The float type of the entries of an array. -/
class Scalar (K : Type) where
  isFinite : K → Bool
  /-- `b - a > 0`. -/
  after : K → K → Bool
  toFloat32 : K → K

/-- Exact numbers. -/
instance : Scalar ℚ where
  isFinite _ := true
  after a b := a < b
  toFloat32 x := x

def bodyDim : Nat := 29
def dex3Dim : Nat := 7
def sonicTokenDim : Nat := 64
def trainingActionDim : Nat := 78

inductive SchemaError
  | shape (field : String)
  | notFinite (field : String)
  | timestamps
  | notIncreasing
  | component
  | action
  deriving DecidableEq, Repr

structure CanonicalEpisode (K : Type) where
  timestamps : List K
  jointPos : List (List K)
  jointVel : List (List K)
  bodyQuatWxyz : List (List K)
  bodyPos : List (List K)
  leftHandJoints : List (List K)
  rightHandJoints : List (List K)
  deriving DecidableEq

section
variable {K : Type} [Scalar K]

/-- The rows of a two-dimensional array of a shape. -/
def hasShape (rows : List (List K)) (frames width : Nat) : Bool := rows.length = frames && rows.all (·.length = width)

def finiteRows (rows : List (List K)) : Bool := rows.all (·.all Scalar.isFinite)

theorem finiteRows_all (h : ∀ x : K, Scalar.isFinite x = true) (rows : List (List K)) : finiteRows rows = true :=
  List.all_eq_true.mpr fun _ _ => List.all_eq_true.mpr fun x _ => h x

/-- `np.diff(ts) > 0` throughout. -/
def increasing (ts : List K) : Bool := (ts.zip ts.tail).all fun (a, b) => Scalar.after a b

/-- What holds of each entry and the next one. -/
theorem all_zip_tail {K : Type} {p : K × K → Bool} {ts : List K} :
    (ts.zip ts.tail).all p = true ↔ ts.IsChain fun a b => p (a, b) = true := by
  induction ts with
  | nil => simp
  | cons a rest ih =>
    cases rest with
    | nil => simp
    | cons b rest =>
      rw [List.isChain_cons_cons, ← ih]
      simp

theorem increasing_iff {ts : List K} : increasing ts = true ↔ ts.IsChain fun a b => Scalar.after a b = true := all_zip_tail

namespace CanonicalEpisode

/-- The fields with the widths that are expected of them. -/
def expected (e : CanonicalEpisode K) : List (String × List (List K) × Nat) :=
  [("joint_pos", e.jointPos, bodyDim), ("joint_vel", e.jointVel, bodyDim), ("body_quat_wxyz", e.bodyQuatWxyz, 4),
   ("body_pos", e.bodyPos, 3), ("left_hand_joints", e.leftHandJoints, dex3Dim), ("right_hand_joints", e.rightHandJoints, dex3Dim)]

def validateField (frames : Nat) : String × List (List K) × Nat → Except SchemaError Unit
  | (name, rows, width) =>
    if !hasShape rows frames width then .error (.shape name)
    else if !finiteRows rows then .error (.notFinite name)
    else .ok ()

def validate (e : CanonicalEpisode K) : Except SchemaError Unit := do
  e.expected.forM (validateField e.timestamps.length)
  if e.timestamps = [] ∨ !e.timestamps.all Scalar.isFinite then .error .timestamps
  else if !increasing e.timestamps then .error .notIncreasing
  else .ok ()

theorem validateField_ok {frames width : Nat} {name : String} {rows : List (List K)} :
    validateField frames (name, rows, width) = .ok () ↔ hasShape rows frames width = true ∧ finiteRows rows = true := by
  unfold validateField
  cases hshape : hasShape rows frames width <;> cases hfinite : finiteRows rows <;> simp [hshape, hfinite]

theorem validate_ok {e : CanonicalEpisode K} : e.validate = .ok () ↔
    (∀ f ∈ e.expected, hasShape f.2.1 e.timestamps.length f.2.2 = true ∧ finiteRows f.2.1 = true) ∧
      e.timestamps ≠ [] ∧ e.timestamps.all Scalar.isFinite = true ∧ increasing e.timestamps = true := by
  have hforM : ∀ fields : List (String × List (List K) × Nat), fields.forM (validateField e.timestamps.length) = .ok () ↔
      ∀ f ∈ fields, hasShape f.2.1 e.timestamps.length f.2.2 = true ∧ finiteRows f.2.1 = true := by
    intro fields
    induction fields with
    | nil => simp [pure, Except.pure]
    | cons f fields ih =>
      obtain ⟨name, rows, width⟩ := f
      have hhead : validateField e.timestamps.length (name, rows, width) = .ok () ↔ _ := validateField_ok
      rw [List.forall_mem_cons, ← ih, ← hhead]
      show (validateField e.timestamps.length (name, rows, width) >>= fun _ => fields.forM (validateField e.timestamps.length)) =
        .ok () ↔ _
      cases hfield : validateField e.timestamps.length (name, rows, width) <;> simp [bind, Except.bind]
  unfold validate
  rw [← hforM]
  cases hfields : e.expected.forM (validateField e.timestamps.length) with
  | error d => simp [bind, Except.bind]
  | ok u =>
    simp only [bind, Except.bind, true_and]
    by_cases hne : e.timestamps = []
    · simp [hne]
    · cases hfinite : e.timestamps.all Scalar.isFinite <;> cases hincreasing : increasing e.timestamps <;> simp [hne]

end CanonicalEpisode

/-- `compose_action`: the token and the hands of each row, as float32. -/
def composeAction (motionToken left right : List (List K)) : Except SchemaError (List (List K)) :=
  if !(motionToken.all (·.length = sonicTokenDim) && left.all (·.length = dex3Dim) && right.all (·.length = dex3Dim)) then
    .error .component
  else if ¬(left.length = motionToken.length ∧ right.length = motionToken.length) then .error .component
  else
    let result := List.zipWith (· ++ ·) motionToken (List.zipWith (· ++ ·) left right) |>.map (·.map Scalar.toFloat32)
    if !finiteRows result then .error .action else .ok result

end

end HumanoidLab
