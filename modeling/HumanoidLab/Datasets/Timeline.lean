import HumanoidLab.Controllers.Providers
import HumanoidLab.Datasets.Schema
import Mathlib.Data.Rat.Cast.OfScientific
import Mathlib.Data.Rat.Floor

/-! Resampling onto a uniform timeline (`datasets/sonic/timeline.py`), and the reference of an arm-only collection that it
    completes (`compose_unitree_static_completion` of `datasets/sonic/reference.py`), in exact arithmetic. -/

namespace HumanoidLab

/-- `PROCESSED_FPS`. -/
def processedFps : ℚ := 50

inductive TimelineError
  | timestamps
  | values
  | noChannel
  | noSample
  | armWidth
  | standing
  | schema (e : SchemaError)
  deriving DecidableEq, Repr

/-- A two-dimensional array. -/
structure Array2 where
  columns : Nat
  rows : List (List ℚ)
  width : ∀ row ∈ rows, row.length = columns

def Array2.column (a : Array2) (c : Nat) : List ℚ := a.rows.map (·.getD c 0)

def uniformTimeline (timestamps : List ℚ) (fps : ℚ) : Except TimelineError (List ℚ) :=
  match timestamps.head?, timestamps.getLast? with
  | some first, some last =>
    if !increasing timestamps then .error .timestamps
    else
      let count := ⌊(last - first) * fps + 1e-9⌋ + 1
      .ok ((List.range count.toNat).map fun (i : Nat) => first + i / fps)
  | _, _ => .error .timestamps

/-- `np.interp`: between the samples around a target, and the first or the last one beyond them. -/
def interp (xs ys : List ℚ) (x : ℚ) : ℚ :=
  let k := xs.findIdx (x < ·)
  if k = 0 then ys.getD 0 0
  else if k = xs.length then ys.getD (k - 1) 0
  else (ys.getD k 0 - ys.getD (k - 1) 0) / (xs.getD k 0 - xs.getD (k - 1) 0) * (x - xs.getD (k - 1) 0) + ys.getD (k - 1) 0

/-- `linear_resample`, with the cast to the type of the values. -/
def linearResample (cast : ℚ → ℚ) (timestamps : List ℚ) (values : Array2) (target : List ℚ) :
    Except TimelineError (List (List ℚ)) :=
  if values.rows.length ≠ timestamps.length then .error .values
  else if values.columns = 0 then .error .noChannel
  else if timestamps = [] then .error .noSample
  else .ok (target.map fun x => (List.range values.columns).map fun c => cast (interp timestamps (values.column c) x))

/-- The velocity of each row to the next one; the last row keeps that of the one before it. -/
def finiteDifference (positions : List (List ℚ)) (fps : ℚ) : List (List ℚ) :=
  let velocity := List.zipWith (List.zipWith fun a b => (b - a) * fps) positions positions.tail
  match velocity.getLast? with
  | none => positions.map (·.map fun _ => 0)
  | some last => velocity ++ [last]

/-! ### The static completion -/

/-- `SONIC_REFERENCE_JOINT_ORDER`. -/
def sonicReferenceJointOrder : List String :=
  ["left_hip_pitch_joint", "right_hip_pitch_joint", "waist_yaw_joint", "left_hip_roll_joint", "right_hip_roll_joint",
   "waist_roll_joint", "left_hip_yaw_joint", "right_hip_yaw_joint", "waist_pitch_joint", "left_knee_joint", "right_knee_joint",
   "left_shoulder_pitch_joint", "right_shoulder_pitch_joint", "left_ankle_pitch_joint", "right_ankle_pitch_joint",
   "left_shoulder_roll_joint", "right_shoulder_roll_joint", "left_ankle_roll_joint", "right_ankle_roll_joint",
   "left_shoulder_yaw_joint", "right_shoulder_yaw_joint", "left_elbow_joint", "right_elbow_joint", "left_wrist_roll_joint",
   "right_wrist_roll_joint", "left_wrist_pitch_joint", "right_wrist_pitch_joint", "left_wrist_yaw_joint",
   "right_wrist_yaw_joint"]

/-- `ARM_NAMES`. -/
def armNames : List String :=
  ["left_shoulder_pitch_joint", "left_shoulder_roll_joint", "left_shoulder_yaw_joint", "left_elbow_joint",
   "left_wrist_roll_joint", "left_wrist_pitch_joint", "left_wrist_yaw_joint", "right_shoulder_pitch_joint",
   "right_shoulder_roll_joint", "right_shoulder_yaw_joint", "right_elbow_joint", "right_wrist_roll_joint",
   "right_wrist_pitch_joint", "right_wrist_yaw_joint"]

def armIds : List Nat := armNames.map sonicReferenceJointOrder.idxOf

structure StandingPose where
  jointPos : List ℚ
  bodyPos : List ℚ
  bodyQuatWxyz : List ℚ

/-- `joint_pos[:, arm_ids] = arms`, for one row. -/
def setArms (row arms : List ℚ) : List ℚ := (armIds.zip arms).foldl (fun row (i, x) => row.set i x) row

/-- The recorded columns of an episode, with the cast to the type of each. -/
structure SourceChannels where
  values : Array2
  cast : ℚ → ℚ

/-- The arms have a column for each of their names. -/
def requireArms (arms : Array2) : Except TimelineError Unit :=
  if arms.columns = armNames.length then .ok () else .error .armWidth

/-- The pose has a place for each arm joint. -/
def requireJoints (standing : StandingPose) : Except TimelineError Unit :=
  if armIds.all (· < standing.jointPos.length) then .ok () else .error .standing

def composeUnitreeStaticCompletion (float32 : ℚ → ℚ) (timestamps : List ℚ) (arms leftHand rightHand : SourceChannels)
    (standing : StandingPose) : Except TimelineError (CanonicalEpisode ℚ) := do
  requireArms arms.values
  let target ← uniformTimeline timestamps processedFps
  requireJoints standing
  let resampled ← linearResample arms.cast timestamps arms.values target
  let jointPos := resampled.map (setArms standing.jointPos)
  let leftHandJoints ← linearResample leftHand.cast timestamps leftHand.values target
  let rightHandJoints ← linearResample rightHand.cast timestamps rightHand.values target
  let episode : CanonicalEpisode ℚ := {
    timestamps := target
    jointPos := jointPos.map (·.map float32)
    jointVel := (finiteDifference jointPos processedFps).map (·.map float32)
    bodyQuatWxyz := List.replicate target.length (standing.bodyQuatWxyz.map float32)
    bodyPos := List.replicate target.length (standing.bodyPos.map float32)
    leftHandJoints
    rightHandJoints }
  episode.validate.mapError TimelineError.schema
  return episode

end HumanoidLab
