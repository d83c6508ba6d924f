import HumanoidLab.Datasets.Convert
import HumanoidLab.Datasets.Heading

/-! The encoder observation of an episode (`datasets/sonic/encoder_observation.py`): the layout of the input, the look-ahead of
    each row, and the four blocks that the G1 mode fills. -/

namespace HumanoidLab
open Psi0Dex3 (float32 float64)

def encoderInputDim : Nat := 1751
def frameCount : Nat := 10
def frameStep : Nat := 5

/-- `FUTURE_OFFSETS`. -/
def futureOffsets : List Nat := (List.range frameCount).map (· * frameStep)

/-- `PINNED_ENCODER_OBSERVATIONS`. -/
def pinnedEncoderObservations : List (String × Nat) :=
  [("encoder_mode_4", 4), ("motion_joint_positions_10frame_step5", 290), ("motion_joint_velocities_10frame_step5", 290),
   ("motion_anchor_orientation_heading_10frame_step5", 60), ("motion_anchor_orientation_heading", 6),
   ("motion_joint_positions_lowerbody_10frame_step5", 120), ("motion_joint_velocities_lowerbody_10frame_step5", 120),
   ("vr_3point_local_target", 9), ("vr_3point_local_orn_target", 12), ("smpl_joints_10frame_step1", 720),
   ("smpl_anchor_orientation_heading_10frame_step1", 60), ("motion_joint_positions_wrists_10frame_step1", 60)]

/-- `G1_REQUIRED_OBSERVATIONS`. -/
def g1RequiredObservations : List String :=
  ["encoder_mode_4", "motion_joint_positions_10frame_step5", "motion_joint_velocities_10frame_step5",
   "motion_anchor_orientation_heading_10frame_step5"]

def g1ModeId : ℚ := 0

inductive OrientationPolicy
  | referenceRootCurrentFrame
  | measuredBase
  | legacyRawWorld
  deriving DecidableEq, Repr

inductive ObservationError
  | schema (e : SchemaError)
  | layoutDim (total : Nat)
  | notInLayout (name : String)
  | noFrame
  | broadcast (name : String)
  | noBase
  | baseShape
  | notFinite
  deriving DecidableEq, Repr

/-- The enabled observations, each listed once. -/
structure EncoderLayout where
  observations : List (String × Nat)
  once : (observations.map (·.1)).Nodup

namespace EncoderLayout
variable (layout : EncoderLayout)

def totalDim : Nat := (layout.observations.map (·.2)).sum

/-- Where an observation starts: after those before it. -/
def offset (name : String) : Nat := ((layout.observations.takeWhile (·.1 ≠ name)).map (·.2)).sum

def dim (name : String) : Option Nat := layout.observations.lookup name

/-- `output[:, layout.span(name)] = block`. -/
def assign {K : Type} (name : String) (block output : List (List K)) : Except ObservationError (List (List K)) :=
  match layout.dim name with
  | none => .error (.notInLayout name)
  | some width =>
    if block.length ≠ output.length ∨ block.any (·.length ≠ width) then .error (.broadcast name)
    else .ok (List.zipWith (fun b row => row.take (layout.offset name) ++ b ++ row.drop (layout.offset name + width)) block output)

end EncoderLayout

/-- `PINNED_LAYOUT`. -/
def pinnedLayout : EncoderLayout := ⟨pinnedEncoderObservations, by decide⟩

/-- The look-ahead of a row, which stays at the last frame. -/
def futureRow (frames i : Nat) : List Nat := futureOffsets.map fun o => min (i + o) (frames - 1)

/-- How many samples of the look-ahead of a row are beyond the last frame. -/
def clampCount (frames i : Nat) : Nat := futureOffsets.countP fun o => frames ≤ i + o

/-- `np.mean` of the clamped samples. -/
def clampFraction (frames i : Nat) : ℚ := float64 (clampCount frames i / futureOffsets.length)

theorem clampCount_zero {frames i : Nat} : clampCount frames i = 0 ↔ i + 45 < frames := by
  unfold clampCount
  rw [List.countP_eq_zero]
  simp only [decide_eq_true_eq, not_le]
  constructor
  · intro h
    exact h 45 (by decide)
  · intro h o ho
    have hle : ∀ o ∈ futureOffsets, o ≤ 45 := by decide
    exact (Nat.add_le_add_left (hle o ho) i).trans_lt h

/-- The fraction that is written is zero when no sample is clamped. -/
theorem clampFraction_zero {frames i : Nat} : float32 (clampFraction frames i) = 0 ↔ i + 45 < frames := by
  have hcount : clampCount frames i ≤ 10 := List.countP_le_length
  have hzero : ∀ c : Nat, c ≤ 10 → (float32 (float64 (c / (10 : Nat))) = 0 ↔ c = 0) := by decide +kernel
  exact (hzero _ hcount).trans clampCount_zero

def futureIndices (frames : Nat) : Except ObservationError (List (List Nat) × List ℚ) :=
  if frames = 0 then .error .noFrame
  else .ok ((List.range frames).map (futureRow frames), (List.range frames).map (clampFraction frames))

section
variable {K : Type} [Arithmetic K]

/-- `array[indices].reshape(frames, -1)`. -/
def takeRows (array : List (List K)) (indices : List (List Nat)) : List (List K) :=
  indices.map fun row => row.flatMap fun j => array.getD j []

/-- The anchor orientations of a row, relative to a base. -/
def anchorRow (base : Quat K) (reference : List (List K)) (row : List Nat) : List K :=
  row.flatMap fun j => headingRelativeAnchor6d base (Quat.ofRow (reference.getD j []))

def orientationBlock (reference : List (List K)) (indices : List (List Nat)) (policy : OrientationPolicy)
    (baseQuatWxyz : Option (List (List K))) : Except ObservationError (List (List K)) :=
  match policy with
  | .legacyRawWorld =>
    .ok (indices.map fun row => row.flatMap fun j => worldQuaternionTo6d (Quat.ofRow (reference.getD j [])))
  | .measuredBase =>
    match baseQuatWxyz with
    | none => .error .noBase
    | some base =>
      if base.length ≠ reference.length ∨ base.any (·.length ≠ 4) then .error .baseShape
      else .ok (indices.mapIdx fun i row => anchorRow (Quat.ofRow (base.getD i [])) reference row)
  | .referenceRootCurrentFrame =>
    .ok (indices.mapIdx fun i row => anchorRow (Quat.ofRow (reference.getD i [])) reference row)

/-- The mode block: the mode id and zeros. -/
def modeBlock : List K := Arithmetic.ofRat g1ModeId :: List.replicate 3 (Arithmetic.ofRat 0)

/-- `build_g1_encoder_observation`. -/
def buildG1EncoderObservation (e : CanonicalEpisode K) (policy : OrientationPolicy) (baseQuatWxyz : Option (List (List K)))
    (layout : EncoderLayout) : Except ObservationError (List (List K) × List ℚ) := do
  e.validate.mapError ObservationError.schema
  if layout.totalDim ≠ encoderInputDim then .error (.layoutDim layout.totalDim)
  else
    let frames := e.timestamps.length
    let (indices, fraction) ← futureIndices frames
    let output := List.replicate frames (List.replicate encoderInputDim (Arithmetic.ofRat 0))
    let output ← layout.assign "encoder_mode_4" (List.replicate frames modeBlock) output
    let output ← layout.assign "motion_joint_positions_10frame_step5"
      ((takeRows e.jointPos indices).map (·.map Scalar.toFloat32)) output
    let output ← layout.assign "motion_joint_velocities_10frame_step5"
      ((takeRows e.jointVel indices).map (·.map Scalar.toFloat32)) output
    let block ← orientationBlock e.bodyQuatWxyz indices policy baseQuatWxyz
    let output ← layout.assign "motion_anchor_orientation_heading_10frame_step5" block output
    if !finiteRows output then .error .notFinite
    else .ok (output, fraction.map float32)

end

end HumanoidLab
