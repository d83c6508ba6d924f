import HumanoidLab.Lib.Machine
import Mathlib.Algebra.Notation.Defs
import Mathlib.Data.List.Range

/-! Kinematic replay in the Isaac service (`simulators/isaac/service.py`, `_step_kinematic` and the loop in
    `run`): physics advances, the frame of the reference is written over what it did, and a row is recorded at
    each frame boundary. -/

namespace HumanoidLab

/-- A pose of the robot: the body in DDS order, the hands, and the root. -/
structure Pose (K : Type) where
  body : List K
  leftHand : List K
  rightHand : List K
  rootPosition : List K
  rootQuaternion : List K
  deriving DecidableEq, Repr

/-- What `_prepare_kinematic` makes of a reference; a root that the reference lacks stands upright at `rootZ`. -/
structure Kinematic (K : Type) where
  frames : Nat
  two_le_frames : 2 ≤ frames
  ticksPerFrame : Nat
  ticks_positive : 0 < ticksPerFrame
  reference : Nat → Pose K
  timestamps : Nat → K
  handsApplied : Bool
  hasRoot : Bool
  rootZ : K

/-- `_kinematic_rows`: the label of a frame, what the reference says of it and what the robot measures. -/
structure KinematicRow (K : Type) where
  tick : Nat
  frameIndex : Nat
  sourceTimestamp : K
  target : Pose K
  measured : Pose K
  handsApplied : Bool
  deriving DecidableEq, Repr

/-- The service during a replay; the rows are newest first. -/
structure Replay (K : Type) where
  tick : Nat := 0
  frame : Nat := 0
  robot : Pose K
  rows : List (KinematicRow K) := []
  deriving DecidableEq, Repr

namespace Kinematic

variable {K : Type} [Zero K] [One K] (k : Kinematic K)

/-- The pose of a frame, with the root that the replay has for it. -/
def target (frame : Nat) : Pose K :=
  if k.hasRoot then k.reference frame
  else { k.reference frame with rootPosition := [0, 0, k.rootZ], rootQuaternion := [1, 0, 0, 0] }

/-- `_write_kinematic_frame`: hands that are not applied stay at zero. -/
def written (frame : Nat) : Pose K :=
  if k.handsApplied then k.target frame
  else { k.target frame with
    leftHand := (k.target frame).leftHand.map fun _ => 0
    rightHand := (k.target frame).rightHand.map fun _ => 0 }

/-- `_apply_kinematic`. -/
def applyKinematic (s : Replay K) : Replay K :=
  let frame := min (s.tick / k.ticksPerFrame) (k.frames - 1)
  { s with frame := frame, robot := k.written frame }

/-- `_kinematic_finished`. -/
def finished (s : Replay K) : Bool :=
  let lastTick := (k.frames - 1) * k.ticksPerFrame
  lastTick + k.ticksPerFrame < s.tick

/-- `_record_kinematic_row`. -/
def recordRow (s : Replay K) : Replay K :=
  { s with rows := ⟨s.tick, s.frame, k.timestamps s.frame, k.target s.frame, s.robot, k.handsApplied⟩ :: s.rows }

/-- `_step_kinematic`, with the pose to which physics has brought the robot. -/
def stepKinematic (moved : Pose K) (s : Replay K) : Replay K :=
  let s := k.applyKinematic { s with tick := s.tick + 1, robot := moved }
  if s.tick % k.ticksPerFrame = 0 then k.recordRow s else s

end Kinematic

/-- What an iteration of the loop does: a step, with what physics does in it, a pause, or a reset with the
    initial pose and the step that follows it. -/
inductive ReplayInput (K : Type)
  | step (moved : Pose K)
  | paused
  | reset (moved : Pose K)

/-- The loop of `run` during a replay. It ends when the replay is finished, and may be ended at any time before. -/
def replayMachine {K : Type} [Zero K] [One K] (k : Kinematic K) : Concurrency.Machine (Replay K) (ReplayInput K) where
  init s := s.tick = 0 ∧ s.rows = []
  step s input :=
    if k.finished s then none
    else match input with
      | .step moved => some (k.stepKinematic moved s)
      | .paused => some s
      | .reset moved => some (k.stepKinematic moved { s with tick := 0 })

end HumanoidLab
