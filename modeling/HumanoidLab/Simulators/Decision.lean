import HumanoidLab.Simulators.PoseHold

/-! A tick of control with the rest of its decision state (`simulators/isaac/service.py`): the reset-pose hold, the
    last body command, and the accumulators that tell how well the body tracks its commands. -/

namespace HumanoidLab
open Fallible Rounding

variable {K : Type}

/-- What the simulator measures at a tick, with the position of the root. -/
structure RootedPlant (K : Type) extends Plant K where
  rootX : K
  rootY : K
  rootZ : K

/-- An entry of `_command_trace`. -/
structure TraceEntry (K : Type) where
  tick : Nat
  simS : K
  errorRad : K
  kneeCmd : K
  kneeMeas : K
  kneeDq : K
  kneeTau : K
  rootZ : K
  rootX : K
  rootY : K
  deriving DecidableEq, Repr

/-- The tracking accumulators; the trace is oldest first. -/
structure BodyTracking (K : Type) [Zero K] where
  errorMax : K := 0
  errorSum : K := 0
  samples : Nat := 0
  commandTrace : List (TraceEntry K) := []
  deriving DecidableEq, Repr

/-- The state of control, and what the tick decides beside it. -/
structure ServiceState (K : Type) [Zero K] where
  control : ControlState K
  hold : PoseHold K
  lastBodyCommandQ : Option (List K) := none
  tracking : BodyTracking K := {}

/-- What a run of the service fixes, with the reset pose that it holds. -/
structure Service (K : Type) [Zero K] [LE K] [LT K] extends Control K where
  resetPoseFile : Bool := false
  resetPoseHold : Bool := false
  resetPoseIndices : List Nat := []
  armTargetIndices : List Nat := []

namespace Service

variable [Zero K] [LE K] [LT K]

def holdSpec (S : Service K) : HoldSpec K :=
  ⟨S.physicsDt, S.dt_positive, S.resetPoseFile, S.resetPoseHold, S.resetPoseIndices, S.armTargetIndices⟩

end Service

/-- `TRACE_EVERY_TICKS`. -/
def traceEveryTicks : Nat := 200

namespace ServiceState

/-- A program of control, in the whole state. -/
def onControl [Zero K] {α : Type} (x : EStateM Raised (ControlState K) α) : EStateM Raised (ServiceState K) α :=
  zoom (·.control) (fun t s => { s with control := t }) x

end ServiceState

section
variable [Field K] [LinearOrder K] [FloorRing K]

namespace BodyTracking

/-- A sample of the error between the setpoint and the measured joints. -/
def sample (q measured : List K) (s : BodyTracking K) : BodyTracking K :=
  { s with
    errorMax := max s.errorMax (setpointDelta q measured)
    errorSum := s.errorSum + (List.zipWith (fun a b => |a - b|) q measured).sum / q.length
    samples := s.samples + 1 }

def trace (entry : TraceEntry K) (s : BodyTracking K) : BodyTracking K :=
  { s with commandTrace := s.commandTrace ++ [entry] }

end BodyTracking

namespace Service

variable (S : Service K) (plant : RootedPlant K)

/-- The entry of a command that has been staged; `knee` is the place of the left knee in the body layout. -/
def traceEntry (c : JointCommand K) (knee : Nat) (s : ControlState K) : TraceEntry K :=
  let joint := S.body.indices.getD knee 0
  let measured := S.body.indices.map plant.jointPos
  { tick := s.tick
    simS := roundDigits 2 (s.tick * S.physicsDt)
    errorRad := roundDigits 4 ((List.zipWith (fun a b => |a - b|) c.q measured).sum / c.q.length)
    kneeCmd := roundDigits 3 (c.q.getD knee 0)
    kneeMeas := roundDigits 3 (plant.jointPos joint)
    kneeDq := roundDigits 3 (plant.jointVel joint)
    kneeTau := roundDigits 2 (s.effort joint)
    rootZ := roundDigits 3 plant.rootZ
    rootX := roundDigits 3 plant.rootX
    rootY := roundDigits 3 plant.rootY }

/-- The end of `_apply_body_command`, where the command is staged. -/
def track (c : JointCommand K) : EStateM Raised (ServiceState K) Unit := do
  modify fun s => { s with tracking := s.tracking.sample c.q (S.body.indices.map plant.jointPos) }
  let s ← get
  if s.tracking.samples % traceEveryTicks = 0 then
    match S.body.names.idxOf? "left_knee_joint" with
    -- A `ValueError`, which ends the process as an `IndexError` does.
    | none => throw .index
    | some knee => modify fun s => { s with tracking := s.tracking.trace (S.traceEntry plant c knee s.control) }

/-- `_apply_body_command`. The command is checked, and noted before its torques are computed and staged. -/
def applyBodyCommand (c : JointCommand K) : EStateM Raised (ServiceState K) Unit := do
  lift (c.validate S.body)
  modify fun s => { s with lastBodyCommandQ := some c.q }
  ServiceState.onControl (S.toControl.applyBodyCommand plant.toPlant c)
  S.track plant c

def updateResetPoseHold (c : JointCommand K) (s : ServiceState K) : ServiceState K :=
  { s with hold := s.hold.update S.holdSpec s.control.tick c.q }

/-- The hands of a command, which is then in force. -/
def applyHands (c : CompleteRobotCommand K) : EStateM Raised (ServiceState K) (Option (CompleteRobotCommand K)) := do
  ServiceState.onControl (S.toControl.applyHandCommand plant.toPlant c.leftHand .left)
  ServiceState.onControl (S.toControl.applyHandCommand plant.toPlant c.rightHand .right)
  return some c

/-- What `_apply_control` tries. -/
def tryCommand (polled : Except Raised (Option (CompleteRobotCommand K))) :
    EStateM Raised (ServiceState K) (Option (CompleteRobotCommand K)) := do
  match ← lift polled with
  | none => return none
  | some c =>
    let s ← get
    if s.control.inTime c then
      if s.control.regresses c then
        ServiceState.onControl (modify fun s => { s with sequenceRegressions := s.sequenceRegressions + 1 })
        return none
      S.applyBodyCommand plant c.body
      modify (S.updateResetPoseHold c.body)
      S.applyHands plant c
    else return none

/-- `_apply_control`. -/
def applyControl (polled : Except Raised (Option (CompleteRobotCommand K))) :
    EStateM Raised (ServiceState K) (Option (CompleteRobotCommand K)) := do
  let command ← tryCatch (S.tryCommand plant polled) fun
    | .command text => do
      ServiceState.onControl (modify (Control.refuse text))
      return none
    | .index => throw .index
  match command with
  | none => ServiceState.onControl (modify S.toControl.withoutCommand)
  | some c => ServiceState.onControl (modify (S.toControl.withCommand c))
  return command

/-- The state in which `start` leaves the service. -/
def started : ServiceState K := { control := S.toControl.started, hold := PoseHold.rearm S.holdSpec }

end Service

end
end HumanoidLab
