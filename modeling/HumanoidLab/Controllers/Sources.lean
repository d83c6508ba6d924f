import HumanoidLab.Controllers.Providers
import Mathlib.Algebra.Field.Defs
import Mathlib.Algebra.Order.Floor.Defs

/-! The controllers that the simulator can drive with: the two DDS providers, the scripted controller
    (`controllers/scripted.py`) and the replay of a trajectory (`controllers/trajectory.py`), each behind the
    interface of `controllers/base.py`. -/

namespace HumanoidLab

/-- `ControllerSource`. A poll is given what waits on the command topics, and `holding` tells the messages that
    the commands are made of, which no code reads. -/
structure ControllerSource (K σ : Type) where
  init : σ
  publishState : Nat → Nat → σ → σ
  poll : Int → (Topic → Option (Taken K)) → σ → Except Raised (Option (CompleteRobotCommand K)) × σ
  close : σ → σ
  holding : σ → Topic → Option (Taken K)

section
variable {K : Type}

/-- The message that is held of a topic. -/
def DdsState.holding (s : DdsState K) : Topic → Option (Taken K)
  | .body => s.bodyCommand
  | .hand side => s.handCommand side

def Dds.source (d : Dds K) : ControllerSource K (DdsState K) where
  init := {}
  publishState := DdsState.publishState
  poll := d.poll
  close s := { s with bodyCommand := none, handCommand := fun _ => none }
  holding := DdsState.holding

/-- The vectors of a command that asks for no torque. -/
def Vectors.untorqued [Zero K] (q dq kp kd : List (Value K)) (size : Nat) : Vectors K :=
  ⟨q, dq, List.replicate size (.fin 0), kp, kd⟩

/-! ### The scripted controller -/

/-- What the construction of a `ScriptedController` resolves. -/
structure Scripted (K : Type) where
  ttlTicks : Nat
  holdTicks : Nat
  jointNames : List String
  target : List (Value K)
  kp : List (Value K)
  kd : List (Value K)

structure ScriptedState where
  sequence : Nat := 0
  emitted : Nat := 0
  stopped : Bool := false
  deriving DecidableEq, Repr

namespace Scripted

variable [Zero K] (c : Scripted K)

def body (sequence : Nat) (tick : Int) : Except Raised (JointCommand K) :=
  JointCommand.build bodyCommandSchema sequence c.jointNames
    (Vectors.untorqued c.target (List.replicate c.jointNames.length (.fin 0)) c.kp c.kd c.jointNames.length)
    (tick + c.ttlTicks)

/-- `poll`: a pose that is held, then silence. -/
def poll (tick : Int) (s : ScriptedState) : Except Raised (Option (CompleteRobotCommand K)) × ScriptedState :=
  if c.holdTicks < tick then (.ok none, { s with stopped := true })
  else
    let s := { s with sequence := s.sequence + 1, emitted := s.emitted + 1 }
    ((c.body s.sequence tick).map fun body => some ⟨0, body, none, none⟩, s)

/-- `publish_state` ignores what it is told. -/
def source : ControllerSource K ScriptedState where
  init := {}
  publishState _ _ s := s
  poll tick _ s := c.poll tick s
  close s := { s with stopped := true }
  holding _ _ := none

end Scripted

/-! ### The replay of a trajectory -/

/-- What the construction of a `TrajectoryController` resolves: its times, and the rows of the reference in the
    joint orders of the body and the hands. -/
structure Trajectory (K : Type) where
  dt : K
  ttlTicks : Nat
  preRollTicks : Nat
  bodyQ : List (List (Value K))
  bodyDq : List (List (Value K))
  handJoints : Side → List (List (Value K))
  kp : List (Value K)
  kd : List (Value K)

structure TrajectoryState where
  sequence : Nat := 0
  lastFrame : Nat := 0
  closed : Bool := false
  deriving DecidableEq, Repr

/-- `rows[frame]`. -/
def row (rows : List (List (Value K))) (frame : Nat) : Except Raised (List (Value K)) := (rows[frame]?).elim (.error .index) .ok

namespace Trajectory

variable [Field K] [LinearOrder K] [FloorSemiring K] (c : Trajectory K)

/-- The frame of a tick, at 50 frames a second after the pre-roll. -/
def frame (tick : Int) : Nat :=
  min ⌊((tick - c.preRollTicks).toNat : K) * c.dt * 50 + 1 / 10 ^ 9⌋₊ (c.bodyQ.length - 1)

def handCommand (side : Side) (values : List (Value K)) (sequence : Nat) (valid : Int) : Except Raised (JointCommand K) :=
  JointCommand.build dex3CommandSchema sequence (handJointNames side)
    (Vectors.untorqued values (List.replicate (handJointNames side).length (.fin 0)) (List.replicate 7 (.fin (3 / 2)))
      (List.replicate 7 (.fin (1 / 10))) (handJointNames side).length) valid

def command (frame sequence : Nat) (valid : Int) : Except Raised (CompleteRobotCommand K) := do
  let q ← row c.bodyQ frame
  let dq ← row c.bodyDq frame
  let body ← JointCommand.build bodyCommandSchema sequence bodyJointOrder
    (Vectors.untorqued q dq c.kp c.kd bodyJointOrder.length) valid
  let left ← row (c.handJoints .left) frame
  let right ← row (c.handJoints .right) frame
  let leftHand ← handCommand .left left sequence valid
  let rightHand ← handCommand .right right sequence valid
  return ⟨0, body, some leftHand, some rightHand⟩

def poll (tick : Int) (s : TrajectoryState) : Except Raised (Option (CompleteRobotCommand K)) × TrajectoryState :=
  if s.closed then (.ok none, s)
  else
    let s := { s with lastFrame := c.frame tick, sequence := s.sequence + 1 }
    ((c.command s.lastFrame s.sequence (tick + c.ttlTicks)).map some, s)

/-- `publish_state` does nothing. -/
def source : ControllerSource K TrajectoryState where
  init := {}
  publishState _ _ s := s
  poll tick _ s := c.poll tick s
  close s := { s with closed := true }
  holding _ _ := none

end Trajectory

/-! ### The providers -/

/-- The providers of the factory that take commands or make them, with what tells one from another of its kind. -/
inductive Provider (K : Type)
  | sonicDds (ttlTicks : Nat) (gapTicks : Int)
  | fluxDds (config : FluxConfig K)
  | scripted (c : Scripted K)
  | trajectory (c : Trajectory K)

namespace Provider

def State : Provider K → Type
  | .sonicDds .. | .fluxDds _ => DdsState K
  | .scripted _ => ScriptedState
  | .trajectory _ => TrajectoryState

def source [Field K] [LinearOrder K] [FloorSemiring K] : (p : Provider K) → ControllerSource K p.State
  | .sonicDds ttlTicks gapTicks => (HumanoidLab.sonicDds ttlTicks gapTicks).source
  | .fluxDds config => (HumanoidLab.fluxDds config).source
  | .scripted c => c.source
  | .trajectory c => c.source

/-- Whether `publish_state` moves the provider to the episode that it is told. -/
def readsEpisode : Provider K → Bool
  | .sonicDds .. | .fluxDds _ => true
  | .scripted _ | .trajectory _ => false

end Provider

end
end HumanoidLab
