import HumanoidLab.Controllers.Dds
import HumanoidLab.Lib.Fallible
import HumanoidLab.Lib.Machine
import Mathlib.Algebra.Order.Field.Basic
import Mathlib.Data.Rat.Cast.OfScientific
import Mathlib.Data.List.Infix

/-! Control in the Isaac service (`simulators/isaac/service.py`): the layouts that are resolved when a
    controller starts, the tick that applies a command or goes passive, the efforts that it stages, the
    start-up support and the reset. The arithmetic is that of an ordered field. -/

namespace HumanoidLab
open Fallible

/-! ### Layouts -/

/-- The joints of the asset, and the profile's hand: its kind and the patterns that tell its joints. -/
structure Asset where
  joints : List String
  handKind : String
  handPatterns : List String
  deriving DecidableEq, Repr

namespace Asset

def isHand (a : Asset) (name : String) : Bool := a.handPatterns.any fun pattern => pattern.toList <:+: name.toList

def handIds (a : Asset) : List Nat := (List.range a.joints.length).filter fun i => (a.joints[i]?).any a.isHand

def bodyIds (a : Asset) : List Nat := (List.range a.joints.length).filter fun i => i ∉ a.handIds

end Asset

/-- `ControllerInterface`: the joint order and effort limits that a provider speaks. -/
structure Interface (K : Type) [Zero K] [LE K] where
  bodyJointNames : List String
  bodyEffortLimits : List K
  handKind : String := ""
  handJointNames : Side → List String := fun _ => []
  handEffortLimits : Side → List K := fun _ => []
  body_length : bodyEffortLimits.length = bodyJointNames.length
  hand_length : ∀ side, (handEffortLimits side).length = (handJointNames side).length
  body_nonneg : ∀ l ∈ bodyEffortLimits, 0 ≤ l
  hand_nonneg : ∀ side, ∀ l ∈ handEffortLimits side, 0 ≤ l
  hand_joints : handKind ≠ "" → ∀ side, handJointNames side ≠ []
  hand_disjoint : ∀ name ∈ handJointNames .left, name ∉ handJointNames .right

/-- The groups of joints that are staged together. -/
inductive Group
  | body
  | hand (side : Side)
  deriving DecidableEq, Repr

/-- What the start of a controller resolves. -/
structure Binding (K : Type) where
  asset : Asset
  body : JointLayout
  hands : Side → Option JointLayout
  bodyLimits : List K
  handLimits : Side → Option (List K)

def Side.text : Side → String
  | .left => "left"
  | .right => "right"

/-- The layout of a hand, when it is declared. -/
def resolveHand (names available : List String) (side : Side) : Except Raised (Option JointLayout) :=
  if names = [] then .ok none else (JointLayout.resolve names available (side.text ++ " hand")).map some

/-- A check that raises `CommandError` when it fails. -/
def require (c : Prop) [Decidable c] (text : String) : Except Raised Unit := if c then .ok () else .error (.command text)

section
variable {K : Type} [Zero K] [LE K]

/-- Whether the provider speaks for the profile's hand. -/
def Interface.bindsHands (interface : Interface K) (asset : Asset) : Bool :=
  interface.handKind ≠ "" && interface.handKind = asset.handKind

/-- `_start_controller`, as far as it resolves the layouts. -/
def startController (asset : Asset) (interface : Interface K) : Except Raised (Binding K) := do
  let names := fun side => if interface.bindsHands asset then interface.handJointNames side else []
  let body ← JointLayout.resolve interface.bodyJointNames asset.joints "body"
  let left ← resolveHand (names .left) asset.joints .left
  let right ← resolveHand (names .right) asset.joints .right
  require (body.indices ⊆ asset.bodyIds ∧ asset.bodyIds ⊆ body.indices)
    "the controller's body joints do not match the body joints the profile declares"
  let indices := left.elim [] JointLayout.indices ++ right.elim [] JointLayout.indices
  require (interface.bindsHands asset → indices ⊆ asset.handIds ∧ asset.handIds ⊆ indices)
    "the controller's hand joints do not match the hand joints the profile declares"
  return {
    asset, body
    hands := fun | .left => left | .right => right
    bodyLimits := interface.bodyEffortLimits
    handLimits := fun side => if interface.bindsHands asset then some (interface.handEffortLimits side) else none }

end

namespace Binding

variable {K : Type}

/-- The joints of a group that goes passive. -/
def joints (b : Binding K) : Group → List Nat
  | .body => b.asset.bodyIds
  | .hand side => (b.hands side).elim b.asset.handIds fun l => if l.names = [] then b.asset.handIds else l.indices

/-- The layout of a group that commands write, with its declared limits. -/
def bound (b : Binding K) : Group → Option (JointLayout × List K)
  | .body => some (b.body, b.bodyLimits)
  | .hand side => (b.hands side).bind fun l => (b.handLimits side).map (l, ·)

/-- A layout and its limits: joints of `ids`, each once, with a limit each. -/
structure Limited [Zero K] [LE K] (l : JointLayout) (limits : List K) (ids : List Nat) : Prop where
  named : l.names.length = l.indices.length
  joints : l.indices ⊆ ids
  nodup : l.indices.Nodup
  length : limits.length = l.indices.length
  nonneg : ∀ x ∈ limits, 0 ≤ x

/-- Either no hand is bound, or both are, by disjoint layouts that cover the joints of the hands. -/
structure Resolved [Zero K] [LE K] (b : Binding K) : Prop where
  body : Limited b.body b.bodyLimits b.asset.bodyIds
  bodyCover : b.asset.bodyIds ⊆ b.body.indices
  hands : (∀ side, b.hands side = none) ∨ ∃ (layout : Side → JointLayout) (limits : Side → List K),
    (∀ side, b.hands side = some (layout side)) ∧ (∀ side, b.handLimits side = some (limits side)) ∧
    (∀ side, (layout side).names ≠ [] ∧ Limited (layout side) (limits side) b.asset.handIds) ∧
    (∀ i ∈ (layout .left).indices, i ∉ (layout .right).indices) ∧
    ∀ i ∈ b.asset.handIds, i ∈ (layout .left).indices ∨ i ∈ (layout .right).indices

end Binding

/-! ### The state of control -/

inductive ControlMode
  | passive
  | controlled
  deriving DecidableEq, Repr

/-- The state of the start-up support. -/
structure Support (K : Type) where
  active : Bool := false
  startedTick : Option Nat := none
  releaseTick : Option Nat := none
  releaseReason : Option String := none
  staticTicks : Nat := 0
  previousQ : Option (List K) := none
  armed : Bool := false
  deriving DecidableEq, Repr

/-- The fields of the service that a tick of control reads and writes; `effort` is the staged torque of each joint. -/
structure ControlState (K : Type) where
  episodeId : Nat := 0
  tick : Nat := 0
  mode : ControlMode := .passive
  passiveGroups : Group → Bool := fun _ => false
  effort : Nat → K
  lastSequenceSeen : Option Nat := none
  sequenceRegressions : Nat := 0
  rejectedCommands : Nat := 0
  lastRejection : Option String := none
  staleTicks : Nat := 0
  passiveSinceTick : Option Nat := none
  appliedTicks : Nat := 0
  lastAppliedSequence : Option Nat := none
  lastControlledTick : Option Nat := none
  support : Support K := {}

/-- What the simulator measures at a tick: the joints, and the gravity torques of the solver. -/
structure Plant (K : Type) where
  jointPos : Nat → K
  jointVel : Nat → K
  gravity : Nat → Value K

/-- `SupportSpec`. -/
structure SupportSpec (K : Type) [Zero K] [LT K] where
  maxSeconds : K
  positive : 0 < maxSeconds

/-- What a run of the service fixes. -/
structure Control (K : Type) [Zero K] [LE K] [LT K] extends Binding K where
  resolved : toBinding.Resolved
  physicsDt : K
  dt_positive : 0 < physicsDt
  support : Option (SupportSpec K)
  gravityFeedforward : Bool := false

section
variable {K : Type}

/-- Stage values at indices, in order. -/
def stage (indices : List Nat) (values : List K) (effort : Nat → K) : Nat → K :=
  (indices.zip values).foldl (fun effort e => Function.update effort e.1 e.2) effort

namespace ControlState

def writeEffort (group : Group) (indices : List Nat) (values : List K) (s : ControlState K) : ControlState K :=
  { s with
    effort := stage indices values s.effort
    passiveGroups := Function.update s.passiveGroups group false }

def writePassive [Zero K] (group : Group) (indices : List Nat) (s : ControlState K) : ControlState K :=
  if s.passiveGroups group then s
  else { s with
    passiveGroups := Function.update s.passiveGroups group true
    effort := fun i => if i ∈ indices then 0 else s.effort i }

/-- A group that goes passive changes nothing but the efforts and the marks. -/
theorem writePassive_frame [Zero K] (group : Group) (indices : List Nat) (s : ControlState K) :
    ∃ effort groups, s.writePassive group indices = { s with effort := effort, passiveGroups := groups } := by
  unfold writePassive
  split
  · exact ⟨_, _, rfl⟩
  · exact ⟨_, _, rfl⟩

/-- A valid command is one of this episode, still alive and not older than one that was seen. -/
def inTime (s : ControlState K) (c : CompleteRobotCommand K) : Bool := c.episodeId = s.episodeId && c.isValidAt s.tick

def regresses (s : ControlState K) (c : CompleteRobotCommand K) : Bool := s.lastSequenceSeen.any (c.sequence < ·)

end ControlState

section
variable [Field K] [LinearOrder K]

/-- `SUPPORT_STATIC_EPSILON_RAD` and `SUPPORT_ARM_SECONDS`. -/
def supportStaticEpsilonRad : K := 1e-3

def supportArmSeconds : K := 0.5

/-- The torques that a command asks of the joints at `indices`. -/
def JointCommand.torques (c : JointCommand K) (indices : List Nat) (plant : Plant K) : List K :=
  List.zipWith (fun (q, dq, tau, kp, kd) i => tau + kp * (q - plant.jointPos i) + kd * (dq - plant.jointVel i))
    (c.q.zip (c.dq.zip (c.tau.zip (c.kp.zip c.kd)))) indices

/-- The largest change of a setpoint. -/
def setpointDelta (q previous : List K) : K := (List.zipWith (fun a b => |a - b|) q previous).foldl max 0

namespace Support

/-- `_start_support`, with a controller. -/
def start (spec : Option (SupportSpec K)) (s : Support K) : Support K :=
  if spec.isSome then { active := true } else { s with active := false }

/-- `_release_support`. -/
def release (tick : Nat) (reason : String) (s : Support K) : Support K :=
  { s with releaseTick := some tick, releaseReason := some reason }

/-- The part of `_update_support` that compares the setpoint with the one before. -/
def follow (dt : K) (tick : Nat) (q previous : List K) (s : Support K) : Support K :=
  if supportStaticEpsilonRad < setpointDelta q previous then
    let s := { s with staticTicks := 0 }
    if s.armed then s.release tick "controller_motion_after_hold" else s
  else
    let s := { s with staticTicks := s.staticTicks + 1 }
    if supportArmSeconds ≤ s.staticTicks * dt then { s with armed := true } else s

/-- `_update_support`. -/
def update (spec : Option (SupportSpec K)) (dt : K) (tick : Nat) (command : Option (JointCommand K)) (s : Support K) :
    Support K :=
  match spec, command with
  | some spec, some c =>
    if s.active = false ∨ s.releaseTick.isSome then s
    else
      let started := s.startedTick.getD tick
      let s := { s with startedTick := some started }
      if spec.maxSeconds ≤ (tick - started : K) * dt then s.release tick "timeout"
      else { (s.previousQ.elim s fun previous => s.follow dt tick c.q previous) with previousQ := some c.q }
  | _, _ => s

/-- `_apply_support`: whether the band pulls. Once it is released its force is zero. -/
def engaged (s : Support K) : Bool := s.active && s.releaseTick.isNone

end Support

namespace Control

variable (C : Control K) (plant : Plant K)

def bodyGravityTorques : Except Raised (List K) :=
  C.body.indices.mapM fun i =>
    match plant.gravity i with
    | .fin x => .ok x
    | .nonFinite => .error (.command "PhysX returned a non-finite generalized gravity torque")

def applyBodyCommand (c : JointCommand K) : EStateM Raised (ControlState K) Unit := do
  lift (c.validate C.body)
  let torque := c.torques C.body.indices plant
  let gravity ← if C.gravityFeedforward then lift (C.bodyGravityTorques plant) else pure []
  let torque := if C.gravityFeedforward then List.zipWith (· + ·) torque gravity else torque
  modify (·.writeEffort .body C.body.indices (List.zipWith (fun t l => min (max t (-l)) l) torque C.bodyLimits))

def applyHandCommand (command : Option (JointCommand K)) (side : Side) : EStateM Raised (ControlState K) Unit :=
  match C.hands side with
  | none => pure ()
  | some layout =>
    match command with
    | none => modify (·.writePassive (.hand side) layout.indices)
    | some c => do
      lift (c.validate layout)
      match C.handLimits side with
      | none => modify (·.writePassive (.hand side) layout.indices)
      | some limits =>
        modify (·.writeEffort (.hand side) layout.indices
          (List.zipWith (fun t l => max (-l) (min l t)) (c.torques layout.indices plant) limits))

def goPassive (s : ControlState K) : ControlState K :=
  ((s.writePassive .body (C.joints .body)).writePassive (.hand .left) (C.joints (.hand .left))).writePassive (.hand .right)
    (C.joints (.hand .right))

theorem goPassive_frame (s : ControlState K) :
    ∃ effort groups, C.goPassive s = { s with effort := effort, passiveGroups := groups } := by
  obtain ⟨e₁, g₁, h₁⟩ := s.writePassive_frame .body (C.joints .body)
  obtain ⟨e₂, g₂, h₂⟩ := (s.writePassive .body (C.joints .body)).writePassive_frame (.hand .left) (C.joints (.hand .left))
  obtain ⟨e₃, g₃, h₃⟩ := ((s.writePassive .body (C.joints .body)).writePassive (.hand .left)
    (C.joints (.hand .left))).writePassive_frame (.hand .right) (C.joints (.hand .right))
  exact ⟨e₃, g₃, by rw [goPassive, h₃, h₂, h₁]⟩

/-- What `_apply_control` tries: the command in force, when there is a valid one. -/
def tryCommand (polled : Except Raised (Option (CompleteRobotCommand K))) :
    EStateM Raised (ControlState K) (Option (CompleteRobotCommand K)) := do
  match ← lift polled with
  | none => return none
  | some c =>
    let s ← get
    if s.inTime c then
      if s.regresses c then
        modify fun s => { s with sequenceRegressions := s.sequenceRegressions + 1 }
        return none
      C.applyBodyCommand plant c.body
      C.applyHandCommand plant c.leftHand .left
      C.applyHandCommand plant c.rightHand .right
      return some c
    else return none

/-- The end of a tick without a valid command. -/
def withoutCommand (s : ControlState K) : ControlState K :=
  C.goPassive { s with
    staleTicks := s.staleTicks + 1
    passiveSinceTick := if s.mode = .controlled then some s.tick else s.passiveSinceTick
    mode := .passive }

/-- The end of a tick that has applied a command. -/
def withCommand (c : CompleteRobotCommand K) (s : ControlState K) : ControlState K :=
  { s with
    lastSequenceSeen := some c.sequence
    support := s.support.update C.support C.physicsDt s.tick (some c.body)
    mode := .controlled
    appliedTicks := s.appliedTicks + 1
    lastAppliedSequence := some c.sequence
    lastControlledTick := some s.tick }

/-- A command that is refused is counted. -/
def refuse (text : String) (s : ControlState K) : ControlState K :=
  { s with rejectedCommands := s.rejectedCommands + 1, lastRejection := some ("CommandError: " ++ text) }

/-- `_apply_control`, with what the controller polls. Its result is the command that it has applied, which the
    code does not return. -/
def applyControl (polled : Except Raised (Option (CompleteRobotCommand K))) :
    EStateM Raised (ControlState K) (Option (CompleteRobotCommand K)) := do
  let command ← tryCatch (C.tryCommand plant polled) fun
    | .command text => do
      modify (refuse text)
      return none
    | .index => throw .index
  match command with
  | none => modify C.withoutCommand
  | some c => modify (C.withCommand c)
  return command

/-- How a tick ends, by how the attempt at a command ends. -/
theorem applyControl_run (polled : Except Raised (Option (CompleteRobotCommand K))) (s : ControlState K) :
    (C.applyControl plant polled).run s =
      match (C.tryCommand plant polled).run s with
      | .ok none t => .ok none (C.withoutCommand t)
      | .ok (some c) t => .ok (some c) (C.withCommand c t)
      | .error (.command text) t => .ok none (C.withoutCommand (refuse text t))
      | .error .index t => .error .index t := by
  simp only [applyControl, EStateM.run, bind, EStateM.bind, tryCatch, tryCatchThe, MonadExceptOf.tryCatch, EStateM.tryCatch]
  cases C.tryCommand plant polled s with
  | ok command t => cases command <;> rfl
  | error e t => cases e <;> rfl

/-- `reset_episode`, as far as control is concerned. -/
def resetEpisode (s : ControlState K) : ControlState K :=
  { s with
    effort := fun _ => 0
    episodeId := s.episodeId + 1
    tick := 0
    mode := .passive
    support := if s.support.active then s.support.start C.support else s.support }

/-- The state in which `start` leaves control. -/
def started : ControlState K := { effort := fun _ => 0, support := Support.start C.support {} }

end Control

/-! ### Runs -/

/-- What is recorded of a tick: the setpoint of the command that was applied, and the band after it. -/
structure TickRecord (K : Type) where
  tick : Nat
  setpoint : Option (List K)
  engaged : Bool
  reason : Option String
  deriving DecidableEq, Repr

/-- The service between two ticks, with the record of the present episode, newest first. -/
structure ControlRun (K : Type) where
  state : ControlState K
  episode : List (TickRecord K) := []

/-- What the loop does: a tick, with what is measured and what the controller polls, or a reset. -/
inductive ControlInput (K : Type)
  | tick (plant : Plant K) (polled : Except Raised (Option (CompleteRobotCommand K)))
  | reset

/-- The service loop, which ends when a tick of control raises. -/
def controlMachine (C : Control K) : Concurrency.Machine (ControlRun K) (ControlInput K) where
  init s := s = ⟨C.started, []⟩
  step s
    | .tick plant polled =>
      match (C.applyControl plant polled).run s.state with
      | .ok command t =>
        let record := ⟨t.tick, command.map (·.body.q), t.support.engaged, t.support.releaseReason⟩
        some ⟨{ t with tick := t.tick + 1 }, record :: s.episode⟩
      | .error _ _ => none
    | .reset => some ⟨C.resetEpisode s.state, []⟩

end
end
end HumanoidLab
