import HumanoidLab.Contracts.Commands

/-! The DDS providers (`controllers/sonic_dds.py`, `controllers/flux_dds.py`) as one controller with
    parameters: both keep the newest message of each topic and one received tick, and differ in the joints
    they read and in the vectors they make of a message. Around it stands the part of the simulator's loop
    that they see: its episode and tick, and the command topics. -/

namespace HumanoidLab

variable {K : Type}

/-- One slot of a motor command message. -/
structure Motor (K : Type) where
  q : Value K
  dq : Value K
  tau : Value K
  kp : Value K
  kd : Value K
  deriving DecidableEq, Repr

/-- The motor slots of a `LowCmd` or a `HandCmd`. -/
abbrev Message (K : Type) := List (Motor K)

inductive Side
  | left
  | right
  deriving DecidableEq, Repr

inductive Topic
  | body
  | hand (s : Side)
  deriving DecidableEq, Repr

/-- A sample of a reader: a message, or an `InvalidSample`. -/
inductive Sample (K : Type)
  | message (m : Message K)
  | invalid
  deriving DecidableEq, Repr

/-- A position that a provider moved into its range: the joint, the requested and the applied value. -/
structure Clip (K : Type) where
  joint : String
  requested : K
  applied : K
  deriving DecidableEq, Repr

def bodyCommandSchema : String := "g1_body_lowcmd_v1"
def dex3CommandSchema : String := "dex3_joint_command_v1"

/-- What tells a provider from another: its time to live and the gap it reports, its joints, and the
    vectors that it makes of a message, with the positions it clipped. -/
structure Dds (K : Type) where
  ttlTicks : Nat
  gapTicks : Int
  bodyNames : List String
  handNames : Side → List String
  bodyVectors : Message K → Except Raised (Vectors K × List (Clip K))
  handVectors : Side → Message K → Except Raised (Vectors K × List (Clip K))

/-- A message with an episode and a tick of the simulator: when it was taken off its topic, or when it was sent.
    The code keeps the message alone. -/
structure Taken (K : Type) where
  message : Message K
  episode : Nat
  tick : Nat
  deriving DecidableEq, Repr

/-- The fields of a provider. -/
structure DdsState (K : Type) where
  bodyCommand : Option (Taken K) := none
  handCommand : Side → Option (Taken K) := fun _ => none
  episodeId : Nat := 0
  latestTick : Int := 0
  commandTick : Int := -1
  sequence : Nat := 0
  received : Nat := 0
  applied : Nat := 0
  stale : Nat := 0
  clippedPolls : Nat := 0
  clippedValues : Nat := 0
  gapReported : Bool := false

namespace DdsState

/-- `publish_state`: a new episode invalidates every command. -/
def publishState (episode tick : Nat) (s : DdsState K) : DdsState K :=
  let s := if episode ≠ s.episodeId then
      { s with episodeId := episode, bodyCommand := none, handCommand := fun _ => none, commandTick := -1 }
    else s
  { s with latestTick := tick }

/-- `_receive_commands`, with what was taken off each topic. -/
def receive (taken : Topic → Option (Taken K)) (s : DdsState K) : DdsState K :=
  let s := match taken .body with
    | some m => { s with bodyCommand := some m, received := s.received + 1, commandTick := s.latestTick }
    | none => s
  { s with handCommand := fun side => (taken (.hand side)).or (s.handCommand side) }

end DdsState

namespace Dds

variable (d : Dds K)

def maybeReportGap (tick receivedTick : Int) (s : DdsState K) : DdsState K :=
  if tick - receivedTick < d.gapTicks ∨ s.gapReported then s else { s with gapReported := true }

/-- `_hand_command`: no message, no command for the hand. -/
def handCommand (message : Option (Taken K)) (side : Side) (sequence : Nat) (receivedTick : Int) :
    Except Raised (Option (JointCommand K) × List (Clip K)) :=
  match message with
  | none => .ok (none, [])
  | some m => do
    let (v, clipped) ← d.handVectors side m.message
    let c ← JointCommand.build dex3CommandSchema sequence (d.handNames side) v (receivedTick + d.ttlTicks)
    return (some c, clipped)

/-- The command that `poll` builds of the messages it holds. -/
def buildCommand (m : Taken K) (hands : Side → Option (Taken K)) (episode sequence : Nat) (receivedTick : Int) :
    Except Raised (CompleteRobotCommand K × List (Clip K)) := do
  let (v, clipped) ← d.bodyVectors m.message
  let body ← JointCommand.build bodyCommandSchema sequence d.bodyNames v (receivedTick + d.ttlTicks)
  let (leftHand, leftClipped) ← d.handCommand (hands .left) .left sequence receivedTick
  let (rightHand, rightClipped) ← d.handCommand (hands .right) .right sequence receivedTick
  return (⟨episode, body, leftHand, rightHand⟩, clipped ++ leftClipped ++ rightClipped)

/-- `_note_clip`, of a command in which something was clipped. -/
def noteClip (clipped : List (Clip K)) (s : DdsState K) : DdsState K :=
  if clipped = [] then s
  else { s with clippedPolls := s.clippedPolls + 1, clippedValues := s.clippedValues + clipped.length }

/-- `poll`, with what the readers take. What it raises leaves the fields as far as they were set. -/
def poll (tick : Int) (taken : Topic → Option (Taken K)) (s : DdsState K) :
    Except Raised (Option (CompleteRobotCommand K)) × DdsState K :=
  let s := s.receive taken
  match s.bodyCommand with
  | none => (.ok none, { s with stale := s.stale + 1 })
  | some m =>
    if s.commandTick < 0 then (.ok none, { s with stale := s.stale + 1 })
    else
      let s := d.maybeReportGap tick s.commandTick { s with sequence := s.sequence + 1 }
      match d.buildCommand m s.handCommand s.episodeId s.sequence s.commandTick with
      | .error e => (.error e, s)
      | .ok (command, clipped) =>
        let s := noteClip clipped s
        (.ok (some command),
          if command.isValidAt tick then { s with applied := s.applied + 1 } else { s with stale := s.stale + 1 })

end Dds

/-! ### The loop around a provider -/

/-- The number of samples that one take returns at most. -/
def readBatch : Nat := 256

/-- The newest valid message of a batch (`_take_newest`). -/
def takeNewest : List (Sample K) → Option (Message K)
  | [] => none
  | .message m :: samples => (takeNewest samples).or (some m)
  | .invalid :: samples => takeNewest samples

/-- The simulator's episode and tick, the samples that wait on the command topics, and the provider. -/
structure ControlLoop (K : Type) where
  episode : Nat := 0
  tick : Nat := 0
  readers : Topic → List (Sample K) := fun _ => []
  provider : DdsState K := {}

/-- What happens to a provider: a sample arrives, and the loop polls it, publishes its state to it,
    advances by a tick or resets the episode. -/
inductive ControlEvent (K : Type)
  | arrive (t : Topic) (sample : Sample K)
  | poll
  | publish
  | advance
  | reset
  deriving DecidableEq, Repr

namespace ControlLoop

/-- What a poll takes off a topic now. -/
def taken (s : ControlLoop K) (t : Topic) : Option (Taken K) :=
  (takeNewest ((s.readers t).take readBatch)).map (⟨·, s.episode, s.tick⟩)

/-- `poll` at the simulator's tick: what it returns or raises, and the provider after it. -/
def poll (d : Dds K) (s : ControlLoop K) : Except Raised (Option (CompleteRobotCommand K)) × DdsState K :=
  d.poll s.tick s.taken s.provider

def step (d : Dds K) (s : ControlLoop K) : ControlEvent K → ControlLoop K
  | .arrive t sample => { s with readers := fun u => if u = t then s.readers u ++ [sample] else s.readers u }
  | .poll => { s with readers := fun t => (s.readers t).drop readBatch, provider := (s.poll d).2 }
  | .publish => { s with provider := s.provider.publishState s.episode s.tick }
  | .advance => { s with tick := s.tick + 1 }
  | .reset => { s with episode := s.episode + 1, tick := 0 }

/-- The loop after a run of events, oldest first. -/
def run (d : Dds K) (events : List (ControlEvent K)) : ControlLoop K := events.foldl (step d) {}

end ControlLoop
end HumanoidLab
