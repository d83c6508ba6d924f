import HumanoidLab.Bridge.Actions
import HumanoidLab.Lib.Machine

/-! The two streaming loops of a session (`psi0_bridge/session.py`, `_stream` and `_stream_simulation`): the
    wall-clock loop sends an observation and waits for its action, the simulation-clock loop has a task that
    sends and a task that receives. A step is what a task does up to its next wait. -/

namespace HumanoidLab

/-- `policy_clock.mode`. -/
inductive ClockMode
  | wall
  | simulation
  deriving DecidableEq, Repr

/-- What `decode_response` raises: a `Psi0ClientError`, or anything else. -/
inductive DecodeError
  | client
  | other
  deriving DecidableEq, Repr

/-- One decoded `ResponseMessage`. -/
structure ActionReply (K : Type) where
  version : Int
  action : NdArray K

/-- Where the task that receives actions stands: at the head of the wall-clock loop, in `_flush_stale`, in
    `_wait_action`, past it with a reply, or at its end. -/
inductive StreamPc (K : Type)
  | observing
  | flushing
  | waiting
  | acting (reply : ActionReply K)
  | ended

/-- The head of a loop. -/
def StreamPc.head {K : Type} : ClockMode → StreamPc K
  | .wall => .observing
  | .simulation => .waiting

/-- What a stream does: it receives a version, sends an observation, packs a message and publishes one. -/
inductive StreamEvent (K : Type)
  | received (version : Int)
  | sent
  | packed (m : PoseMessage K)
  | published (version : Int) (m : PoseMessage K)
  deriving DecidableEq, Repr

/-- A stream: its locals, the state of its adapter, and what it did, newest first. -/
structure StreamState (K : Type) where
  pc : StreamPc K
  lastVersion : Int := 0
  adapter : AdapterState K := {}
  record : List (StreamEvent K) := []

/-- What happens to a stream, with what it finds: a pass of the head of the wall-clock loop, a text of the server,
    the sending of an observation, the use of an action (`gate` when the send gate is open and the stream current,
    and what the publisher answers, if it does not raise), and an end (a stop, a deadline or an exception). -/
inductive StreamInput (T : Type)
  | observe (fresh : Bool)
  | receive (text : T)
  | send
  | act (gate : Bool) (answer : Option Bool)
  | stop
  deriving DecidableEq, Repr

section
variable {K T : Type} (mode : ClockMode) (decode : T → Except DecodeError (ActionReply K))

def StreamState.log (e : StreamEvent K) (s : StreamState K) : StreamState K := { s with record := e :: s.record }

/-- The head of the wall-clock loop: only a fresh observation goes on. -/
def StreamState.observe (fresh : Bool) (s : StreamState K) : Option (StreamState K) :=
  match s.pc with
  | .observing => some (if fresh then { s with pc := .flushing } else s)
  | _ => none

/-- A text in `_flush_stale` or in `_wait_action`. -/
def StreamState.receive (text : T) (s : StreamState K) : Option (StreamState K) :=
  match s.pc with
  | .flushing =>
    some <| match decode text with
      | .ok reply => { s.log (.received reply.version) with lastVersion := max s.lastVersion reply.version }
      | .error .client => s
      | .error .other => { s with pc := .ended }
  | .waiting =>
    some <| match decode text with
      | .ok reply =>
        if s.lastVersion < reply.version then
          { s.log (.received reply.version) with pc := .acting reply, lastVersion := reply.version }
        else s.log (.received reply.version)
      | .error _ => { s with pc := .ended }
  | _ => none

/-- The sending of an observation: after the flush in wall-clock mode, at any time by the other task. -/
def StreamState.send (s : StreamState K) : Option (StreamState K) :=
  match mode, s.pc with
  | .wall, .flushing => some { s.log .sent with pc := .waiting }
  | .simulation, .ended => none
  | .simulation, _ => some (s.log .sent)
  | _, _ => none

variable [Field K] [LinearOrder K] [FloorRing K] (config : AdapterConfig K)

/-- The use of a reply: it is packed, and published while the gate is open. -/
def StreamState.act (gate : Bool) (answer : Option Bool) (s : StreamState K) : Option (StreamState K) :=
  match s.pc with
  | .acting reply =>
    some <| match (config.pack reply.action none).run s.adapter with
      | .error _ adapter => { s with pc := .ended, adapter }
      | .ok m adapter =>
        let s := { s.log (.packed m) with adapter, pc := .head mode }
        if gate then
          match answer with
          | some true => s.log (.published reply.version m)
          | some false => s
          | none => { s with pc := .ended }
        else s
  | _ => none

/-- A run of a stream with a fresh adapter, for each way to decode the texts. -/
def streamMachine : Concurrency.Machine (StreamState K) (StreamInput T) where
  init s := s = { pc := .head mode }
  step s
    | .observe fresh => s.observe fresh
    | .receive text => s.receive decode text
    | .send => s.send mode
    | .act gate answer => s.act mode config gate answer
    | .stop => some { s with pc := .ended }

end
end HumanoidLab
