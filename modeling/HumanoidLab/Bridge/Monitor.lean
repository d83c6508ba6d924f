import HumanoidLab.Bridge.Session
import HumanoidLab.Simulators.Reset

/-! The observations that a session streams (`psi0_bridge/monitor.py`, and what `session.py` reads of it). The
    simulator captures states and frames, the monitor thread polls and caches them, and the session's threads read
    the cache. A state stands for the episode in which it was captured. -/

namespace HumanoidLab
open Concurrency

/-- Where the monitor thread stands in a pass: at `_poll_state`, before the camera or again after it, with a payload
    in hand; at `_poll_camera`, waiting for the endpoint, with a frame in hand. -/
inductive MonitorPlace
  | poll (again : Bool)
  | polled (again : Bool) (state : Nat)
  | fetch
  | asked
  | fetched (f : FrameSnapshot Nat)
  deriving DecidableEq, Repr

/-- The monitor thread and the cache. -/
structure Monitor where
  place : MonitorPlace := .poll false
  state : Option Nat := none
  frame : Option (FrameSnapshot Nat) := none
  deriving DecidableEq, Repr

def Monitor.invalidate (m : Monitor) : Monitor := { m with state := none, frame := none }

/-- After a poll of the state comes the camera, or the next pass. -/
def MonitorPlace.next (again : Bool) : MonitorPlace := if again then .poll false else .fetch

/-- What a streaming thread has read of the cache: the state, then the frame. -/
inductive Reading
  | state (s : Nat)
  | observation (s : Nat) (f : FrameSnapshot Nat)
  deriving DecidableEq, Repr

/-- How far a call of `reset` is: its request was sent, it was accepted for the reset that begins episode `due`, and
    the cache was dropped since. -/
inductive ResetProgress
  | none
  | sent
  | accepted (due : Nat)
  | dropped (due : Nat)
  deriving DecidableEq, Repr

/-- An observation that was streamed, and the episode that the resets before the last start began. -/
structure Streamed where
  state : Nat
  frame : FrameSnapshot Nat
  required : Nat
  deriving DecidableEq, Repr

/-- The session's threads, the simulator's loop and endpoints, the states that are held or sent on by the deployment,
    the newest one in the socket of the monitor, and the monitor. Thread `2 * i + 2` of the simulator serves the reset
    of thread `i` of the session, and thread 1 the camera client. What follows is recorded for the statements: how far
    each reset is, the episode that the resets that returned began, and what was streamed, newest first. -/
structure Observatory where
  session : Pool (Guarded World) (Place Point Section)
  sim : Pool (Simulator Nat) (SimPlace Nat)
  wire : List Nat := []
  socket : Option Nat := none
  monitor : Monitor := {}
  readings : List (Nat × Reading) := []
  progress : Nat → ResetProgress := fun _ => .none
  settled : Nat := 0
  required : Nat := 0
  streamed : List Streamed := []

/-- What happens: a thread of the session or the simulator takes a step, a thread of the session asks for its reset,
    reads the state or sends what it has read, the deployment publishes or forgets a state, and the monitor goes on
    (`ok` when the poll or the fetch has succeeded). -/
inductive ObservatoryInput
  | session (i : Nat) (c : Choice)
  | ask (i : Nat)
  | read (i : Nat)
  | send (i : Nat)
  | sim (i : Nat) (c : SimChoice Nat)
  | publish (k : Nat)
  | forget (k : Nat)
  | monitor (ok : Bool)
  deriving DecidableEq, Repr

/-- The resets that the loop has taken from the flag. -/
def clears (l : List (SimEvent Nat)) : Nat := l.countP fun
  | .cleared => true
  | _ => false

def requester (i : Nat) : Nat := 2 * i + 2

/-- A thread whose `start` was accepted. -/
def starts : Place Point Section → Bool
  | .at (.startReady _) => true
  | _ => false

namespace Observatory

def reading (i : Nat) (b : Observatory) : Option Reading := b.readings.lookup i

def drop (i : Nat) (b : Observatory) : Observatory := { b with readings := b.readings.filter (·.1 ≠ i) }

def hold (i : Nat) (r : Reading) (b : Observatory) : Observatory := { b with readings := (i, r) :: (b.drop i).readings }

def advance (i : Nat) (p : ResetProgress) (b : Observatory) : Observatory :=
  { b with progress := Function.update b.progress i p }

/-- What a step of a session's thread needs of the monitor and the endpoint, and does to them. -/
def effect (i : Nat) (pl : Place Point Section) (c : Choice) (b : Observatory) : Option Observatory :=
  match pl, c with
  | .at .idle, .run _ => some (b.drop i)
  | .at (.loop _ .fresh), .go =>
    match b.reading i, b.monitor.frame with
    | some (.state _), some _ => some (b.drop i)
    | _, _ => none
  | .at (.loop _ .stream), .observe f =>
    match b.reading i, b.monitor.frame with
    | some (.state s), some frame => if frame.rgb = f then some (b.hold i (.observation s frame)) else none
    | _, _ => none
  | .at .resetRequest, .reset none =>
    match b.progress i with
    | .accepted _ => some b
    | _ => none
  | .at .resetRequest, .reset (some _) => some (b.advance i .none)
  | .at (.resetInvalidate _), .go =>
    let b := { b with monitor := b.monitor.invalidate }
    match b.progress i with
    | .accepted due => some (b.advance i (.dropped due))
    | _ => some b
  | .inside (.resetClear _), _ =>
    match b.progress i with
    | .dropped due => some { b.advance i .none with settled := max b.settled due }
    | _ => some b
  | _, _ => some b

/-- A step of a session's thread. -/
def sessionStep (i : Nat) (c : Choice) (b : Observatory) : Option Observatory :=
  (sessionMachine.step b.session (i, c)).bind fun p =>
    (b.effect i (b.session.threads i) c).map fun b' =>
      { b' with session := p, required := if starts (p.threads i) then b'.settled else b'.required }

/-- What a step of the simulator captures, answers to the camera client and accepts. -/
def captured (i : Nat) (pl : SimPlace Nat) (b : Observatory) : Observatory :=
  match pl with
  | .physics => { b with wire := b.wire ++ [b.sim.shared.episodeId] }
  | .reply f => if i = 1 ∧ b.monitor.place = .asked then { b with monitor := { b.monitor with place := .fetched f } } else b
  | .flag none =>
    let accepted := .accepted (clears b.sim.shared.log + 1)
    { b with progress := fun j => if requester j = i ∧ b.progress j = .sent then accepted else b.progress j }
  | _ => b

/-- A step of the simulator. -/
def simStep (i : Nat) (c : SimChoice Nat) (b : Observatory) : Option Observatory :=
  ((simMachine Nat).step b.sim (i, c)).map fun p => { b.captured i (b.sim.threads i) with sim := p }

/-- A step of the monitor thread. -/
def monitorStep (ok : Bool) (b : Observatory) : Option Observatory :=
  match b.monitor.place, ok with
  | .poll again, true => b.socket.map fun s => { b with socket := none, monitor := { b.monitor with place := .polled again s } }
  | .poll again, false => some { b with socket := none, monitor := { b.monitor with place := .next again } }
  | .polled again s, true => some { b with monitor := { b.monitor with place := .next again, state := some s } }
  | .polled again _, false => some { b with monitor := { b.monitor with place := .next again } }
  | .fetch, true => (b.simStep 1 (.call .getFrame)).map fun b => { b with monitor := { b.monitor with place := .asked } }
  | .asked, true => none
  | .fetched f, true => some { b with monitor := { b.monitor with place := .poll true, frame := some f } }
  | .fetch, false | .asked, false | .fetched _, false => some { b with monitor := { b.monitor with place := .poll true } }

/-- A streaming thread reads the state, in `_wait_ready` or in its stream. -/
def readState (i : Nat) (b : Observatory) : Option Observatory :=
  match b.session.threads i with
  | .at (.loop _ .fresh) | .at (.loop _ .stream) => b.monitor.state.map fun s => b.hold i (.state s)
  | _ => none

/-- A streaming thread sends the observation that it has read. -/
def sendObservation (i : Nat) (b : Observatory) : Option Observatory :=
  match b.session.threads i, b.reading i with
  | .at (.loop _ .stream), some (.observation s f) => some { b.drop i with streamed := ⟨s, f, b.required⟩ :: b.streamed }
  | _, _ => none

/-- A thread of the session asks for its reset. -/
def askReset (i : Nat) (b : Observatory) : Option Observatory :=
  match b.session.threads i, b.progress i with
  | .at .resetRequest, .none => (b.simStep (requester i) (.call (.reset .control))).map (·.advance i .sent)
  | _, _ => none

def step (b : Observatory) : ObservatoryInput → Option Observatory
  | .session i c => b.sessionStep i c
  | .ask i => b.askReset i
  | .read i => b.readState i
  | .send i => b.sendObservation i
  -- Other clients call on the other threads of the simulator.
  | .sim i (.call r) => if i % 2 = 1 ∧ i ≠ 1 then b.simStep i (.call r) else none
  | .sim i c => b.simStep i c
  | .publish k => b.wire[k]?.map fun s => { b with socket := some s }
  | .forget k => some { b with wire := b.wire.eraseIdx k }
  | .monitor ok => b.monitorStep ok

end Observatory

def observatoryMachine : Machine Observatory ObservatoryInput where
  init b := b = ⟨sessionInit, simInit, [], none, {}, [], fun _ => .none, 0, 0, []⟩
  step := Observatory.step

end HumanoidLab
