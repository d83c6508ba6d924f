import HumanoidLab.Lib.Pool

/-! Resets of the Isaac service (`simulators/isaac/service.py`): the simulation loop that applies them, the
    endpoints that queue them and serve the head camera (`camera_service.py`), and the client that waits for
    one (`psi0_bridge/reset_client.py`). A step is one read or write of a field that two threads share. -/

namespace HumanoidLab
open Concurrency

/-- A frame, and the episode in which the loop captured it. -/
structure FrameSnapshot (ι : Type) where
  rgb : ι
  episode : Nat
  sequence : Nat
  deriving DecidableEq, Repr

structure HeadCameraBuffer (ι : Type) where
  snapshot : Option (FrameSnapshot ι) := none
  sequence : Nat := 0
  invalidations : Nat := 0
  deriving DecidableEq, Repr

variable {ι : Type}

namespace HeadCameraBuffer

def publish (rgb : ι) (episode : Nat) (b : HeadCameraBuffer ι) : HeadCameraBuffer ι :=
  { b with sequence := b.sequence + 1, snapshot := some ⟨rgb, episode, b.sequence + 1⟩ }

def invalidate (b : HeadCameraBuffer ι) : HeadCameraBuffer ι :=
  { b with snapshot := none, invalidations := b.invalidations + 1 }

end HeadCameraBuffer

inductive ResetSource
  | ui
  | control
  deriving DecidableEq, Repr

/-- What a thread asks for: a reset, a reset with its applied boundary (`request_reset_applied`), or a
    frame. A client that gives up while its request is on the way is a thread that asks for a reset. -/
inductive SimCall
  | reset (source : ResetSource)
  | resetApplied
  | getFrame
  deriving DecidableEq, Repr

/-- What is recorded of a run: the iterations of the loop and the pieces of its resets; the requests, each by
    the number of events before it, and the episode that `request_reset_applied` returned for its request;
    the frames that were answered. -/
inductive SimEvent (ι : Type)
  | iterated
  | cleared
  | began
  | restored
  | bumped (episode : Nat)
  | accepted (n : Nat)
  | returned (n : Nat) (episode : Nat)
  | answered (f : FrameSnapshot ι)
  deriving DecidableEq, Repr

/-- What the threads share, and the record of the run, newest first. -/
structure Simulator (ι : Type) where
  episodeId : Nat := 0
  pendingReset : Bool := false
  resetSource : Option ResetSource := none
  camera : HeadCameraBuffer ι := {}
  log : List (SimEvent ι) := []
  deriving DecidableEq, Repr

def Simulator.record (e : SimEvent ι) (w : Simulator ι) : Simulator ι := { w with log := e :: w.log }

/-- Where a thread stands: the loop in `run` and `reset_episode`, or a call. `before` is the episode that
    `request_reset_applied` read first, and `n` the number of its request. -/
inductive SimPlace (ι : Type)
  -- `run`
  | top
  | look
  | clear
  | physics
  | rendered (rgb : ι)
  | finished
  -- `reset_episode`
  | begins
  | restore
  | bump
  | invalidate
  -- calls
  | idle
  | status
  | source (s : ResetSource) (before : Option Nat)
  | flag (before : Option Nat)
  | poll (n : Nat) (before : Nat)
  | frame
  | reply (f : FrameSnapshot ι)
  deriving DecidableEq, Repr

/-- What the environment decides: the call of a thread, whether the loop goes on, is paused or has rendered
    a frame, and a timeout. -/
inductive SimChoice (ι : Type)
  | go
  | quit
  | paused
  | render (rgb : ι)
  | timeout
  | call (c : SimCall)
  deriving DecidableEq, Repr

/-- The first statement of a call. -/
def SimCall.entry : SimCall → SimPlace ι
  | .reset s => .source s none
  | .resetApplied => .status
  | .getFrame => .frame

/-- One step of a thread. -/
def simStep (pl : SimPlace ι) (c : SimChoice ι) (w : Simulator ι) : Option (SimPlace ι × Simulator ι) :=
  match pl, c with
  -- `run`
  | .top, .go => some (.look, w.record .iterated)
  | .top, .quit => some (.finished, w)
  | .look, .go => some (if w.pendingReset then .clear else .physics, w)
  | .look, .paused => if w.pendingReset then none else some (.top, w)
  | .clear, .go => some (.begins, { w with pendingReset := false }.record .cleared)
  | .physics, .go => some (.top, w)
  | .physics, .render rgb => some (.rendered rgb, w)
  | .rendered rgb, .go => some (.top, { w with camera := w.camera.publish rgb w.episodeId })
  -- `reset_episode`: what precedes the episode id writes the robot and the scene back.
  | .begins, .go => some (.restore, w.record .began)
  | .restore, .go => some (.bump, w.record .restored)
  | .bump, .go => some (.invalidate, { w with episodeId := w.episodeId + 1 }.record (.bumped (w.episodeId + 1)))
  | .invalidate, .go => some (.physics, { w with camera := w.camera.invalidate })
  -- Calls.
  | .idle, .call c => some (c.entry, w)
  | .status, .go => some (.source .control (some w.episodeId), w)
  | .status, .timeout => some (.idle, w)
  -- `_queue_reset`
  | .source s before, .go => some (.flag before, { w with resetSource := some s })
  | .flag before, .go =>
    some (before.elim .idle (.poll w.log.length), { w with pendingReset := true }.record (.accepted w.log.length))
  | .poll n before, .go =>
    if before < w.episodeId then some (.idle, w.record (.returned n w.episodeId)) else some (.poll n before, w)
  | .poll _ _, .timeout => some (.idle, w)
  -- `HeadCameraEndpoint.handle`
  | .frame, .go => some (w.camera.snapshot.elim .idle .reply, w)
  | .reply f, .go => some (.idle, w.record (.answered f))
  | _, _ => none

/-- The simulation loop is thread 0; every other thread calls. -/
def simInit : Pool (Simulator ι) (SimPlace ι) := ⟨{}, fun i => if i = 0 then .top else .idle⟩

/-- Every interleaving of the loop and the calls. -/
def simMachine (ι : Type) : Machine (Pool (Simulator ι) (SimPlace ι)) (Nat × SimChoice ι) :=
  Threads.machine (fun _ => simStep) (· = simInit)

end HumanoidLab
