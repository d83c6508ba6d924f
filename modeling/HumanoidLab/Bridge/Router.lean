import HumanoidLab.Lib.Pool

/-! The action router of the bridge (`psi0_bridge/action_router.py`): one thread that forwards the
    selected source to the public action port, and the calls that select a source, open and close the gate
    and hand payloads over. A step is one block under the router's lock, one operation of a queue or one
    operation of a socket. -/

namespace HumanoidLab
open Concurrency

/-- What may be selected (`SOURCES`). -/
inductive Source
  | psi
  | groot
  | warmstart
  | initialPose
  deriving DecidableEq, Repr

/-- The sources that hand their payloads over in a queue: `_psi`, `_warmstart` and `_initial_pose`. -/
inductive Feed
  | psi
  | warmstart
  | initialPose
  deriving DecidableEq, Repr

def Feed.source : Feed → Source
  | .psi => .psi
  | .warmstart => .warmstart
  | .initialPose => .initialPose

/-- The queue that `select`, `halt` and `_serve` come to after this one. -/
def Feed.next : Feed → Option Feed
  | .psi => some .warmstart
  | .warmstart => some .initialPose
  | .initialPose => none

/-- The fields under the router's lock. -/
structure RouterCore where
  source : Source := .psi
  gate : Bool := false
  closed : Bool := false
  generation : Nat := 0
  sent : Nat := 0
  deriving DecidableEq, Repr

namespace RouterCore

/-- The block of `select`. -/
def select (s : Source) (r : RouterCore) : RouterCore :=
  { r with source := s, gate := false, generation := r.generation + 1 }

/-- The block of `resume`, which raises once the router is closed. -/
def resume (r : RouterCore) : Except String RouterCore :=
  if r.closed then .error "action router is closed" else .ok { r with gate := true }

/-- The block of `halt`. -/
def halt (r : RouterCore) : RouterCore := { r with gate := false, generation := r.generation + 1 }

/-- The block of `close`, of a router that is open. -/
def close (r : RouterCore) : RouterCore := { r with closed := true, gate := false }

/-- `_accept`, which is also what `_submit` asks. -/
def accept (s : Source) (r : RouterCore) : Bool := r.gate && r.source == s && !r.closed

/-- The block of `_forward_psi`, `_forward_warmstart` and `_forward_initial_pose`. -/
def forwards (f : Feed) (generation : Nat) (r : RouterCore) : Bool :=
  r.gate && r.source == f.source && generation == r.generation

/-- The block of `_record`. -/
def record (r : RouterCore) : RouterCore := { r with sent := r.sent + 1 }

end RouterCore

/-- A payload with the generation it was handed over in. The queues carry the generation; for a payload
    of the GR00T client it is a record only, as the ticket is for all, which tells payloads apart. -/
structure Entry (κ : Type) where
  generation : Nat
  ticket : Nat
  payload : κ
  deriving DecidableEq, Repr

variable {κ : Type}

inductive RouterCall (κ : Type)
  | select (s : Source)
  | resume
  | halt
  | submit (f : Feed) (payload : κ)
  | sendControl (payload : κ)
  | close
  deriving DecidableEq, Repr

/-- What a call returns or raises. -/
inductive RouterResult
  | none
  | accepted (b : Bool)
  | raised (error : String)
  deriving DecidableEq, Repr

/-- What is recorded of a run: payloads that the router was handed, by an accepted `submit` or by the
    GR00T client, and payloads that were sent; calls by their number, and their returns. -/
inductive RouterEvent (κ : Type)
  | handed (s : Source) (e : Entry κ)
  | sent (s : Source) (e : Entry κ)
  | began (n : Nat) (r : RouterCall κ)
  | returned (n : Nat) (r : RouterCall κ)
  deriving DecidableEq, Repr

/-- The router: its fields, its queues, the messages of the GR00T client that wait at the socket, and the
    record of the run, newest first. -/
structure Router (κ : Type) where
  core : RouterCore := {}
  queue : Feed → List (Entry κ) := fun _ => []
  inbox : List (Entry κ) := []
  control : List κ := []
  stop : Bool := false
  log : List (RouterEvent κ) := []

namespace Router

def setQueue (w : Router κ) (f : Feed) (q : List (Entry κ)) : Router κ :=
  { w with queue := fun g => if g = f then q else w.queue g }

/-- An entry of the current generation; its ticket is the number of events before it. -/
def entry (w : Router κ) (payload : κ) : Entry κ := ⟨w.core.generation, w.log.length, payload⟩

end Router

/-- Where a thread stands: the router thread in `_serve`, or a caller in call number `n`. -/
inductive RouterPlace (κ : Type)
  -- `_serve`, `_forward_control` and the three forwards
  | serve
  | poll
  | recv
  | acceptGroot (e : Entry κ)
  | sendGroot (e : Entry κ)
  | recordGroot
  | control
  | sendControl (payload : κ)
  | take (f : Feed)
  | check (f : Feed) (e : Entry κ)
  | send (f : Feed) (e : Entry κ)
  | record (f : Feed)
  | finished
  -- calls
  | idle
  | lock (n : Nat) (r : RouterCall κ)
  | drain (n : Nat) (r : RouterCall κ) (f : Feed)
  | put (n : Nat) (f : Feed) (e : Entry κ)
  | drop (n : Nat) (f : Feed) (e : Entry κ)
  | putAgain (n : Nat) (f : Feed) (e : Entry κ)
  | controlPut (n : Nat) (payload : κ)
  | controlDrop (n : Nat) (payload : κ)
  | controlAgain (n : Nat) (payload : κ)
  | closeStop (n : Nat)
  | closeJoin (n : Nat)
  | done (n : Nat) (r : RouterCall κ) (res : RouterResult)
  deriving DecidableEq, Repr

/-- What the environment decides: the call a thread makes, a message of the GR00T client, and whether the
    poll sees a message at the socket. -/
inductive RouterChoice (κ : Type)
  | go
  | call (r : RouterCall κ)
  | publish (payload : κ)
  | readable
  deriving DecidableEq, Repr

/-- The place of a thread that goes on to forward `f`, or polls again when there is no queue left. -/
def forwardNext (f : Option Feed) : RouterPlace κ := f.elim .serve .take

/-- The capacity of a queue of payloads, and of the queue of control commands. -/
def queueSize : Nat := 2
def controlSize : Nat := 4

/-- The block under the lock that a call begins with, or its first statement where it has none. -/
def routerLock (n : Nat) (r : RouterCall κ) (w : Router κ) : RouterPlace κ × Router κ :=
  match r with
  | .select s => (.drain n r .psi, { w with core := w.core.select s })
  | .resume =>
    match w.core.resume with
    | .ok core => (.done n r .none, { w with core })
    | .error m => (.done n r (.raised m), w)
  | .halt => (.drain n r .psi, { w with core := w.core.halt })
  | .submit f payload =>
    if w.core.accept f.source then
      (.put n f (w.entry payload), { w with log := .handed f.source (w.entry payload) :: w.log })
    else (.done n r (.accepted false), w)
  | .sendControl payload => (.controlPut n payload, w)
  | .close => if w.core.closed then (.done n r .none, w) else (.closeStop n, { w with core := w.core.close })

/-- One step of a thread. -/
def routerStep (pl : RouterPlace κ) (c : RouterChoice κ) (w : Router κ) : Option (RouterPlace κ × Router κ) :=
  match pl, c with
  -- `_serve`
  | .serve, .go => some (if w.stop then .finished else .poll, w)
  | .poll, .go => some (.control, w)
  | .poll, .readable => if w.inbox = [] then none else some (.recv, w)
  | .recv, .go =>
    match w.inbox with
    | [] => none
    | e :: es => some (.acceptGroot e, { w with inbox := es })
  | .acceptGroot e, .go => some (if w.core.accept .groot then .sendGroot e else .control, w)
  | .sendGroot e, .go => some (.recordGroot, { w with log := .sent .groot e :: w.log })
  | .recordGroot, .go => some (.control, { w with core := w.core.record })
  -- `_forward_control`
  | .control, .go =>
    match w.control with
    | [] => some (.take .psi, w)
    | k :: ks => some (.sendControl k, { w with control := ks })
  | .sendControl _, .go => some (.control, w)
  -- `_forward_psi`, `_forward_warmstart`, `_forward_initial_pose`
  | .take f, .go =>
    match w.queue f with
    | [] => some (forwardNext f.next, w)
    | e :: es => some (.check f e, w.setQueue f es)
  | .check f e, .go => some (if w.core.forwards f e.generation then .send f e else .take f, w)
  | .send f e, .go => some (.record f, { w with log := .sent f.source e :: w.log })
  | .record f, .go => some (.take f, { w with core := w.core.record })
  -- Calls, and the GR00T client.
  | .idle, .call r => some (.lock w.log.length r, { w with log := .began w.log.length r :: w.log })
  | .idle, .publish payload =>
    some (.idle, { w with
      inbox := w.inbox ++ [w.entry payload], log := .handed .groot (w.entry payload) :: w.log })
  | .lock n r, .go => some (routerLock n r w)
  -- `_drain_psi`, `_drain_warmstart`, `_drain_initial_pose`
  | .drain n r f, .go =>
    match w.queue f with
    | [] => some (f.next.elim (.done n r .none) (.drain n r), w)
    | _ :: es => some (.drain n r f, w.setQueue f es)
  -- `_submit`, after its block
  | .put n f e, .go =>
    if (w.queue f).length < queueSize then
      some (.done n (.submit f e.payload) (.accepted true), w.setQueue f (w.queue f ++ [e]))
    else some (.drop n f e, w)
  | .drop n f e, .go => some (.putAgain n f e, w.setQueue f (w.queue f).tail)
  | .putAgain n f e, .go =>
    if (w.queue f).length < queueSize then
      some (.done n (.submit f e.payload) (.accepted true), w.setQueue f (w.queue f ++ [e]))
    else some (.done n (.submit f e.payload) (.raised "queue.Full"), w)
  -- `send_control`
  | .controlPut n k, .go =>
    if w.control.length < controlSize then
      some (.done n (.sendControl k) .none, { w with control := w.control ++ [k] })
    else some (.controlDrop n k, w)
  | .controlDrop n k, .go =>
    match w.control with
    | [] => some (.done n (.sendControl k) (.raised "queue.Empty"), w)
    | _ :: ks => some (.controlAgain n k, { w with control := ks })
  | .controlAgain n k, .go =>
    if w.control.length < controlSize then
      some (.done n (.sendControl k) .none, { w with control := w.control ++ [k] })
    else some (.done n (.sendControl k) (.raised "queue.Full"), w)
  -- `close`; the join ends with the thread or with its timeout.
  | .closeStop n, .go => some (.closeJoin n, { w with stop := true })
  | .closeJoin n, .go => some (.done n .close .none, w)
  | .done n r _, .go => some (.idle, { w with log := .returned n r :: w.log })
  | _, _ => none

/-- The router thread is thread 0; every other thread calls the router. -/
def routerInit : Pool (Router κ) (RouterPlace κ) := ⟨{}, fun i => if i = 0 then .serve else .idle⟩

/-- Every interleaving of the router thread, the callers and the GR00T client. -/
def routerMachine (κ : Type) : Machine (Pool (Router κ) (RouterPlace κ)) (Nat × RouterChoice κ) :=
  Threads.machine (fun _ => routerStep) (· = routerInit)

end HumanoidLab
