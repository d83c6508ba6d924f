import HumanoidLab.Lib.Mutex

/-! The session of the bridge (`psi0_bridge/session.py`): the fields of `Session`, the body of each
    `with self._lock` block as a function on them, and the calls and the streaming thread as programs
    over the lock. A thread's step is one statement between the blocks or one block. -/

namespace HumanoidLab
open Concurrency

/-- The four states of a session. -/
inductive SessionState
  | idle
  | running
  | stopped
  | error
  deriving DecidableEq, Repr

/-- The subset of `/info` that the bridge depends on, after validation. -/
structure ServerInfo where
  runDir : String
  actionDim : Nat
  actionChunkSize : Nat
  actionExecHorizon : Nat
  stateDim : Nat
  historyLength : Nat
  imageKey : String
  resizeSize : Nat × Nat
  centerCropSize : Nat × Nat
  normalizeState : Bool
  rtcEnabled : Bool
  ckptStep : Option Nat
  datasetName : String
  deriving DecidableEq, Repr

/-- The fields of `Session`. The thread handle and the camera frame are known by a number: a streaming
    thread by the generation it was started for. `halted` is the publisher's own send gate. -/
structure Session where
  state : SessionState := .idle
  error : Option String := none
  starting : Bool := false
  generation : Nat := 0
  thread : Option Nat := none
  stopEvent : Bool := false
  sendGate : Bool := false
  readyEvent : Bool := false
  info : Option ServerInfo := none
  wsConnected : Bool := false
  lastActionIndex : Option Nat := none
  sentCount : Nat := 0
  neckDiscardCount : Nat := 0
  policyFrame : Option Nat := none
  halted : Bool := true
  deriving DecidableEq, Repr

/-- What `status` reports of the session's own fields. -/
structure SessionStatus where
  state : SessionState
  error : Option String
  starting : Bool
  connected : Bool
  info : Option ServerInfo
  lastIndex : Option Nat
  sent : Nat
  neckPaddingDiscards : Nat
  deriving DecidableEq, Repr

namespace Session

/-! ### The blocks under the lock -/

/-- `start` accepted: the next generation is starting. -/
def accept (s : Session) : Session :=
  { s with starting := true, error := none, generation := s.generation + 1 }

/-- The last block of `stop`: a session that starts or runs becomes `STOPPED`. -/
def stopFinish (s : Session) : Session :=
  { s with
    state := if s.state ≠ .error ∧ (s.starting = true ∨ s.state = .running) then .stopped else s.state
    starting := false, thread := none, wsConnected := false }

/-- The block of `reset`; an error text of the scene reset that is not empty leaves `ERROR`. -/
def resetClear (resetError : Option String) (s : Session) : Session :=
  { s with
    generation := s.generation + 1, lastActionIndex := none, sentCount := 0, neckDiscardCount := 0
    policyFrame := none, error := resetError
    state := if (resetError.getD "").isEmpty then .idle else .error
    starting := false }

def markError (message : String) (s : Session) : Session :=
  { s with state := .error, error := some message, starting := false, wsConnected := false }

def adoptPolicy (info : ServerInfo) (s : Session) : Session :=
  { s with
    info := some info, error := none, starting := false
    state := if s.state ≠ .running then .idle else s.state }

/-- The block of `_run` that records `RUNNING`. -/
def announce (s : Session) : Session := { s with wsConnected := true, state := .running, starting := false }

/-- The block of `_fail`, for the current generation. -/
def fail (message : String) (s : Session) : Session :=
  { s with state := .error, error := some message, starting := false, wsConnected := false }

def status (s : Session) : SessionStatus where
  state := s.state
  error := s.error
  starting := s.starting
  connected := s.wsConnected && s.state == .running
  info := s.info
  lastIndex := s.lastActionIndex
  sent := s.sentCount
  neckPaddingDiscards := s.neckDiscardCount

def isCurrent (generation : Nat) (s : Session) : Bool := generation == s.generation && !s.stopEvent

def recordAction (frameIndex : Nat) (s : Session) : Session :=
  { s with lastActionIndex := some frameIndex, sentCount := s.sentCount + 1 }

end Session

/-! ### Calls -/

/-- A call on the session, with its argument. -/
inductive Request
  | start
  | stop
  | reset
  | markError (message : String)
  | adoptPolicy (info : ServerInfo)
  | status
  | info
  | previewFrame
  | refreshInfo
  deriving DecidableEq, Repr

/-- What a call returns or raises. -/
inductive Result
  | none
  | status (s : SessionStatus)
  | info (i : Option ServerInfo)
  | frame (f : Option Nat)
  | raised (message : String)
  deriving DecidableEq, Repr

/-- The points of a streaming thread between two blocks. -/
inductive LoopPoint
  | fetch
  | poll
  | fresh
  | connect
  | ready
  | stream
  | action (index : Nat)
  | gate (index : Nat)
  | publish (index : Nat)
  | failGate
  | failHalt
  | failStop
  | failReady
  deriving DecidableEq, Repr

/-- What a streaming thread does when `_is_current` answers yes. -/
inductive Check
  | fresh
  | connected
  | stream
  | observe (frame : Nat)
  | store (frame : Nat)
  | action (index : Nat)
  | publish (index : Nat)
  | record (index : Nat)
  deriving DecidableEq, Repr

/-- The blocks of a streaming thread. `disconnect` is the `finally` of the stream, with the failure that
    left it. -/
inductive LoopSection
  | setInfo (info : ServerInfo)
  | current (c : Check)
  | announce
  | readInfo
  | storeFrame (frame : Nat)
  | storeAction (index : Nat)
  | countNeck (index : Nat)
  | disconnect (failure : Option String)
  | fail (message : String)
  deriving DecidableEq, Repr

/-- The points of a thread between two blocks. `r` is the call that the statements of `stop` serve. -/
inductive Point
  | idle
  | done (r : Request) (res : Result)
  | startReady (generation : Nat)
  | startStop (generation : Nat)
  | startGate (generation : Nat)
  | startResume (generation : Nat)
  | startSpawn (generation : Nat)
  | startWait (generation : Nat)
  | stopGate (r : Request)
  | stopHalt (r : Request)
  | stopEvent (r : Request)
  | stopJoin (r : Request)
  | resetRequest
  | resetInvalidate (resetError : Option String)
  | markGate (message : String)
  | markHalt (message : String)
  | markStop (message : String)
  | markReady (message : String)
  | previewMonitor
  | fetchInfo
  | loop (generation : Nat) (p : LoopPoint)
  deriving DecidableEq, Repr

/-- The blocks under the lock. -/
inductive Section
  | startCheck
  | startThread (generation : Nat)
  | stopFinish (r : Request)
  | stopStatus
  | resetClear (resetError : Option String)
  | markError (message : String)
  | adoptPolicy (info : ServerInfo)
  | status (r : Request)
  | readInfo
  | readPreview
  | setInfo (info : ServerInfo)
  | loop (generation : Nat) (c : LoopSection)
  deriving DecidableEq, Repr

/-- What the environment decides at a step: the call a thread makes, the thread that the system runs,
    and the outcome of the network, the monitor, the adapter and the simulator. -/
inductive Choice
  | go
  | call (r : Request)
  | run (generation : Nat)
  | info (i : ServerInfo)
  | raise (message : String)
  | timeout
  | absent
  | check
  | observe (frame : Nat)
  | reply (index : Nat)
  | neck
  | published (b : Bool)
  | reset (resetError : Option String)
  | frame (f : Option Nat)
  deriving DecidableEq, Repr

/-! ### The program -/

/-- What is recorded of a run besides the fields, newest first: calls and returns, the starts that were
    accepted, and the blocks of `stop`, `mark_error` and `_fail` that end one. -/
inductive Event
  | call (i : Nat) (r : Request)
  | ret (i : Nat) (r : Request)
  | accepted (generation : Nat)
  | ended
  deriving DecidableEq, Repr

/-- The session, the streaming threads that were started and do not run yet, and the record of the run. -/
structure World where
  session : Session := {}
  spawned : List Nat := []
  log : List Event := []
  deriving DecidableEq, Repr

/-- The first statement of a call. -/
def Request.entry : Request → Next Point Section
  | .start => .enter .startCheck
  | .stop => .goto (.stopGate .stop)
  | .reset => .goto (.stopGate .reset)
  | .markError message => .enter (.markError message)
  | .adoptPolicy i => .enter (.adoptPolicy i)
  | .status => .enter (.status .status)
  | .info => .enter .readInfo
  | .previewFrame => .enter .readPreview
  | .refreshInfo => .goto .fetchInfo

/-- The statements of `_run` and of the streams between the blocks. The pieces of a stream (an
    observation, a check, an action) come in any order at `stream`: observation before action on the
    wall clock, and as two tasks on the simulation clock. -/
def loopPoint (g : Nat) (p : LoopPoint) (c : Choice) (w : World) : Option (Next Point Section × World) :=
  match p, c with
  | .fetch, .info i => some (.enter (.loop g (.setInfo i)), w)
  | .fetch, .raise m => some (.enter (.loop g (.fail m)), w)
  -- `_wait_ready`: check until the deadline, then look at the snapshots.
  | .poll, .go => some (.enter (.loop g (.current .fresh)), w)
  | .poll, .timeout => some (.enter (.loop g (.fail "not ready: no fresh g1_debug state or camera frame")), w)
  | .fresh, .go => some (.goto (.loop g .connect), w)
  | .fresh, .absent => some (.goto (.loop g .poll), w)
  | .connect, .go => some (.enter (.loop g (.current .connected)), w)
  | .connect, .raise m => some (.enter (.loop g (.fail m)), w)
  | .ready, .go => some (.enter (.loop g .readInfo), { w with session := { w.session with readyEvent := true } })
  | .stream, .check => some (.enter (.loop g (.current .stream)), w)
  | .stream, .observe f => some (.enter (.loop g (.current (.observe f))), w)
  | .stream, .raise m => some (.enter (.loop g (.disconnect (some m))), w)
  -- `_wait_action` gives up when a stop was requested.
  | .stream, .reply n =>
    if w.session.stopEvent = true ∨ w.session.sendGate = false then some (.enter (.loop g (.disconnect none)), w)
    else some (.goto (.loop g (.action n)), w)
  | .action n, .check => some (.enter (.loop g (.current (.action n))), w)
  | .action n, .go => some (.goto (.loop g (.gate n)), w)
  | .action n, .neck => some (.enter (.loop g (.countNeck n)), w)
  | .action _, .raise m => some (.enter (.loop g (.disconnect (some m))), w)
  | .gate n, .go =>
    if w.session.sendGate then some (.enter (.loop g (.current (.publish n))), w) else some (.goto (.loop g .stream), w)
  | .publish n, .published b =>
    if !w.session.halted && b then some (.enter (.loop g (.current (.record n))), w) else some (.goto (.loop g .stream), w)
  -- A sink that is a queue of the router may be full.
  | .publish _, .raise m => if w.session.halted then none else some (.enter (.loop g (.disconnect (some m))), w)
  | .failGate, .go => some (.goto (.loop g .failHalt), { w with session := { w.session with sendGate := false } })
  | .failHalt, .go => some (.goto (.loop g .failStop), { w with session := { w.session with halted := true } })
  | .failStop, .go => some (.goto (.loop g .failReady), { w with session := { w.session with stopEvent := true } })
  | .failReady, .go => some (.goto .idle, { w with session := { w.session with readyEvent := true } })
  | _, _ => none

/-- The statements between the blocks. -/
def point (i : Nat) (p : Point) (c : Choice) (w : World) : Option (Next Point Section × World) :=
  match p, c with
  | .idle, .call r => some (r.entry, { w with log := .call i r :: w.log })
  | .idle, .run g => if g ∈ w.spawned then some (.goto (.loop g .fetch), { w with spawned := w.spawned.erase g }) else none
  | .done r _, .go => some (.goto .idle, { w with log := .ret i r :: w.log })
  | .startReady g, .go => some (.goto (.startStop g), { w with session := { w.session with readyEvent := false } })
  | .startStop g, .go => some (.goto (.startGate g), { w with session := { w.session with stopEvent := false } })
  | .startGate g, .go => some (.goto (.startResume g), { w with session := { w.session with sendGate := true } })
  | .startResume g, .go => some (.enter (.startThread g), { w with session := { w.session with halted := false } })
  | .startSpawn g, .go => some (.goto (.startWait g), { w with spawned := g :: w.spawned })
  -- The wait ends with the event or with its timeout.
  | .startWait _, .go => some (.enter (.status .start), w)
  | .stopGate r, .go => some (.goto (.stopHalt r), { w with session := { w.session with sendGate := false } })
  | .stopHalt r, .go => some (.goto (.stopEvent r), { w with session := { w.session with halted := true } })
  | .stopEvent r, .go => some (.goto (.stopJoin r), { w with session := { w.session with stopEvent := true } })
  -- The join ends with the thread or with its timeout.
  | .stopJoin r, .go => some (.enter (.stopFinish r), w)
  | .resetRequest, .reset e => some (.goto (.resetInvalidate e), w)
  | .resetInvalidate e, .go => some (.enter (.resetClear e), w)
  | .markGate m, .go => some (.goto (.markHalt m), { w with session := { w.session with sendGate := false } })
  | .markHalt m, .go => some (.goto (.markStop m), { w with session := { w.session with halted := true } })
  | .markStop m, .go => some (.goto (.markReady m), { w with session := { w.session with stopEvent := true } })
  | .markReady m, .go => some (.enter (.status (.markError m)), { w with session := { w.session with readyEvent := true } })
  | .previewMonitor, .frame f => some (.goto (.done .previewFrame (.frame f)), w)
  | .fetchInfo, .info i => some (.enter (.setInfo i), w)
  | .fetchInfo, .raise m => some (.goto (.done .refreshInfo (.raised m)), w)
  | .loop g p, c => loopPoint g p c w
  | _, _ => none

/-- Where a streaming thread goes after `_is_current`. -/
def Check.next (g : Nat) (current : Bool) : Check → Next Point Section
  | .fresh => if current then .goto (.loop g .fresh) else .goto .idle
  | .connected => if current then .enter (.loop g .announce) else .goto .idle
  | .stream => if current then .goto (.loop g .stream) else .enter (.loop g (.disconnect none))
  | .observe f => if current then .enter (.loop g (.current (.store f))) else .enter (.loop g (.disconnect none))
  | .store f => if current then .enter (.loop g (.storeFrame f)) else .goto (.loop g .stream)
  | .action n => if current then .goto (.loop g (.action n)) else .enter (.loop g (.disconnect none))
  | .publish n => if current then .goto (.loop g (.publish n)) else .goto (.loop g .stream)
  | .record n => if current then .enter (.loop g (.storeAction n)) else .goto (.loop g .stream)

/-- The blocks of a streaming thread. -/
def loopBody (g : Nat) (c : LoopSection) (s : Session) : Next Point Section × Session :=
  match c with
  | .setInfo i => (.goto (.loop g .poll), { s with info := some i })
  | .current k => (k.next g (s.isCurrent g), s)
  | .announce => if g = s.generation then (.goto (.loop g .ready), s.announce) else (.goto .idle, s)
  | .readInfo =>
    if ((s.info.map ServerInfo.datasetName).getD "").isEmpty then
      (.enter (.loop g (.disconnect (some "SessionError: no validated /info dataset_name; refusing to stream"))), s)
    else (.goto (.loop g .stream), s)
  | .storeFrame f => (.goto (.loop g .stream), { s with policyFrame := some f })
  | .storeAction n => (.goto (.loop g .stream), s.recordAction n)
  | .countNeck n => (.goto (.loop g (.gate n)), { s with neckDiscardCount := s.neckDiscardCount + 1 })
  | .disconnect none => (.goto .idle, { s with wsConnected := false })
  | .disconnect (some m) => (.enter (.loop g (.fail m)), { s with wsConnected := false })
  | .fail m => if g = s.generation then (.goto (.loop g .failGate), s.fail m) else (.goto .idle, s)

/-- A failure of the current generation ends its start. -/
def LoopSection.record (g : Nat) (s : Session) : LoopSection → Option Event
  | .fail _ => if g = s.generation then some .ended else none
  | _ => none

/-- The blocks under the lock. `start` of a session that starts or runs returns the status from inside
    its block, and `status` acquires the lock. -/
def body (_ : Nat) (c : Section) (w : World) : Exit Point Section × World :=
  let s := w.session
  match c with
  | .startCheck =>
    if s.starting = true ∨ s.state = .running then (.nest (.status .start), w)
    else if s.state = .error then
      (.release (.goto (.done .start (.raised "session is in ERROR; Reset before Start"))), w)
    else (.release (.goto (.startReady (s.generation + 1))),
      { w with session := s.accept, log := .accepted (s.generation + 1) :: w.log })
  | .startThread g => (.release (.goto (.startSpawn g)), { w with session := { s with thread := some g } })
  | .stopFinish r =>
    (.release (.enter (if r = .reset then .stopStatus else .status r)),
      { w with session := s.stopFinish, log := .ended :: w.log })
  | .stopStatus => (.release (.goto .resetRequest), w)
  | .resetClear e => (.release (.enter (.status .reset)), { w with session := s.resetClear e })
  | .markError m => (.release (.goto (.markGate m)), { w with session := s.markError m, log := .ended :: w.log })
  | .adoptPolicy i => (.release (.goto (.done (.adoptPolicy i) .none)), { w with session := s.adoptPolicy i })
  | .status r => (.release (.goto (.done r (.status s.status))), w)
  | .readInfo => (.release (.goto (.done .info (.info s.info))), w)
  | .readPreview =>
    match s.policyFrame with
    | some f => (.release (.goto (.done .previewFrame (.frame (some f)))), w)
    | none => (.release (.goto .previewMonitor), w)
  | .setInfo i => (.release (.goto (.done .refreshInfo (.info (some i)))), { w with session := { s with info := some i } })
  | .loop g c =>
    (.release (loopBody g c s).1, { w with session := (loopBody g c s).2, log := (c.record g s).toList ++ w.log })

/-- The session as a program over its lock. -/
def sessionProgram : Locking World Point Section Choice := ⟨point, body⟩

/-- A new session: the lock is free, and no thread has called it yet. -/
def sessionInit : Pool (Guarded World) (Place Point Section) := ⟨⟨none, {}⟩, fun _ => .at .idle⟩

/-- Every interleaving of calls and streaming threads over one session. -/
def sessionMachine : Machine (Pool (Guarded World) (Place Point Section)) (Nat × Choice) :=
  sessionProgram.threads.machine (· = sessionInit)

end HumanoidLab
