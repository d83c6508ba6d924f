import HumanoidLab.Bridge.Controller

/-! The model controller (`psi0_bridge/model_controller.py`) called from several threads, beside the streaming threads of the PSI
    session and the thread of the router. A call is a list of statements, and a thread takes one step at a time: a statement, or
    a step of the session or of the router that its statement has called. What a statement meets outside is its choice. -/

namespace HumanoidLab
open Concurrency

/-- What may reach the action port: an action of the session, a command to SONIC, a message of another source. -/
inductive PortMessage
  | action (index : Nat)
  | command (planner : Bool)
  | foreign (n : Nat)
  deriving DecidableEq, Repr

/-- A call of the web API. -/
inductive ModelCall
  | start
  | stop
  | reset
  | switch (id : String)
  | status
  deriving DecidableEq, Repr

/-- Where a call asks `_active` and goes on by the kind of the model. -/
inductive ActiveRead
  | start
  | stop
  | reset
  | status
  deriving DecidableEq, Repr

/-- The `try` statements with an `except`: of a reset, of a switch, and of the rollback after a failure. -/
inductive Attempt
  | reset
  | switch (target previous : ModelEntry)
  | rollback (target previous : ModelEntry) (failure : Exn)
  deriving DecidableEq, Repr

/-- The statements of the controller. A statement outside touches a process, the policy server or the VLA client. -/
inductive Statement
  | refuseSwitching
  | refuseError
  | active (r : ActiveRead)
  | router (r : RouterCall PortMessage)
  | session (r : Request)
  | outside
  | request
  | verify
  | prepare
  | arm
  -- The blocks under the controller's lock.
  | adopt (s : SessionStatus)
  | run
  | halt
  | ready
  | fail (text : String)
  | report
  -- The frame of a switch.
  | lookup (id : String)
  | acquire (target : ModelEntry)
  | mark (target : ModelEntry)
  | previous (target : ModelEntry)
  | select (e : ModelEntry)
  | unmark
  | release
  | attempt (t : Attempt)
  | caught (t : Attempt)
  | raise (e : Exn)
  deriving DecidableEq, Repr

/-! ### The programs -/

def statusCode : List Statement := [.active .status]

def stopCode : List Statement := [.router .halt, .active .stop, .halt] ++ statusCode

/-- `_prepare_groot`, whose wait for SONIC may give up. -/
def prepareCode : List Statement := [.router (.select .groot), .router .resume, .prepare, .router .halt]

/-- `_start_backend`. -/
def startBackend (e : ModelEntry) : List Statement :=
  match e.kind, e.runDir, e.step with
  | .psi, some _, some _ => [.outside, .verify, .router (.select .psi)]
  | .psi, _, _ => [.raise ⟨"AssertionError", ""⟩]
  | .groot, _, _ => [.outside, .router (.select .groot)] ++ prepareCode

/-- `_stop_backend`. -/
def stopBackend (e : ModelEntry) : List Statement :=
  match e.kind with
  | .psi => [.router .halt, .session .stop, .outside]
  | .groot => [.router .halt, .outside]

/-- What follows on a read of the active model. The status that `Session.start` returns is adopted after it; the keys that go to
    the VLA client are left out. -/
def ActiveRead.code : ActiveRead → Kind → List Statement
  | .start, .psi =>
    [.router (.select .psi), .router (.sendControl (.command true)), .router (.sendControl (.command false)), .router .resume,
      .session .start]
  | .start, .groot => [.outside, .router (.select .groot), .router .resume, .run]
  | .stop, .psi => [.session .stop]
  | .stop, .groot => []
  | .reset, .psi => [.request, .ready] ++ statusCode
  | .reset, .groot => [.outside, .request, .attempt .reset, .ready, .arm] ++ statusCode
  | .status, .psi => [.report, .session .status]
  | .status, .groot => [.report]

def ModelCall.code : ModelCall → List Statement
  | .start => [.refuseSwitching, .refuseError, .active .start] ++ statusCode
  | .stop => stopCode
  | .reset => stopCode ++ [.active .reset]
  | .switch id => [.lookup id]
  | .status => statusCode

/-- The `finally` of `switch`, and the status that it returns. -/
def switchEnd : List Statement := [.unmark, .release] ++ statusCode

/-- The body of `switch` between two models. -/
def changeCode (target previous : ModelEntry) : List Statement :=
  stopCode ++ stopBackend previous ++ [.attempt (.switch target previous), .select target, .ready]

/-- The text of a failed switch. -/
def switchFailed (target : ModelEntry) (failure : Exn) (note : String) : String :=
  "model switch to " ++ target.label ++ " failed: " ++ failure.describe ++ "; " ++ note

/-- The end of a failed switch. -/
def failSwitch (text : String) : List Statement := [.fail text, .raise ⟨"CheckpointError", text⟩]

/-- What is tried. -/
def Attempt.body : Attempt → List Statement
  | .reset => .outside :: prepareCode
  | .switch target _ => startBackend target
  | .rollback _ previous _ => startBackend previous ++ [.select previous]

/-- The `except` clause, before what follows the `try`. The exception that a failed switch raises skips that. -/
def Attempt.clause (e : Exn) (rest : List Statement) : Attempt → List Statement
  | .reset => .fail ("reset failed: " ++ e.describe) :: statusCode
  | .switch target previous =>
    .attempt (.rollback target previous e) :: failSwitch (switchFailed target e ("rolled back to " ++ previous.label)) ++ rest
  | .rollback target previous failure =>
    failSwitch (switchFailed target failure ("rollback to " ++ previous.label ++ " failed: " ++ e.describe)) ++ rest

/-- Where an exception leads: to the `except` of what is being tried, to the `finally` of a switch, or out of the call. -/
def unwind (e : Exn) : List Statement → List Statement
  | [] => [.raise e]
  | .caught t :: rest => t.clause e rest
  | .unmark :: _ => [.unmark, .release, .raise e]
  | _ :: rest => unwind e rest

/-! ### The state -/

/-- The call that a thread is in, and what is left of it. -/
structure Caller where
  call : Option ModelCall := none
  todo : List Statement := []
  deriving DecidableEq, Repr

/-- The controller with its settle commands, the threads of the session and of the router, and the calls in progress. -/
structure Bridge where
  models : Models
  initialPose : Bool := false
  warmstart : Bool := false
  controller : Controller
  session : Pool (Guarded World) (Place Point Section)
  router : Pool (Router PortMessage) (RouterPlace PortMessage)
  caller : Nat → Caller := fun _ => {}

/-- What a statement meets. -/
inductive Met
  | next
  | info (i : ServerInfo)
  | raises (e : Exn)
  deriving DecidableEq, Repr

/-- A step: of a thread inside the session or the router, of the sink that a streaming thread publishes through, the beginning of
    a call, or a statement of one. -/
inductive BridgeStep
  | session (i : Nat) (c : Choice)
  | router (i : Nat) (c : RouterChoice PortMessage)
  | publish (i : Nat)
  | call (i : Nat) (c : ModelCall)
  | go (i : Nat) (m : Met)
  deriving DecidableEq, Repr

/-- The exception of a call of the router that raises. -/
def RouterCall.exn (text : String) : RouterCall PortMessage → Exn
  | .resume => ⟨"RouterError", text⟩
  | _ => ⟨text, ""⟩

/-- What is left of a call when a call of the router has returned. -/
def RouterResult.follow (r : RouterCall PortMessage) (rest : List Statement) : RouterResult → List Statement
  | .raised text => unwind (r.exn text) rest
  | _ => rest

/-- What is left of a call when a call of the session has returned. -/
def Result.follow (r : Request) (rest : List Statement) : Result → List Statement
  | .raised text => unwind ⟨"SessionError", text⟩ rest
  | .status s => if r = .start then .adopt s :: rest else rest
  | _ => rest

/-- The exception for an id that no entry has. -/
def Models.unknown (m : Models) (id : String) : Exn :=
  ⟨"UnknownCheckpoint", "unknown model '" ++ id ++ "'; allowed: [" ++
    ", ".intercalate (m.order.map fun e => "'" ++ e ++ "'") ++ "]"⟩

namespace Bridge

variable (b : Bridge) (i : Nat)

/-- The session's own fields. -/
def psi : Session := b.session.shared.data.session

/-- A thread that is in no call. -/
def free : Bool := (b.caller i).call == none && b.session.threads i == .at .idle && b.router.threads i == .idle

@[simps] def setCaller (c : Caller) : Bridge := { b with caller := Function.update b.caller i c }

/-- The thread goes on with these statements. -/
def goto (todo : List Statement) : Bridge := b.setCaller i { b.caller i with todo }

@[simps] def setController (c : Controller) : Bridge := { b with controller := c }

def sessionAct (c : Choice) : Option Bridge :=
  (sessionProgram.threads i (b.session.threads i) c b.session.shared).map fun r => { b with session := b.session.set i r }

def routerAct (c : RouterChoice PortMessage) : Option Bridge :=
  (routerStep (b.router.threads i) c b.router.shared).map fun r => { b with router := b.router.set i r }

/-- A statement that calls the router: the call, and its return. -/
def callRouter (r : RouterCall PortMessage) (rest : List Statement) : Option Bridge :=
  match b.router.threads i with
  | .idle => b.routerAct i (.call r)
  | .done _ _ res => (b.routerAct i .go).map fun b => b.goto i (res.follow r rest)
  | _ => none

/-- A statement that calls the session: the call, and its return. -/
def callSession (r : Request) (rest : List Statement) : Option Bridge :=
  match b.session.threads i with
  | .at .idle => b.sessionAct i (.call r)
  | .at (.done _ res) => (b.sessionAct i .go).map fun b => b.goto i (res.follow r rest)
  | _ => none

/-- A statement of the controller's own: what it does to the fields, and what is left of the call. -/
def own (s : Statement) (rest : List Statement) (m : Met) : Option (Controller × List Statement) :=
  let c := b.controller
  match s, m with
  | .refuseSwitching, .next =>
    some (c, if c.switching then unwind ⟨"CheckpointError", "model switch is in progress"⟩ rest else rest)
  | .refuseError, .next =>
    some (c, if c.state = .error then unwind ⟨"CheckpointError", "session is in ERROR; Reset before Start"⟩ rest else rest)
  | .active r, .next => some (c, r.code c.selected.kind ++ rest)
  | .outside, .next => some (c, rest)
  | .outside, .raises e => some (c, unwind e rest)
  -- `_request_reset`; a `ResetError` ends the reset with its status.
  | .request, .next => some (c, rest)
  | .request, .raises e => some (c, .fail e.text :: statusCode)
  -- `_verify_psi`, and `adopt_policy` of what it returns.
  | .verify, .info info => some (c, .session (.adoptPolicy info) :: rest)
  | .verify, .raises e => some (c, unwind e rest)
  | .prepare, .next => some (c, rest)
  | .prepare, .raises e => some (c, .router .halt :: unwind e rest)
  | .arm, .next =>
    some (c, if b.initialPose then [.router (.select .initialPose), .router .resume] ++ rest
      else if b.warmstart then [.router (.select .warmstart), .router .resume] ++ rest else rest)
  | .adopt s, .next => some (c.adopt s.state s.error, rest)
  | .run, .next => some (c.run, rest)
  | .halt, .next => some (c.halt, rest)
  | .ready, .next => some (c.ready, rest)
  | .fail text, .next => some (c.fail text, rest)
  | .report, .next => some (c, rest)
  | .lookup id, .next =>
    some (c, match b.models.find id with
      | none => unwind (b.models.unknown id) rest
      | some target =>
        if target.available then .acquire target :: rest else unwind ⟨"CheckpointUnavailable", target.unavailable⟩ rest)
  | .acquire target, .next =>
    if c.switchLock then some (c, unwind ⟨"SwitchInProgress", "another model switch is already in progress"⟩ rest)
    else some ({ c with switchLock := true }, .mark target :: rest)
  | .mark target, .next => some ({ c with switching := true }, .previous target :: rest)
  | .previous target, .next =>
    some (c, (if target.id ≠ c.selected.id then changeCode target c.selected else []) ++ (switchEnd ++ rest))
  | .select e, .next => some ({ c with selected := e }, rest)
  | .unmark, .next => some ({ c with switching := false }, rest)
  | .release, .next => some ({ c with switchLock := false }, rest)
  | .attempt t, .next => some (c, t.body ++ .caught t :: rest)
  | .caught _, .next => some (c, rest)
  | .raise e, .next => some (c, if rest = [] then [] else unwind e rest)
  | _, _ => none

/-- One statement of a call, before the rest of it. -/
def statement (s : Statement) (rest : List Statement) (m : Met) : Option Bridge :=
  match s with
  | .router r => if m = .next then b.callRouter i r rest else none
  | .session r => if m = .next then b.callSession i r rest else none
  | s => (b.own s rest m).map fun r => (b.setController r.1).goto i r.2

/-- The statement of a call that is next, or the return of one that has none left. -/
def go (m : Met) : Option Bridge :=
  match (b.caller i).call, (b.caller i).todo with
  | none, _ => none
  | some _, [] => if m = .next then some (b.setCaller i {}) else none
  | some _, s :: rest => b.statement i s rest m

/-- The steps that a thread takes inside the session on its own. -/
def admitsSession (c : Choice) : Bool :=
  match b.session.threads i, c with
  | .at .idle, .run _ => b.free i
  | .at .idle, _ => false
  | .at (.done _ _), _ => false
  | .at (.loop _ (.publish _)), _ => false
  | _, _ => true

/-- The steps that a thread takes inside the router on its own: those of the router thread, of the GR00T client, of the threads of
    the other sources, and of a call of the router that has not returned. -/
def admitsRouter (c : RouterChoice PortMessage) : Bool :=
  match b.router.threads i, c with
  | .idle, .publish (.foreign _) => b.free i
  | .idle, .call (.submit f (.foreign _)) => b.free i && f ≠ .psi
  | .idle, _ => false
  | .done _ (.submit _ (.foreign _)) _, _ => true
  | .done _ _ _, _ => false
  | _, _ => true

/-- `PsiSink.publish` of a streaming thread: a sink that is halted refuses, otherwise the router is asked. -/
def publish : Option Bridge :=
  match b.session.threads i with
  | .at (.loop g (.publish n)) =>
    match b.router.threads i with
    | .idle => if b.psi.halted then b.sessionAct i (.published false) else b.routerAct i (.call (.submit .psi (.action n)))
    | .done _ _ (.accepted published) => (b.routerAct i .go).map fun b =>
      { b with session := b.session.set i (if published then .want (.loop g (.current (.record n))) else .at (.loop g .stream),
        b.session.shared) }
    | .done _ _ (.raised text) => (b.routerAct i .go).map fun b =>
      { b with session := b.session.set i (.want (.loop g (.disconnect (some text))), b.session.shared) }
    | _ => none
  | _ => none

def step : BridgeStep → Option Bridge
  | .session i c => if b.admitsSession i c then b.sessionAct i c else none
  | .router i c => if b.admitsRouter i c then b.routerAct i c else none
  | .publish i => b.publish i
  | .call i c => if b.free i then some (b.setCaller i { call := some c, todo := c.code }) else none
  | .go i m => b.go i m

/-- The bridge as the launcher hands it over, with the server of `e` verified. -/
def launched (models : Models) (initialPose warmstart : Bool) (e : ModelEntry) (info : ServerInfo) : Bridge where
  models
  initialPose
  warmstart
  controller := { selected := e }
  session := ⟨⟨none, { session := Session.adoptPolicy info {} }⟩, fun _ => .at .idle⟩
  router := ⟨{ core := RouterCore.select .psi {} }, fun i => if i = 0 then .serve else .idle⟩

end Bridge

/-- Every interleaving of the calls with the threads of the session and of the router. -/
def bridgeMachine : Machine Bridge BridgeStep where
  init b := ∃ models initialPose warmstart e info, models.find e.id = some e ∧ e.kind = .psi ∧
    b = Bridge.launched models initialPose warmstart e info
  step := Bridge.step

/-! ### Runs of one thread -/

namespace Bridge

theorem twoModels_psi : ∀ e ∈ [System.fineTuned, System.base], e.kind = .psi := by simp [System.fineTuned, System.base]

/-- A bridge with two PSI models. -/
def twoModels : Bridge :=
  launched ⟨[System.fineTuned, System.base], twoModels_psi, "/checkpoints/groot"⟩ false false
    System.fineTuned System.served

theorem twoModels_init : bridgeMachine.init twoModels := ⟨_, _, _, _, _, by decide, rfl, rfl⟩

def going (i n : Nat) : List BridgeStep := List.replicate n (.go i .next)

def inSession (i n : Nat) : List BridgeStep := List.replicate n (.session i .go)

/-- A statement that calls the router, with the steps of the call. -/
def inRouter (i n : Nat) : List BridgeStep := .go i .next :: List.replicate n (.router i .go) ++ [.go i .next]

def reading (i : Nat) : List BridgeStep := going i 3 ++ inSession i 2 ++ going i 1

/-- A start up to where it waits for SONIC, up to where it waits for the session, and from there on. -/
def starting (i : Nat) : List BridgeStep := .call i .start :: going i 3 ++ inRouter i 4

def opening (i : Nat) : List BridgeStep := inRouter i 2 ++ inRouter i 2 ++ inRouter i 1 ++ going i 1 ++ inSession i 9

def started (i : Nat) : List BridgeStep := inSession i 3 ++ going i 2 ++ reading i ++ going i 1

def stopping (i : Nat) : List BridgeStep := inRouter i 4 ++ going i 2 ++ inSession i 8 ++ going i 2 ++ reading i

def stopped (i : Nat) : List BridgeStep := .call i .stop :: stopping i ++ going i 1

def resetting (i : Nat) : List BridgeStep := .call i .reset :: stopping i ++ going i 3 ++ reading i ++ going i 1

/-- A streaming thread that reaches no server. -/
def unreachable (i g : Nat) : List BridgeStep :=
  [.session i (.run g), .session i (.raise "the policy server does not answer")] ++ inSession i 6

/-- A streaming thread that comes to announce itself. -/
def announcing (i g : Nat) (info : ServerInfo) : List BridgeStep :=
  [.session i (.run g), .session i (.info info)] ++ inSession i 11

end Bridge
end HumanoidLab
