import HumanoidLab.Bridge.Backend
import HumanoidLab.Bridge.Session

/-! The checkpoint controller (`psi0_bridge/checkpoints.py`) over the session and the policy server that it owns. A switch
    and a status are programs of the threads that call the session: a step is one of their statements, or a step of the
    session. -/

namespace HumanoidLab
open Concurrency

/-- An allowlisted checkpoint. -/
structure CheckpointEntry where
  id : String
  label : String
  runDir : Option String
  step : Nat
  available : Bool := true
  reason : Option String := none
  deriving DecidableEq, Repr

/-- The allowlist, and how the file system resolves a path (`_canonical`). -/
structure Allowlist where
  entries : List CheckpointEntry
  canonical : String → String

namespace Allowlist

/-- A later entry of the same id replaces an earlier one. -/
def find (c : Allowlist) (id : String) : Option CheckpointEntry := c.entries.reverse.find? (·.id == id)

def unknown (c : Allowlist) (id : String) : Exn :=
  let allowed := ", ".intercalate (((c.entries.map CheckpointEntry.id).dedup.mergeSort (· ≤ ·)).map fun m => "'" ++ m ++ "'")
  ⟨"UnknownCheckpoint", "unknown checkpoint '" ++ id ++ "'; allowed: [" ++ allowed ++ "]"⟩

/-- `_served`, of the `/info` that the session holds. -/
def served (c : Allowlist) (info : Option ServerInfo) (e : CheckpointEntry) : Bool :=
  match info, e.runDir with
  | some i, some runDir => i.ckptStep == some e.step && c.canonical i.runDir == c.canonical runDir
  | _, _ => false

end Allowlist

/-! ### The owned server -/

/-- The policy server with the record of its starts: they are numbered, `running` are those whose process runs, and
    `verified` those whose `/info` was that of a checkpoint. The server is lost when it is stopped or exits, up to the next
    one that is verified; the stop of a switch makes it lost only when the rollback fails. -/
structure OwnedServer where
  server : PolicyServer
  launch : Nat := 0
  running : List Nat := [0]
  verified : List (Nat × String)
  lost : Bool := false

namespace OwnedServer

def stop (exits : Bool) (o : OwnedServer) : Except Exn Unit × OwnedServer :=
  ((o.server.stop exits).1, { o with
    server := (o.server.stop exits).2
    running := if o.server.alive && exits then o.running.filter (· ≠ o.launch) else o.running })

/-- `server.start` of an entry; `Path(None)` raises. -/
def start (s : ServerStart) (e : CheckpointEntry) (o : OwnedServer) : Except Exn OwnedServer :=
  let started (runDir : String) := (o.server.start s runDir e.step).map fun server =>
    { o with server, launch := o.launch + 1, running := (o.launch + 1) :: o.running }
  match e.runDir with
  | some runDir => started runDir
  | none =>
    if o.server.alive then started "None"
    else .error ⟨"TypeError", "expected str, bytes or os.PathLike object, not NoneType"⟩

def verify (e : CheckpointEntry) (o : OwnedServer) : OwnedServer :=
  { o with verified := (o.launch, e.id) :: o.verified, lost := false }

def lose (o : OwnedServer) : OwnedServer := { o with lost := true }

/-- The process exits on its own. -/
def exit (o : OwnedServer) : OwnedServer :=
  { o with server := o.server.elapse false, running := o.running.filter (· ≠ o.launch), lost := true }

/-- Start `l` of the server was verified. -/
def Verified (o : OwnedServer) (l : Nat) : Prop := ∃ id, (l, id) ∈ o.verified

instance (o : OwnedServer) (l : Nat) : Decidable (o.Verified l) :=
  decidable_of_iff (o.verified.any fun v => v.1 == l) (by simp [Verified])

end OwnedServer

/-- What serves the WebSocket URL: a start of the owned server, or a server that something else has started there. -/
inductive Backing
  | start (l : Nat)
  | foreign
  deriving DecidableEq, Repr

namespace OwnedServer

/-- It can answer: the process of the start runs. Nothing is known of a foreign server. -/
def Answers (o : OwnedServer) : Backing → Prop
  | .start l => l ∈ o.running
  | .foreign => True

instance (o : OwnedServer) : ∀ x, Decidable (o.Answers x)
  | .start l => inferInstanceAs (Decidable (l ∈ o.running))
  | .foreign => .isTrue trivial

/-- Its `/info` was that of a checkpoint. A foreign server was never verified. -/
def Vouched (o : OwnedServer) : Backing → Prop
  | .start l => o.Verified l
  | .foreign => False

instance (o : OwnedServer) : ∀ x, Decidable (o.Vouched x)
  | .start l => inferInstanceAs (Decidable (o.Verified l))
  | .foreign => .isFalse id

end OwnedServer

/-! ### The programs -/

/-- A switch, with the checkpoint that was selected before it. -/
structure Change where
  entry : CheckpointEntry
  previous : Option CheckpointEntry
  deriving DecidableEq, Repr

/-- The text of a failed switch. -/
def Change.failed (c : Change) (failure : Exn) (note : String) : String :=
  "checkpoint switch to " ++ c.entry.label ++ " failed: " ++ failure.describe ++ "; " ++ note

/-- What the controller calls the session for. -/
inductive SessionUse
  | statusInfo
  | statusServed (active : Option ServerInfo) (selected : CheckpointEntry)
  | switchServed (e : CheckpointEntry)
  | stop (c : Change)
  | adopt (c : Change) (info : ServerInfo)
  | markError (text : String)
  deriving DecidableEq, Repr

def SessionUse.request : SessionUse → Request
  | statusInfo | statusServed .. | switchServed _ => .info
  | stop _ => .stop
  | adopt _ info => .adoptPolicy info
  | markError text => .markError text

/-- Where a thread stands in the controller. -/
inductive CheckpointPoint
  | idle
  | calling (u : SessionUse)
  | statusSelected (active : Option ServerInfo)
  | report (active : Option ServerInfo) (selected : Option CheckpointEntry) (serving : Bool)
  | check (e : CheckpointEntry)
  | previous (e : CheckpointEntry)
  | serverStop (c : Change)
  | serverStart (c : Change)
  | verify (c : Change)
  | select (c : Change)
  | rollbackStop (c : Change) (failure : Exn)
  | rollbackStart (c : Change) (p : CheckpointEntry) (failure : Exn)
  | rollbackVerify (c : Change) (p : CheckpointEntry) (failure : Exn)
  | rollbackAbort (c : Change) (p : CheckpointEntry) (failure raised : Exn)
  | finish (raised : Option Exn)
  deriving DecidableEq, Repr

/-- What the session's answer is read as, where its `/info` is asked. -/
def Result.asInfo : Result → Option ServerInfo
  | .info i => i
  | _ => Option.none

/-- Where a thread goes on when its call on the session returns. -/
def SessionUse.resume (c : Allowlist) (res : Result) : SessionUse → CheckpointPoint
  | statusInfo => .statusSelected res.asInfo
  | statusServed active selected => .report active (some selected) (c.served res.asInfo selected)
  | switchServed e => if c.served res.asInfo e then .finish none else .previous e
  | stop ch => .serverStop ch
  | adopt ch _ => .select ch
  | markError text => .finish (some ⟨"CheckpointError", text⟩)

/-- What `status` returns, and whether the owned server was then verified as the selected checkpoint. -/
structure CheckpointReport where
  selected : Option CheckpointEntry
  active : Option ServerInfo
  serving : Bool
  switching : Bool
  pid : Option Nat
  alive : Bool
  runDir : Option String
  step : Option Nat
  verified : Bool
  deriving DecidableEq, Repr

/-- The controller with the threads of the session. A streaming thread is connected to the server that `conn` tells,
    `answers` of whose replies it has not received; `published` are the servers that computed the actions published. -/
structure Checkpoints where
  pool : Pool (Guarded World) (Place Point Section)
  owned : OwnedServer
  selectedId : String
  switching : Option Nat := none
  place : Nat → CheckpointPoint := fun _ => .idle
  conn : Nat → Option Backing := fun _ => none
  answers : Nat → Nat := fun _ => 0
  reports : List CheckpointReport := []
  published : List Backing := []

/-- What a statement of the controller meets. -/
inductive CheckpointOutcome
  | next
  | stops (exits : Bool)
  | starts (s : ServerStart)
  | verifies (r : Except Exn ServerInfo)

/-- A step: a thread of the session, its connection to what serves the URL, a reply of that; a call of the controller, or a
    statement of one; and what happens to the server otherwise. -/
inductive CheckpointStep
  | session (i : Nat) (b : Choice)
  | connect (i : Nat) (x : Backing)
  | answer (i : Nat)
  | switch (i : Nat) (id : String)
  | status (i : Nat)
  | go (i : Nat) (o : CheckpointOutcome)
  | close (exits : Bool)
  | exit

/-- The calls of the web API on the session. -/
def Request.isApi : Request → Bool
  | .markError _ | .adoptPolicy _ => false
  | _ => true

/-! ### The streaming threads -/

/-- The point of a thread whose connection was found current. -/
def LoopPoint.linked : LoopPoint → Bool
  | .fetch | .poll | .fresh | .connect | .failGate | .failHalt | .failStop | .failReady => false
  | _ => true

def LoopSection.linked : LoopSection → Bool
  | .setInfo _ | .current .fresh | .current .connected | .fail _ => false
  | _ => true

/-- A streaming thread over a connection that was found current. -/
def linked : Place Point Section → Bool
  | .at (.loop _ p) => p.linked
  | .want (.loop _ c) | .inside (.loop _ c) => c.linked
  | _ => false

namespace Checkpoints

variable (c : Allowlist) (s : Checkpoints) (i : Nat)

@[simps] def goto (p : CheckpointPoint) : Checkpoints := { s with place := Function.update s.place i p }

/-- What a thread may do in the session where it stands in the controller. -/
def admits (b : Choice) : Bool :=
  match s.place i, s.pool.threads i, b with
  | _, .at (.loop _ .connect), .go => false
  | _, .at (.loop _ .stream), .reply _ => 0 < s.answers i
  | .idle, .at .idle, .call r => r.isApi
  | .idle, _, _ => true
  | .calling u, .at .idle, b => b == .call u.request
  | .calling _, _, _ => true
  | _, _, _ => false

/-- Where the thread then stands in the controller. -/
def resumed : CheckpointPoint :=
  match s.place i, s.pool.threads i with
  | .calling u, .at (.done _ res) => u.resume c res
  | p, _ => p

/-- The server that computed the action which the thread then publishes. -/
def publishes (b : Choice) : List Backing :=
  match s.pool.threads i, b with
  | .at (.loop _ (.publish _)), .published true => if s.pool.shared.data.session.halted then [] else (s.conn i).toList
  | _, _ => []

/-- The replies that the thread has then not received. -/
def received (b : Choice) : Nat :=
  match s.pool.threads i, b with
  | .at (.loop _ .stream), .reply _ => s.answers i - 1
  | _, _ => s.answers i

/-- The state after a step of the thread in the session. -/
@[simps] def stepped (b : Choice) (r : Place Point Section × Guarded World) : Checkpoints :=
  { s.goto i (s.resumed c i) with
    pool := s.pool.set i r
    answers := Function.update s.answers i (s.received i b)
    published := s.publishes i b ++ s.published }

def sessionStep (b : Choice) : Option Checkpoints :=
  if s.admits i b then
    (sessionProgram.threads i (s.pool.threads i) b s.pool.shared).map (s.stepped c i b)
  else none

/-- The connection of a streaming thread, to whatever serves the URL (`Psi0Connection`). -/
def connectStep (x : Backing) : Option Checkpoints :=
  match s.place i, s.pool.threads i with
  | .idle, .at (.loop _ .connect) =>
    if s.owned.Answers x then
      (sessionProgram.threads i (s.pool.threads i) .go s.pool.shared).map fun r =>
        { s with
          pool := s.pool.set i r, conn := Function.update s.conn i (some x), answers := Function.update s.answers i 0 }
    else none
  | _, _ => none

/-- A reply of the server that the thread is connected to. -/
def answerStep : Option Checkpoints :=
  if linked (s.pool.threads i) ∧ ∃ x ∈ s.conn i, s.owned.Answers x then
    some { s with answers := Function.update s.answers i (s.answers i + 1) }
  else none

/-- The refusal of a switch. -/
def refusal (id : String) : Except Exn CheckpointEntry :=
  match c.find id with
  | none => .error (c.unknown id)
  | some e =>
    if !e.available then
      let reason := if (e.reason.getD "").isEmpty then "no artifact" else e.reason.getD ""
      .error ⟨"CheckpointUnavailable", "checkpoint " ++ e.label ++ " is not available: " ++ reason⟩
    else if s.switching.isSome then .error ⟨"SwitchInProgress", "another checkpoint switch is already in progress"⟩
    else .ok e

/-- What `status` returns. -/
def reportOf (active : Option ServerInfo) (selected : Option CheckpointEntry) (serving : Bool) : CheckpointReport where
  selected := selected
  active := active
  serving := serving
  switching := s.switching.isSome
  pid := s.owned.server.pid
  alive := s.owned.server.alive
  runDir := s.owned.server.runDir
  step := s.owned.server.step
  verified := selected.any fun e => (s.owned.launch, e.id) ∈ s.owned.verified

/-- The statements of the controller between its calls on the session. -/
def goStep (o : CheckpointOutcome) : Option Checkpoints :=
  match s.place i, o with
  -- `status`
  | .statusSelected active, .next =>
    some (s.goto i (match c.find s.selectedId with
      | none => .report active none false
      | some e => .calling (.statusServed active e)))
  | .report active selected serving, .next =>
    some ({ s with reports := s.reportOf active selected serving :: s.reports }.goto i .idle)
  -- `switch`
  | .check e, .next =>
    some (s.goto i (if e.id = s.selectedId ∧ s.owned.server.alive = true then .calling (.switchServed e) else .previous e))
  | .previous e, .next => some (s.goto i (.calling (.stop ⟨e, c.find s.selectedId⟩)))
  | .serverStop ch, .stops exits =>
    some ({ s with owned := (s.owned.stop exits).2 }.goto i (match (s.owned.stop exits).1 with
      | .ok _ => .serverStart ch
      | .error e => .rollbackStop ch e))
  | .serverStart ch, .starts start =>
    match s.owned.start start ch.entry with
    | .ok owned => some ({ s with owned }.goto i (.verify ch))
    | .error e => some (s.goto i (.rollbackStop ch e))
  | .verify ch, .verifies (.ok info) =>
    if s.owned.server.alive then some ({ s with owned := s.owned.verify ch.entry }.goto i (.calling (.adopt ch info)))
    else none
  | .verify ch, .verifies (.error e) => some (s.goto i (.rollbackStop ch e))
  | .select ch, .next => some ({ s with selectedId := ch.entry.id }.goto i (.finish none))
  -- `_rollback`; what its first stop raises leaves `switch`.
  | .rollbackStop ch e, .stops exits =>
    match (s.owned.stop exits).1, ch.previous with
    | .error raised, _ => some ({ s with owned := (s.owned.stop exits).2.lose }.goto i (.finish (some raised)))
    | .ok _, none =>
      some ({ s with owned := (s.owned.stop exits).2.lose }.goto i
        (.calling (.markError (ch.failed e "no previous checkpoint to roll back to"))))
    | .ok _, some p =>
      if p.available then some ({ s with owned := (s.owned.stop exits).2 }.goto i (.rollbackStart ch p e))
      else
        some ({ s with owned := (s.owned.stop exits).2.lose }.goto i
          (.calling (.markError (ch.failed e ("previous checkpoint " ++ p.label ++ " is unavailable")))))
  | .rollbackStart ch p e, .starts start =>
    match s.owned.start start p with
    | .ok owned => some ({ s with owned }.goto i (.rollbackVerify ch p e))
    | .error raised => some (s.goto i (.rollbackAbort ch p e raised))
  | .rollbackVerify ch p e, .verifies (.ok _) =>
    if s.owned.server.alive then
      some ({ s with owned := s.owned.verify p }.goto i (.calling (.markError (ch.failed e ("rolled back to " ++ p.label)))))
    else none
  | .rollbackVerify ch p e, .verifies (.error raised) => some (s.goto i (.rollbackAbort ch p e raised))
  | .rollbackAbort ch p e raised, .stops exits =>
    some ({ s with owned := (s.owned.stop exits).2.lose }.goto i (match (s.owned.stop exits).1 with
      | .error raised => .finish (some raised)
      | .ok _ => .calling (.markError (ch.failed e
        ("rollback to " ++ p.label ++ " failed: " ++ raised.describe ++ "; no policy server is running")))))
  -- The `finally`, and the status that `switch` returns.
  | .finish raised, .next =>
    some ({ s with switching := none }.goto i (if raised.isNone then .calling .statusInfo else .idle))
  | _, _ => none

def step : CheckpointStep → Option Checkpoints
  | .session i b => s.sessionStep c i b
  | .connect i x => s.connectStep i x
  | .answer i => s.answerStep i
  | .switch i id =>
    if s.place i = .idle ∧ s.pool.threads i = .at .idle then
      match s.refusal c id with
      | .error _ => some s
      | .ok e => some ({ s with switching := some i }.goto i (.check e))
    else none
  | .status i =>
    if s.place i = .idle ∧ s.pool.threads i = .at .idle then some (s.goto i (.calling .statusInfo)) else none
  | .go i o => s.goStep c i o
  | .close exits => some { s with owned := (s.owned.stop exits).2.lose }
  | .exit => if s.owned.server.alive then some { s with owned := s.owned.exit } else none

end Checkpoints

/-- Every interleaving of the session's threads with switches and statuses, from a server that runs and was verified as the
    initial checkpoint. -/
def checkpointMachine (c : Allowlist) : Machine Checkpoints CheckpointStep where
  init s := ∃ info server e, c.find s.selectedId = some e ∧ server.alive = true ∧
    s = { pool := ⟨⟨none, { session := { info } }⟩, fun _ => .at .idle⟩
          owned := { server, verified := [(0, s.selectedId)] }
          selectedId := s.selectedId }
  step := Checkpoints.step c

end HumanoidLab
