import HumanoidLab.Lib.Fallible

/-! The processes behind the models: the PSI policy server (`psi0_bridge/policy_server.py`) and the GR00T
    server with its SONIC VLA client (`psi0_bridge/groot_backend.py`). What the operating system and the
    network answer is an argument; a process exits on its own between two calls, or in a wait that says so. -/

namespace HumanoidLab
open Fallible

/-- An exception: the name of its class and its text. -/
structure Exn where
  type : String
  text : String
  deriving DecidableEq, Repr

/-- How the source writes an exception into an error text. -/
def Exn.describe (e : Exn) : String := e.type ++ ": " ++ e.text

/-- A child process; it runs while `poll()` is `None`. -/
structure Process where
  pid : Nat
  running : Bool := true
  deriving DecidableEq, Repr

def Process.alive (p : Option Process) : Bool := p.any Process.running

/-- A wait in which the process goes on running, or exits. -/
def Process.elapse (survives : Bool) (p : Process) : Process := { p with running := p.running && survives }

/-- What a spawn meets: the pid of the child, a log file that cannot be opened, or the `OSError` of
    `Popen`. -/
inductive Spawn
  | pid (n : Nat)
  | noLog (e : Exn)
  | failed (error : String)
  deriving DecidableEq, Repr

/-! ### The PSI policy server -/

/-- `PolicyServerProcess`: the child of the bridge and the checkpoint it was started for. -/
structure PolicyServer where
  port : Nat := 8014
  rtc : Bool := true
  actionExecHorizon : Nat := 30
  process : Option Process := none
  runDir : Option String := none
  step : Option Nat := none
  deriving DecidableEq, Repr

/-- What a start of the server meets. -/
structure ServerStart where
  checkpoint : Bool := true
  foreign : Bool := false
  spawn : Spawn
  deriving DecidableEq, Repr

def serveExecutable : String := "/workspace/humanoid-lab/scripts/serve-psi0-sonic.py"

def serveCommand (runDir : String) (step port : Nat) (rtc : Bool) (actionExecHorizon : Nat) : List String :=
  [serveExecutable, "--host", "0.0.0.0", "--port", toString port, "--action_exec_horizon",
    toString actionExecHorizon, "--policy", "psi"] ++ (if rtc then ["--rtc"] else []) ++
    ["--run-dir", runDir, "--ckpt-step", toString step]

namespace PolicyServer

def pid (s : PolicyServer) : Option Nat := s.process.map Process.pid

def alive (s : PolicyServer) : Bool := Process.alive s.process

def command (s : PolicyServer) (runDir : String) (step : Nat) : String :=
  " ".intercalate (serveCommand runDir step s.port s.rtc s.actionExecHorizon)

def raised (text : String) : Exn := ⟨"PolicyServerError", text⟩

/-- `start`, which leaves the server as it was when it raises. -/
def start (o : ServerStart) (runDir : String) (step : Nat) (s : PolicyServer) : Except Exn PolicyServer :=
  if s.alive then
    .error (raised ("a policy server (pid " ++ s.pid.elim "None" toString ++ ") is already running for " ++
      s.runDir.getD "None" ++ " step " ++ s.step.elim "None" toString))
  else if !o.checkpoint then
    .error (raised ("cannot start the policy server: " ++ runDir ++ " has no checkpoints/ckpt_" ++ toString step))
  else if o.foreign then
    .error (raised ("something already serves :" ++ toString s.port ++
      " on localhost; refusing to start a second policy server"))
  else
    match o.spawn with
    | .noLog e => .error e
    | .failed error => .error (raised ("cannot start " ++ s.command runDir step ++ ": " ++ error))
    | .pid n => .ok { s with process := some { pid := n }, runDir := some runDir, step := some step }

/-- `stop`: the handle is dropped first, also when the child does not exit after TERM and KILL. -/
def stop (exits : Bool) (s : PolicyServer) : Except Exn Unit × PolicyServer :=
  match s.process with
  | none => (.ok (), s)
  | some p =>
    if p.running && !exits then
      (.error (raised ("policy server pid " ++ toString p.pid ++ " did not exit after TERM/KILL")),
        { s with process := none })
    else (.ok (), { s with process := none, runDir := none, step := none })

/-- A wait in which the server goes on running, or exits. -/
def elapse (survives : Bool) (s : PolicyServer) : PolicyServer :=
  { s with process := s.process.map (Process.elapse survives) }

end PolicyServer

/-! ### The GR00T group -/

/-- A key for the VLA client. -/
inductive Key
  | k
  | i
  | p
  deriving DecidableEq, Repr

/-- `GrootProcessGroup`, with the keys that were sent since its client was spawned, newest first. -/
structure GrootGroup where
  checkpoint : String
  server : Option Process := none
  vla : Option Process := none
  keys : List Key := []
  deriving DecidableEq, Repr

/-- What a stop of the group meets: the text of the timeout of a process that outlives KILL. -/
structure GrootStop where
  vla : Option String := none
  server : Option String := none
  deriving DecidableEq, Repr

/-- How `_wait_server` ends. -/
inductive ServerWait
  | ready
  | exited (code : Int)
  | never
  | probe (e : Exn)
  deriving DecidableEq, Repr

/-- What a start of the group meets, in the order of the code. -/
structure GrootStart where
  isDir : Bool := true
  missing : List String := []
  stop : GrootStop := {}
  server : Spawn
  wait : ServerWait := .ready
  vla : Spawn
  exited : Option Int := none
  serverSurvives : Bool := true
  cleanup : GrootStop := {}
  deriving DecidableEq, Repr

namespace GrootGroup

abbrev Op := EStateM Exn GrootGroup

def alive (g : GrootGroup) : Bool := Process.alive g.server && Process.alive g.vla

/-- A process of the group runs. -/
def running (g : GrootGroup) : Bool := Process.alive g.server || Process.alive g.vla

/-- Each process goes on running, or exits. -/
def elapse (serverSurvives vlaSurvives : Bool) (g : GrootGroup) : GrootGroup :=
  { g with server := g.server.map (Process.elapse serverSurvives), vla := g.vla.map (Process.elapse vlaSurvives) }

def raised (text : String) : Exn := ⟨"GrootBackendError", text⟩

/-- `validate_groot_checkpoint`. -/
def validate (isDir : Bool) (missing : List String) (path : String) : Except Exn Unit :=
  if !isDir then .error (raised ("GR00T checkpoint does not exist: " ++ path))
  else if missing ≠ [] then .error (raised ("GR00T checkpoint is missing: " ++ ", ".intercalate missing))
  else .ok ()

def terminate (stuck : Option String) (p : Option Process) : Except Exn (Option Process) :=
  match p, stuck with
  | some q, some text => if q.running then .error ⟨"TimeoutExpired", text⟩ else .ok p
  | _, _ => .ok (p.map fun q => { q with running := false })

/-- Time in which each process goes on running, or exits. -/
def wait (serverSurvives vlaSurvives : Bool) : Op Unit := modify (elapse serverSurvives vlaSurvives)

/-- `stop`: the client first, then the server; the handles are dropped once both are gone. -/
def stop (o : GrootStop) : Op Unit := do
  let vla ← lift (terminate o.vla (← get).vla)
  modify fun g => { g with vla }
  let server ← lift (terminate o.server (← get).server)
  modify fun g => { g with server }
  modify fun g => { g with vla := none, server := none }

def spawn : Spawn → Except Exn Process
  | .pid n => .ok { pid := n }
  | .noLog e => .error e
  | .failed error => .error (raised ("cannot start upstream GR00T process: " ++ error))

/-- `_wait_server`: the group is stopped when its server exits or never becomes ready. -/
def waitServer (o : GrootStart) : Op Unit :=
  match o.wait with
  | .ready => pure ()
  | .exited code => do
    wait false true
    stop o.cleanup
    throw (raised ("GR00T PolicyServer exited during startup (" ++ toString code ++ ")"))
  | .never => do
    stop o.cleanup
    throw (raised "GR00T PolicyServer did not become ready")
  | .probe e => throw e

/-- The first half of `start`: the server. -/
def serve (o : GrootStart) : Op Unit := do
  let server ← lift (spawn o.server)
  modify fun g => { g with server := some server }
  waitServer o

/-- The second half of `start`: the client, which gets four seconds to exit. -/
def join (o : GrootStart) : Op Unit := do
  let vla ← lift (spawn o.vla)
  modify fun g => { g with vla := some vla, keys := [] }
  wait o.serverSurvives o.exited.isNone
  match o.exited with
  | none => pure ()
  | some code => do
    stop o.cleanup
    throw (raised ("NVIDIA SONIC VLA client exited during startup (" ++ toString code ++ ")"))

def start (o : GrootStart) : Op Unit := do
  if (← get).alive then pure ()
  else
    lift (validate o.isDir o.missing (← get).checkpoint)
    stop o.stop
    serve o
    join o

end GrootGroup
end HumanoidLab
