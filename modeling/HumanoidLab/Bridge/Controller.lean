import HumanoidLab.Bridge.Backend
import HumanoidLab.Bridge.Router
import HumanoidLab.Bridge.Session

/-! The model controller (`psi0_bridge/model_controller.py`) called from one thread: its fields, the router
    and the processes that it drives, and its calls as programs that may raise. What a call meets on its way
    is its argument. -/

namespace HumanoidLab
open Std.Do Fallible

inductive Kind
  | psi
  | groot
  deriving DecidableEq, Repr

structure ModelEntry where
  id : String
  label : String
  kind : Kind
  runDir : Option String
  step : Option Nat
  available : Bool := true
  reason : Option String := none
  deriving DecidableEq, Repr

/-- `target.reason or f"{target.label} is unavailable"`. -/
def ModelEntry.unavailable (e : ModelEntry) : String :=
  if (e.reason.getD "").isEmpty then e.label ++ " is unavailable" else e.reason.getD ""

/-- The entries of the controller: the PSI entries it was built with, and GR00T under its own id. -/
structure Models where
  psi : List ModelEntry
  psi_kind : ∀ e ∈ psi, e.kind = .psi
  checkpoint : String

namespace Models

def groot (m : Models) : ModelEntry where
  id := "groot"
  label := "GR00T"
  kind := .groot
  runDir := some m.checkpoint
  step := none

def order (m : Models) : List String := m.psi.map ModelEntry.id ++ ["groot"]

/-- A later entry of the same id replaces an earlier one, and GR00T replaces them all. -/
def find (m : Models) (id : String) : Option ModelEntry :=
  if id = "groot" then some m.groot else m.psi.reverse.find? (·.id == id)

end Models

/-- The fields of the controller; `selected` is the entry of `selected_id`. -/
structure Controller where
  selected : ModelEntry
  state : SessionState := .idle
  error : Option String := none
  switching : Bool := false
  switchLock : Bool := false
  deriving DecidableEq, Repr

namespace Controller

/-! ### The blocks under the lock -/

/-- The end of a psi `start`: what the session reports. -/
def adopt (s : SessionState) (error : Option String) (c : Controller) : Controller := { c with state := s, error }

/-- The end of a GR00T `start`. -/
def run (c : Controller) : Controller := { c with state := .running, error := none }

/-- The end of `stop`. -/
def halt (c : Controller) : Controller := if c.state = .error then c else { c with state := .stopped }

/-- A reset or a switch that failed. -/
def fail (error : String) (c : Controller) : Controller := { c with state := .error, error := some error }

@[simp] theorem fail_state (error : String) (c : Controller) : (c.fail error).state = .error := rfl

/-- A reset or a switch that is complete. -/
def ready (c : Controller) : Controller := { c with state := .idle, error := none }

@[simp] theorem ready_state (c : Controller) : c.ready.state = .idle := rfl

/-! ### The frame of a switch -/

/-- The switch lock is taken, and `_switching` set. -/
def lock (c : Controller) : Controller := { c with switchLock := true, switching := true }

/-- The `finally` of `switch`. -/
def unlock (c : Controller) : Controller := { c with switching := false, switchLock := false }

end Controller

/-- The controller with what it drives, and its opt-in settle commands. -/
structure System where
  models : Models
  initialPose : Bool := false
  warmstart : Bool := false
  controller : Controller
  router : RouterCore := {}
  session : Session := {}
  server : PolicyServer := {}
  groot : GrootGroup

/-- What `status` reports of the controller's own state. -/
structure ControllerStatus where
  state : SessionState
  error : Option String
  starting : Bool
  connected : Bool
  source : Source
  sent : Nat
  model : ModelEntry
  deriving DecidableEq, Repr

/-! ### What the calls meet -/

/-- When the controller of SONIC is seen alive in `_prepare_groot`. -/
inductive Debug
  | first
  | retry
  | never
  deriving DecidableEq, Repr

/-- What `_prepare_groot` meets. -/
structure Prepare where
  debug : Debug := .first
  serverSurvives : Bool := true
  vlaSurvives : Bool := true
  deriving DecidableEq, Repr

/-- What `_start_backend` meets, in either of its branches. -/
structure BackendStart where
  server : ServerStart
  verify : Except Exn ServerInfo
  serverSurvives : Bool := true
  groot : GrootStart
  prepare : Prepare := {}

/-- What `_stop_backend` meets. -/
structure BackendStop where
  serverExits : Bool := true
  groot : GrootStop := {}

/-- What `start` meets: a control command that raises, and the session after its wait or its refusal. -/
structure Start where
  pose : Option Exn := none
  session : Except Exn Session

/-- What `reset` meets. -/
structure Reset where
  stop : GrootStop := {}
  request : Option String := none
  groot : GrootStart
  prepare : Prepare := {}

/-- What `switch` meets: the stop of the previous backend, the start of the target, the rollback. -/
structure Switch where
  stop : BackendStop := {}
  start : BackendStart
  back : BackendStart

/-! ### The calls -/

namespace System

abbrev Op := EStateM Exn System

variable {α : Type}

@[simps] def setController (c : Controller) (w : System) : System := { w with controller := c }
@[simps] def setRouter (r : RouterCore) (w : System) : System := { w with router := r }
@[simps] def setSession (s : Session) (w : System) : System := { w with session := s }
@[simps] def setServer (s : PolicyServer) (w : System) : System := { w with server := s }
@[simps] def setGroot (g : GrootGroup) (w : System) : System := { w with groot := g }

@[spec] def onController (f : Controller → Controller) : Op Unit := modify fun w => w.setController (f w.controller)

@[spec] def onRouter (f : RouterCore → RouterCore) : Op Unit := modify fun w => w.setRouter (f w.router)

@[spec] def onSession (f : Session → Session) : Op Unit := modify fun w => w.setSession (f w.session)

def onGroot (x : GrootGroup.Op α) : Op α := zoom System.groot System.setGroot x

/-- A program over the group leaves what does not depend on it. -/
theorem onGroot_frame {x : GrootGroup.Op α} {P : GrootGroup → Prop} {Q : α → GrootGroup → Prop}
    {E : Exn → GrootGroup → Prop} {R : System → Prop} (hR : ∀ w g, R w → R (setGroot g w))
    (hx : ⦃fun g => ⌜P g⌝⦄ x ⦃post⟨fun a g => ⌜Q a g⌝, fun e g => ⌜E e g⌝⟩⦄) :
    ⦃fun w => ⌜R w ∧ P w.groot⌝⦄ onGroot x
    ⦃post⟨fun a w => ⌜R w ∧ Q a w.groot⌝, fun e w => ⌜R w ∧ E e w.groot⌝⟩⦄ :=
  zoom_frame (fun _ _ => rfl) hR hx

theorem onGroot_other (x : GrootGroup.Op α) {R : System → Prop} (hR : ∀ w g, R w → R (setGroot g w)) :
    ⦃fun w => ⌜R w⌝⦄ onGroot x ⦃post⟨fun _ w => ⌜R w⌝, fun _ w => ⌜R w⌝⟩⦄ :=
  zoom_other x hR

/-- `status`, as far as the controller's own state goes. -/
def report (w : System) : ControllerStatus where
  state := w.controller.state
  error := w.controller.error
  starting := w.controller.switching
  connected := if w.controller.selected.kind = .groot then w.groot.alive else w.server.alive
  source := w.router.source
  sent := w.router.sent
  model := w.controller.selected

@[spec] def status : Op ControllerStatus := return (← get).report

/-- `router.resume`. -/
@[spec] def resume : Op Unit := do
  match (← get).router.resume with
  | .ok r => onRouter fun _ => r
  | .error text => throw ⟨"RouterError", text⟩

/-- `_send_key`: the publisher drops a key that nobody receives. -/
def sendKey (key : Key) : Op Unit := onGroot (modify fun g => { g with keys := key :: g.keys })

/-- `Session.stop`, without its join. -/
@[spec] def sessionStop : Op Unit :=
  onSession fun s => { s.stopFinish with sendGate := false, halted := true, stopEvent := true }

def checkpointError (text : String) : Exn := ⟨"CheckpointError", text⟩

def entry (id : String) : Op ModelEntry := do
  match (← get).models.find id with
  | some e => return e
  | none =>
    let allowed := ", ".intercalate ((← get).models.order.map fun m => "'" ++ m ++ "'")
    throw ⟨"UnknownCheckpoint", "unknown model '" ++ id ++ "'; allowed: [" ++ allowed ++ "]"⟩

def startPsi (o : Start) : Op Unit := do
  onRouter (RouterCore.select .psi)
  -- `_ensure_sonic_pose`
  lift (o.pose.elim (.ok ()) .error)
  resume
  let s ← lift o.session
  onSession fun _ => s
  onController (Controller.adopt s.state s.error)

def startGroot : Op Unit := do
  raiseIf ((← get).groot.alive = false) (checkpointError "GR00T backend is not running")
  onRouter (RouterCore.select .groot)
  resume
  sendKey .p
  onController Controller.run

def start (o : Start) : Op ControllerStatus := do
  raiseIf ((← get).controller.switching = true) (checkpointError "model switch is in progress")
  raiseIf ((← get).controller.state = .error) (checkpointError "session is in ERROR; Reset before Start")
  match (← get).controller.selected.kind with
  | .psi => startPsi o
  | .groot => startGroot
  status

def stop : Op ControllerStatus := do
  onRouter RouterCore.halt
  match (← get).controller.selected.kind with
  | .psi => sessionStop
  | .groot =>
    let w ← get
    if w.controller.state = .running ∧ w.groot.alive = true then sendKey .p else pure ()
  onController Controller.halt
  status

/-- `_prepare_groot`. No step of it looks at the processes, so one wait stands for all. -/
def prepareGroot (o : Prepare) : Op Unit := do
  onRouter (RouterCore.select .groot)
  resume
  onGroot (GrootGroup.wait o.serverSurvives o.vlaSurvives)
  sendKey .k
  match o.debug with
  | .first => pure ()
  | .retry =>
    sendKey .k
    sendKey .k
  | .never =>
    sendKey .k
    sendKey .k
    onRouter RouterCore.halt
    throw (checkpointError "SONIC controller produced no g1_debug state")
  sendKey .i
  onRouter RouterCore.halt

def startBackend (o : BackendStart) (e : ModelEntry) : Op Unit := do
  match e.kind with
  | .psi =>
    match e.runDir, e.step with
    | some runDir, some step =>
      let server ← lift ((← get).server.start o.server runDir step)
      modify fun w => w.setServer (server.elapse o.serverSurvives)
      let info ← lift o.verify
      onSession (Session.adoptPolicy info)
      onRouter (RouterCore.select .psi)
    | _, _ => throw ⟨"AssertionError", ""⟩
  | .groot =>
    onGroot (GrootGroup.start o.groot)
    onRouter (RouterCore.select .groot)
    prepareGroot o.prepare

def stopBackend (o : BackendStop) (e : ModelEntry) : Op Unit := do
  onRouter RouterCore.halt
  match e.kind with
  | .psi =>
    sessionStop
    let r := (← get).server.stop o.serverExits
    modify fun w => w.setServer r.2
    lift r.1
  | .groot => onGroot (GrootGroup.stop o.groot)

def rollback (o : BackendStart) (previous : ModelEntry) : Op String := do
  match ← attempt (startBackend o previous) with
  | some e => return "rollback to " ++ previous.label ++ " failed: " ++ e.describe
  | none =>
    onController fun c => { c with selected := previous }
    return "rolled back to " ++ previous.label

/-- The body of `switch` between two models. -/
def change (o : Switch) (previous target : ModelEntry) : Op Unit := do
  let _ ← stop
  stopBackend o.stop previous
  match ← attempt (startBackend o.start target) with
  | some e =>
    let note ← rollback o.back previous
    let text := "model switch to " ++ target.label ++ " failed: " ++ e.describe ++ "; " ++ note
    onController (Controller.fail text)
    throw (checkpointError text)
  | none =>
    onController fun c => { c with selected := target }
    onController Controller.ready

def switch (id : String) (o : Switch) : Op ControllerStatus := do
  let target ← entry id
  raiseIf (target.available = false) ⟨"CheckpointUnavailable", target.unavailable⟩
  raiseIf ((← get).controller.switchLock = true)
    ⟨"SwitchInProgress", "another model switch is already in progress"⟩
  onController Controller.lock
  ensuring (fun w => w.setController w.controller.unlock) do
    let previous := (← get).controller.selected
    if target.id ≠ previous.id then change o previous target else pure ()
  status

def armSettle (active : ModelEntry) : Op Unit := do
  let w ← get
  if active.kind = .groot ∧ w.initialPose = true then
    onRouter (RouterCore.select .initialPose)
    resume
  else if active.kind = .groot ∧ w.warmstart = true then
    onRouter (RouterCore.select .warmstart)
    resume
  else pure ()

/-- `reset` stops the GR00T group when it is the selected one, and starts it again after the scene. -/
def stopGroup (o : GrootStop) (active : ModelEntry) : Op Unit :=
  match active.kind with
  | .psi => pure ()
  | .groot => onGroot (GrootGroup.stop o)

def startGroup (o : Reset) (active : ModelEntry) : Op Unit :=
  match active.kind with
  | .psi => pure ()
  | .groot => do
    onGroot (GrootGroup.start o.groot)
    prepareGroot o.prepare

/-- The part of `reset` after `_request_reset`. -/
def resetDone (o : Reset) (active : ModelEntry) : Op Unit := do
  match ← attempt (startGroup o active) with
  | some e => onController (Controller.fail ("reset failed: " ++ e.describe))
  | none =>
    onController Controller.ready
    armSettle active

def reset (o : Reset) : Op ControllerStatus := do
  let _ ← stop
  let active := (← get).controller.selected
  stopGroup o.stop active
  match o.request with
  | some text => onController (Controller.fail text)
  | none => resetDone o active
  status

end System

/-! ### Runs -/

/-- A call with what it meets. -/
inductive Call
  | start (o : Start)
  | stop
  | reset (o : Reset)
  | switch (id : String) (o : Switch)

def Call.op : Call → System.Op ControllerStatus
  | .start o => System.start o
  | .stop => System.stop
  | .reset o => System.reset o
  | .switch id o => System.switch id o

/-- One turn of a run: a call, or time in which processes may exit on their own. -/
inductive Turn
  | call (c : Call)
  | elapse (server grootServer vla : Bool)

namespace System

def turn (w : System) : Turn → System
  | .call c => after c.op w
  | .elapse server grootServer vla =>
    (w.setServer (w.server.elapse server)).setGroot (w.groot.elapse grootServer vla)

/-- The policy server was started for the checkpoint of this entry. -/
def Serves (w : System) (e : ModelEntry) : Prop := w.server.runDir = e.runDir ∧ w.server.step = e.step

/-- This switch stops the selected model. -/
def Changes (w : System) (id : String) : Prop :=
  ∃ target, w.models.find id = some target ∧ target.available = true ∧ w.controller.switchLock = false ∧
    target.id ≠ w.controller.selected.id

/-- The system as the launcher hands it over: a PSI model is selected and its server was started, the GR00T
    group was not, and no call has been made. -/
structure Launched (w : System) : Prop where
  selected : w.models.find w.controller.selected.id = some w.controller.selected
  kind : w.controller.selected.kind = .psi
  state : w.controller.state = .idle
  free : w.controller.switching = false ∧ w.controller.switchLock = false
  gate : w.router.gate = false ∧ w.router.closed = false
  serves : w.Serves w.controller.selected
  groot : w.groot.server = none ∧ w.groot.vla = none ∧ w.groot.keys = []

/-- The launcher's own hand-over: the server of `e` runs and was adopted. -/
def launch (m : Models) (e : ModelEntry) (pid : Nat) (info : ServerInfo) : System where
  models := m
  controller := { selected := e }
  router := RouterCore.select .psi {}
  session := Session.adoptPolicy info {}
  server := { process := some { pid }, runDir := e.runDir, step := e.step }
  groot := { checkpoint := m.checkpoint }

theorem launch_launched {m : Models} {e : ModelEntry} (pid : Nat) (info : ServerInfo) (hm : m.find e.id = some e)
    (hk : e.kind = .psi) : (launch m e pid info).Launched :=
  ⟨hm, hk, rfl, ⟨rfl, rfl⟩, ⟨rfl, rfl⟩, ⟨rfl, rfl⟩, rfl, rfl, rfl⟩

end System

/-- Every sequence of calls. -/
def systemMachine : Concurrency.Machine System Turn := ⟨System.Launched, fun w t => some (w.turn t)⟩

/-! ### A bridge with two PSI models -/

namespace System

def fineTuned : ModelEntry :=
  { id := "fine-tuned", label := "Fine-tuned", kind := .psi, runDir := some "/runs/fine", step := some 40000 }

def base : ModelEntry :=
  { id := "base", label := "Base", kind := .psi, runDir := some "/runs/base", step := some 30000 }

def served : ServerInfo where
  runDir := "/runs/fine"
  actionDim := 36
  actionChunkSize := 30
  actionExecHorizon := 30
  stateDim := 32
  historyLength := 1
  imageKey := "head"
  resizeSize := (224, 224)
  centerCropSize := (224, 224)
  normalizeState := true
  rtcEnabled := true
  ckptStep := some 40000
  datasetName := "task"

/-- The first of the two is served. -/
def bridge : System := launch ⟨[fineTuned, base], by simp [fineTuned, base], "/checkpoints/groot"⟩ fineTuned 10 served

theorem bridge_launched : bridge.Launched := launch_launched 10 served (by decide) rfl

/-- A start of either backend that meets no failure. -/
def smooth : BackendStart :=
  { server := { spawn := .pid 11 }, verify := .ok served, groot := { server := .pid 12, vla := .pid 13 } }

def toGroot : Turn := .call (.switch "groot" { start := smooth, back := smooth })

def begin : Turn := .call (.start { session := .ok {} })

end System
end HumanoidLab
