import HumanoidLab.Lib.Machine
import Mathlib.Data.Finset.Basic
import Mathlib.Logic.Function.Basic

/-! The runs of the evaluation server (`evaluation/app.py`): `RUNS` in memory, a manifest for each run on disk, the request
    handlers, the one worker, and the restart scan. A section under `LOCK` is one step; a kill inside it, before the
    manifest is replaced, leaves what a kill before it leaves. -/

namespace HumanoidLab

inductive RunStatus
  | queued
  | running
  | completed
  | failed
  | cancelled
  deriving DecidableEq, Repr

def RunStatus.active : RunStatus → Bool
  | .queued | .running => true
  | .completed | .failed | .cancelled => false

def RunStatus.text : RunStatus → String
  | .queued => "queued"
  | .running => "running"
  | .completed => "completed"
  | .failed => "failed"
  | .cancelled => "cancelled"

inductive PolicyModel
  | base
  | ft
  deriving DecidableEq, Repr

/-- The task mode of a run, with what the worker reads of its configuration. -/
inductive RunConfig
  | vaeRoundtrip
  | policyWindow (models : List PolicyModel)
  | policyDream (models : List PolicyModel) (chunks : Nat)
  deriving DecidableEq, Repr

namespace RunConfig

def policy : RunConfig → Bool
  | vaeRoundtrip => false
  | policyWindow _ | policyDream _ _ => true

def models : RunConfig → List PolicyModel
  | vaeRoundtrip => []
  | policyWindow models | policyDream models _ => models

/-- The chunks that each model predicts. -/
def total : RunConfig → Nat
  | vaeRoundtrip => 0
  | policyWindow _ => 1
  | policyDream _ chunks => chunks

end RunConfig

/-- A run, in memory or in its manifest. -/
structure EvalRun where
  config : RunConfig
  status : RunStatus := .queued
  stage : String := "queued"
  cancelRequested : Bool := false
  error : Option String := none
  deriving DecidableEq, Repr

/-- What the restart scan makes of a manifest. -/
def EvalRun.settle (r : EvalRun) : EvalRun :=
  if r.status.active then
    if r.cancelRequested then { r with status := .cancelled, stage := "cancelled", error := none }
    else { r with status := .failed, error := some "Sunucu yeniden başlatıldı; koşuyu tekrar başlatın." }
  else r

/-- Where the worker is in `execute` or `execute_policy`: at the next statement that matters to the run. -/
inductive WorkerAt
  | entered
  | leaving
  | starting
  | reconstructing
  | preparing
  | variant (rest : List PolicyModel)
  | chunk (model : PolicyModel) (rest : List PolicyModel) (done : Nat)
  | sampling (model : PolicyModel) (rest : List PolicyModel) (done : Nat)
  | predicting (model : PolicyModel) (rest : List PolicyModel) (done : Nat)
  | predicted (model : PolicyModel) (rest : List PolicyModel) (done : Nat)
  | collecting (rest : List PolicyModel)
  | finishing
  | announcing
  | raised (error : String)
  | reporting
  | closing
  deriving DecidableEq, Repr

/-- What the worker does next. A save that fails raises `error`. -/
inductive WorkerAct
  | advance (error : Option String)
  | predict
  | note (stage : String) (error : Option String)
  | raises (error : String)
  deriving DecidableEq, Repr

/-- The run after an act of the worker, whether its manifest is replaced, and where the worker is then. -/
structure WorkerMove where
  run : EvalRun
  saved : Bool
  at' : WorkerAt

namespace WorkerMove

def quiet (r : EvalRun) (next : WorkerAt) : WorkerMove := ⟨r, false, next⟩

def save (r : EvalRun) (next : WorkerAt) : Option String → WorkerMove
  | none => ⟨r, true, next⟩
  | some error => ⟨r, false, .raised error⟩

def log (r : EvalRun) (stage : String) (next : WorkerAt) (error : Option String) : WorkerMove :=
  save { r with stage := stage } next error

end WorkerMove

namespace WorkerAt
open WorkerMove

/-- The statements of the `try` between the status `running` and the last one. -/
def body : WorkerAt → Bool
  | reconstructing | preparing | variant _ | chunk .. | sampling .. | predicting .. | predicted .. | collecting _ => true
  | entered | leaving | starting | finishing | announcing | raised _ | reporting | closing => false

/-- The next statement, for a run that is or is not in `CANCELLED`. -/
def advance (r : EvalRun) (cancelled : Bool) (error : Option String) : WorkerAt → Option WorkerMove
  | entered => some (quiet r (if r.config.policy && cancelled then leaving else starting))
  | leaving => some (quiet { r with status := .cancelled } announcing)
  | starting => some (save { r with status := .running } (if r.config.policy then preparing else reconstructing) error)
  | reconstructing => some (quiet r finishing)
  | preparing => some (quiet r (variant r.config.models))
  | variant [] => some (quiet r finishing)
  | variant (model :: rest) => some (quiet r (if cancelled then finishing else chunk model rest 0))
  | chunk model rest done =>
    if done < r.config.total ∧ !cancelled then some (quiet r (sampling model rest done))
    else some (quiet r (if done = 0 then variant rest else collecting rest))
  | sampling model rest done => some (log r "sampling" (predicting model rest done) error)
  | predicting .. => none
  | predicted model rest done => some (log r "chunk" (chunk model rest (done + 1)) error)
  | collecting rest => some (save r (variant rest) error)
  | finishing =>
    some (quiet { r with status := if r.config.policy && cancelled then .cancelled else .completed } announcing)
  | announcing => some (log r r.status.text closing error)
  | raised error => some (quiet { r with status := .failed, error := some error } reporting)
  | reporting => some ⟨{ r with stage := "failed" }, error.isNone, closing⟩
  | closing => none

def move (r : EvalRun) (cancelled : Bool) : WorkerAct → WorkerAt → Option WorkerMove
  | .advance error, pc => pc.advance r cancelled error
  | .predict, predicting model rest done => some (quiet r (predicted model rest done))
  | .predict, _ => none
  | .note stage error, pc => if pc.body then some (log r stage pc error) else none
  | .raises error, pc => if pc.body then some (quiet r (raised error)) else none

end WorkerAt

inductive ServerPhase
  | down
  | scanning
  | up
  deriving DecidableEq, Repr

/-- The run directories and their manifests, and what a live server has: `RUNS` with its keys in order, `CANCELLED`, the
    policy runs whose snapshot is being taken, the runs that a handler is about to submit, the queue of the worker, and
    the run that it is at. -/
structure EvalServer (ι : Type) where
  phase : ServerPhase := .down
  directories : Finset ι := ∅
  disk : ι → Option EvalRun := fun _ => none
  ids : List ι := []
  runs : ι → Option EvalRun := fun _ => none
  cancelled : Finset ι := ∅
  snapshots : ι → Option RunConfig := fun _ => none
  unsubmitted : List ι := []
  queue : List ι := []
  worker : Option (ι × WorkerAt) := none

inductive EvalStep (ι : Type)
  | createRun (i : ι) (error : Option String)
  | createPolicyRun (i : ι) (config : RunConfig)
  | snapshotRaises (i : ι)
  | admitPolicyRun (i : ι) (error : Option String)
  | submit (i : ι)
  | cancelRun (i : ι) (error : Option String)
  | listRuns
  | getRun (i : ι)
  | artifact (i : ι)
  | take
  | importRaises (i : ι)
  | work (i : ι) (act : WorkerAct)
  | close (i : ι)
  | kill
  | boot
  | scan (i : ι) (error : Option String)
  | serve

namespace EvalServer

variable {ι : Type} [DecidableEq ι]

/-- The most runs that may be queued or running. -/
def maxActive : Nat := 4

def status (s : EvalServer ι) (i : ι) : Option RunStatus := (s.runs i).map (·.status)

def isActive (s : EvalServer ι) (i : ι) : Bool := (s.status i).any RunStatus.active

def activeCount (s : EvalServer ι) : Nat := s.ids.countP s.isActive

/-- What a kill leaves. -/
def lost (s : EvalServer ι) : EvalServer ι := { directories := s.directories, disk := s.disk }

def setRun (s : EvalServer ι) (i : ι) (r : EvalRun) (saved : Bool) : EvalServer ι :=
  { s with
    runs := Function.update s.runs i (some r)
    disk := if saved then Function.update s.disk i (some r) else s.disk }

/-- A run enters `RUNS`; a handler submits it when its manifest is saved. -/
def register (s : EvalServer ι) (i : ι) (config : RunConfig) (error : Option String) : EvalServer ι :=
  { s.setRun i ⟨config, .queued, "queued", false, none⟩ error.isNone with
    ids := s.ids ++ [i]
    unsubmitted := if error.isNone then s.unsubmitted ++ [i] else s.unsubmitted }

def step (s : EvalServer ι) : EvalStep ι → Option (EvalServer ι)
  | .createRun i error =>
    if s.phase = .up ∧ i ∉ s.directories ∧ s.activeCount < maxActive then
      some { s.register i .vaeRoundtrip error with directories := insert i s.directories }
    else none
  -- The first check of a policy run; its snapshot is taken outside the lock.
  | .createPolicyRun i config =>
    if s.phase = .up ∧ i ∉ s.directories ∧ config.policy ∧ s.activeCount < maxActive then
      some { s with directories := insert i s.directories, snapshots := Function.update s.snapshots i (some config) }
    else none
  | .snapshotRaises i => (s.snapshots i).map fun _ =>
    { s with directories := s.directories.erase i, snapshots := Function.update s.snapshots i none }
  | .admitPolicyRun i error => (s.snapshots i).map fun config =>
    if s.activeCount < maxActive then
      { s.register i config error with snapshots := Function.update s.snapshots i none }
    else { s with directories := s.directories.erase i, snapshots := Function.update s.snapshots i none }
  | .submit i =>
    if i ∈ s.unsubmitted then some { s with unsubmitted := s.unsubmitted.erase i, queue := s.queue ++ [i] } else none
  | .cancelRun i error =>
    if s.phase = .up then (s.runs i).map fun r =>
      if r.config.policy ∧ r.status.active then
        { s.setRun i { r with cancelRequested := true } error.isNone with cancelled := insert i s.cancelled }
      else s
    else none
  | .listRuns | .getRun _ | .artifact _ => if s.phase = .up then some s else none
  | .take =>
    match s.worker, s.queue with
    | none, i :: rest => some { s with queue := rest, worker := some (i, .entered) }
    | _, _ => none
  -- The imports of `execute_policy` stand before its `try`.
  | .importRaises i =>
    if s.worker = some (i, .entered) ∧ (s.runs i).any (·.config.policy) then some { s with worker := none } else none
  | .work i act =>
    match s.worker, s.runs i with
    | some (j, pc), some r =>
      if j = i then (pc.move r (i ∈ s.cancelled) act).map fun m =>
        { s.setRun i m.run m.saved with worker := some (i, m.at') }
      else none
    | _, _ => none
  | .close i =>
    if s.worker = some (i, .closing) then some { s with worker := none, cancelled := s.cancelled.erase i } else none
  | .kill => some s.lost
  | .boot => if s.phase = .down then some { s with phase := .scanning } else none
  | .scan i error =>
    if s.phase = .scanning ∧ s.runs i = none then (s.disk i).map fun m =>
      -- A manifest that is settled already is not written again.
      if m.status.active ∧ error.isSome then s.lost
      else { s.setRun i m.settle m.status.active with ids := s.ids ++ [i] }
    else none
  | .serve =>
    if s.phase = .scanning ∧ ∀ i ∈ s.directories, (s.disk i).isSome → (s.runs i).isSome then some { s with phase := .up }
    else none

end EvalServer

/-- A server over an empty store. -/
def evalMachine (ι : Type) [DecidableEq ι] : Concurrency.Machine (EvalServer ι) (EvalStep ι) where
  init s := s = {}
  step := EvalServer.step

end HumanoidLab
