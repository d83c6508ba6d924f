import HumanoidLab.Lib.Filesystem
import HumanoidLab.Lib.Machine

/-! The base artifact (`psi0_bridge/base_artifact.py`): it is built in a temporary folder and swapped into the served
    one. A call of `materialize_base_run_dir` may raise or be killed at every step of the file system. -/

namespace HumanoidLab
open Filesystem

/-- `out_dir`, and the folders beside it. -/
inductive BaseDir
  | served
  | replaced
  | temp (pid : Nat)
  deriving DecidableEq, Repr

inductive BaseFile
  | runConfig
  | argv
  | pooledCache
  | model
  | provenance
  | partialProvenance
  deriving DecidableEq, Repr

/-- The fingerprints that a record was missing. -/
structure Refreshed where
  sourceSha256 : List (String × String) := []
  mergedSha256 : Option String := none
  deriving DecidableEq, Repr

/-- The provenance record: its fingerprints, and everything else that it says. -/
structure Provenance (α : Type) where
  fields : α
  sourceSha256 : List (String × Option String)
  mergedSha256 : Option String
  deriving DecidableEq, Repr

/-- What a file contains. -/
inductive BaseContent (α : Type)
  | data (bytes : α)
  | record (provenance : Provenance α)
  deriving DecidableEq, Repr

/-- What a build writes: the sources may change between two builds, and may have no pooled cache. -/
structure BaseBuild (α : Type) where
  runConfig : α
  argv : α
  pooledCache : Option α
  model : α
  record : Provenance α
  deriving DecidableEq, Repr

variable {α : Type}

/-- `_record_fingerprints`. -/
def Provenance.recordFingerprints (refreshed : Refreshed) (p : Provenance α) : Provenance α :=
  { p with
    sourceSha256 := p.sourceSha256.map fun (name, sha) => (name, (refreshed.sourceSha256.lookup name).or sha)
    mergedSha256 := refreshed.mergedSha256.or p.mergedSha256 }

/-- The files that a build writes before its record. -/
def BaseBuild.files (b : BaseBuild α) : List (BaseFile × BaseContent α) :=
  [(.runConfig, .data b.runConfig), (.argv, .data b.argv)] ++ b.pooledCache.toList.map (fun c => (.pooledCache, .data c)) ++
    [(.model, .data b.model)]

/-- Where a call stands. In a swap, `lone` says that it found the served folder absent and a replaced one. -/
inductive BasePhase (α : Type)
  | idle
  | checking
  | recording (p : Provenance α)
  | cleaning (b : BaseBuild α)
  | building (b : BaseBuild α) (left : List (BaseFile × BaseContent α))
  | signing (b : BaseBuild α)
  | clearing (lone : Bool)
  | displacing (lone : Bool)
  | installing (lone : Bool)
  | restoring
  | reclaiming
  | discarding
  deriving DecidableEq, Repr

/-- A swap is under way that found only the replaced folder. -/
def BasePhase.lone : BasePhase α → Bool
  | .clearing lone | .displacing lone | .installing lone => lone
  | _ => false

/-- The folders and the call under way, with the builds that were finished, and whether a call has succeeded. -/
structure Materializer (α : Type) where
  fs : Tree BaseDir BaseFile (BaseContent α)
  phase : BasePhase α := .idle
  pid : Nat := 0
  finished : List (BaseBuild α) := []
  succeeded : Bool := false

/-- The steps of a call. `torn` leaves any content in the file that is being written, `unlink` and `remove` are what
    a recursive delete does, and `fail` raises. -/
inductive BaseStep (α : Type)
  | call (pid : Nat)
  | reuse
  | refresh (refreshed : Refreshed)
  | rebuild (b : BaseBuild α)
  | torn (c : BaseContent α)
  | unlink (dir : BaseDir) (file : BaseFile)
  | remove (dir : BaseDir)
  | next
  | fail
  | kill

namespace Materializer

/-- The record of the served folder, when the call can look at its artifact. -/
def existing (s : Materializer α) : Option (Provenance α) :=
  match s.fs .served with
  | none => none
  | some d =>
    match d.read .model, d.read .provenance with
    | some _, some (.record p) => some p
    | _, _ => none

def edit (s : Materializer α) (dir : BaseDir) (f : Folder BaseFile (BaseContent α) → Folder BaseFile (BaseContent α)) :
    Materializer α :=
  { s with fs := s.fs.edit dir f }

/-- `_write_json_atomic`, at its rename. -/
def sign (s : Materializer α) (dir : BaseDir) (p : Provenance α) : Materializer α :=
  s.edit dir fun d => (d.write .provenance (.record p)).unlink .partialProvenance

/-- The recursive delete that the call is at, if any, works on this folder. -/
def deletes (s : Materializer α) (dir : BaseDir) : Bool :=
  match s.phase, dir with
  | .cleaning _, .temp _ => true
  | .clearing _, .replaced => true
  | .reclaiming, .replaced => true
  | .discarding, .temp pid => pid = s.pid
  | _, _ => false

/-- The step of `materialize_base_run_dir` that is due, when it goes well. -/
def advance (s : Materializer α) : Option (Materializer α) :=
  match s.phase with
  | .idle | .checking => none
  | .recording p => some { s.sign .served p with phase := .idle, succeeded := true }
  | .cleaning b => some { s with fs := s.fs.make (.temp s.pid), phase := .building b b.files }
  | .building b (e :: left) => some { s.edit (.temp s.pid) (·.write e.1 e.2) with phase := .building b left }
  | .building b [] => some { s with phase := .signing b }
  | .signing b =>
    let lone := (s.fs .served).isNone && (s.fs .replaced).isSome
    some { s.sign (.temp s.pid) b.record with phase := .clearing lone, finished := b :: s.finished }
  | .clearing lone => some { s with phase := .displacing lone }
  | .displacing lone =>
    if (s.fs .served).isNone then some { s with phase := .installing lone }
    else if s.fs.Vacant .replaced then some { s with fs := s.fs.rename .served .replaced, phase := .installing lone }
    else none
  | .installing _ =>
    if s.fs.Vacant .served && (s.fs (.temp s.pid)).isSome then
      some { s with fs := s.fs.rename (.temp s.pid) .served, phase := .reclaiming }
    else none
  | .restoring =>
    if s.fs.Vacant .served then some { s with fs := s.fs.rename .replaced .served, phase := .discarding } else none
  | .reclaiming => some { s with phase := .idle, succeeded := true }
  | .discarding => some { s with phase := .idle }

/-- The step that is due raises. -/
def raise (s : Materializer α) : Option (Materializer α) :=
  match s.phase with
  | .idle => none
  | .checking | .cleaning _ | .discarding => some { s with phase := .idle }
  | .recording _ => some { s.edit .served (·.unlink .partialProvenance) with phase := .idle }
  | .signing _ => some { s.edit (.temp s.pid) (·.unlink .partialProvenance) with phase := .discarding }
  | .installing _ =>
    some { s with phase := if (s.fs .replaced).isSome && (s.fs .served).isNone then .restoring else .discarding }
  | .building _ _ | .clearing _ | .displacing _ | .restoring | .reclaiming => some { s with phase := .discarding }

/-- A write is under way. -/
def tear (s : Materializer α) (c : BaseContent α) : Option (Materializer α) :=
  match s.phase with
  | .recording _ => some (s.edit .served (·.write .partialProvenance c))
  | .signing _ => some (s.edit (.temp s.pid) (·.write .partialProvenance c))
  | .building _ (e :: _) => some (s.edit (.temp s.pid) (·.write e.1 c))
  | _ => none

def step (s : Materializer α) : BaseStep α → Option (Materializer α)
  | .call pid =>
    match s.phase with
    | .idle => some { s with phase := .checking, pid := pid }
    | _ => none
  | .reuse =>
    match s.phase, s.existing with
    | .checking, some _ => some { s with phase := .idle, succeeded := true }
    | _, _ => none
  | .refresh refreshed =>
    match s.phase, s.existing with
    | .checking, some p => some { s with phase := .recording (p.recordFingerprints refreshed) }
    | _, _ => none
  | .rebuild b =>
    match s.phase with
    | .checking => some { s with phase := .cleaning b }
    | _ => none
  | .torn c => s.tear c
  | .unlink dir file => if s.deletes dir then some (s.edit dir (·.unlink file)) else none
  | .remove dir => if s.deletes dir then some { s with fs := s.fs.remove dir } else none
  | .next => s.advance
  | .fail => s.raise
  | .kill =>
    match s.phase with
    | .idle => none
    | _ => some { s with phase := .idle }

end Materializer

/-- Calls of `materialize_base_run_dir`, one after the other, from a place where nothing is served. -/
def baseMachine (α : Type) : Concurrency.Machine (Materializer α) (BaseStep α) where
  init s := s.fs .served = none ∧ s.fs .replaced = none ∧ s.phase = .idle ∧ s.finished = [] ∧ s.succeeded = false
  step := Materializer.step

end HumanoidLab
