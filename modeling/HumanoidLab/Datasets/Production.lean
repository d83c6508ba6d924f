import HumanoidLab.Lib.Filesystem
import HumanoidLab.Lib.Machine
import Mathlib.Data.List.Nodup

/-! The bulk conversion of a collection (`scripts/convert-unitree-sonic-production.py`): which episodes a run skips,
    and how it replaces the folder of an episode. A run may raise or be killed at every step of the file system. -/

namespace HumanoidLab
open Filesystem

/-- `parse_range` and the selection options of a run, with the exclusions. -/
structure SelectionArgs where
  episodes : Option (Nat × Nat)
  exclude : List Int

/-- `select_episodes`: the selection, unless an option is out of range. -/
def selectEpisodes (totalEpisodes : Nat) (args : SelectionArgs) : Option (List Nat) :=
  let base := args.episodes.elim (some (List.range totalEpisodes)) fun (start, stop) =>
    if totalEpisodes < stop then none else some ((List.range stop).drop start)
  if args.exclude.all fun index => 0 ≤ index && index < totalEpisodes then
    base.map fun base => base.filter fun index => (index : Int) ∉ args.exclude
  else none

theorem selectEpisodes_nodup {totalEpisodes : Nat} {args : SelectionArgs} {selection : List Nat}
    (h : selectEpisodes totalEpisodes args = some selection) : selection.Nodup := by
  simp only [selectEpisodes, Option.ite_none_right_eq_some, Option.map_eq_some_iff] at h
  obtain ⟨-, base, hbase, rfl⟩ := h
  refine List.Nodup.filter _ ?_
  cases hargs : args.episodes with
  | none =>
    rw [hargs] at hbase
    cases hbase
    exact List.nodup_range
  | some range =>
    rw [hargs] at hbase
    simp only [Option.elim, Option.ite_none_left_eq_some] at hbase
    obtain ⟨-, ⟨⟩⟩ := hbase
    exact List.nodup_range.sublist (List.drop_sublist _ _)

/-- Where an episode comes from. -/
structure EpisodeSource where
  collection : String
  episodeIndex : Nat
  dataFile : String
  dataFileSha256 : String
  datasetFromIndex : Nat
  datasetToIndex : Nat
  deriving DecidableEq, Repr

/-- What a later run reads of a manifest. -/
structure Manifest where
  schemaVersion : Option Nat
  source : Option EpisodeSource
  encoderSha256 : Option String
  observationConfigSha256 : Option String
  codeBundleSha256 : Option String
  outputSha256 : Option String
  frames : Option (Nat × Nat)
  deriving DecidableEq, Repr

inductive EpisodeFile
  | action
  | manifest
  deriving DecidableEq, Repr

/-- What a file contains: a manifest, or other bytes. -/
inductive EpisodeContent (β : Type)
  | bytes (b : β)
  | json (m : Manifest)
  deriving DecidableEq, Repr

/-- The folders of an episode: its artifact, and those that `mkdtemp` makes beside it. -/
inductive EpisodeDir
  | target (episode : Nat)
  | temporary (episode nonce : Nat)
  deriving DecidableEq, Repr

/-- What a run fixes: the episodes that it selects, each once as `selectEpisodes` gives them, and what its artifacts are made from. -/
structure Conversion where
  selection : List Nat
  nodup : selection.Nodup
  force : Bool
  source : Nat → EpisodeSource
  encoderSha256 : String
  configSha256 : String
  bundleSha256 : String

def converterSchema : Nat := 1

/-- Where a run stands in the loop; `left` are the episodes after the present one. -/
inductive ConversionStage (β : Type)
  | selecting (left : List Nat)
  | writing (episode nonce : Nat) (left : List Nat)
  | signing (episode nonce : Nat) (action : β) (frames : Nat × Nat) (left : List Nat)
  | clearing (episode nonce : Nat) (left : List Nat)
  | installing (episode nonce : Nat) (left : List Nat)
  | installed (episode nonce : Nat) (left : List Nat)
  | discarding (episode nonce : Nat) (left : List Nat)

/-- The episodes that a run has still to settle. -/
def ConversionStage.left {β : Type} : ConversionStage β → List Nat
  | .selecting left => left
  | .writing e _ left | .signing e _ _ _ left | .clearing e _ left | .installing e _ left | .installed e _ left
  | .discarding e _ left => e :: left

/-- The output folder and the run under way; `reported` is the run that has just ended without a failure. -/
structure Production (β : Type) where
  fs : Tree EpisodeDir EpisodeFile (EpisodeContent β)
  running : Option (Conversion × ConversionStage β) := none
  failures : List Nat := []
  reported : Option Conversion := none

/-- The steps of runs. `torn` leaves other bytes in the file that is being written (a manifest that is cut short does not
    parse), `unlink` and `remove` are what a recursive delete does, and `fail` raises. -/
inductive ConversionStep (β : Type)
  | start (run : Conversion)
  | skip
  | mkdtemp (nonce : Nat)
  | savez (action : β) (frames : Nat × Nat)
  | torn (b : β)
  | unlink (file : EpisodeFile)
  | remove
  | next
  | fail
  | finish
  | kill

section
variable {β : Type} (sha : EpisodeContent β → String)

/-- `compatible`, for the folder of an episode. -/
def compatible (run : Conversion) (episode : Nat) (d : Folder EpisodeFile (EpisodeContent β)) (m : Manifest) : Bool :=
  m.schemaVersion = some converterSchema && m.source = some (run.source episode) &&
    m.encoderSha256 = some run.encoderSha256 && m.observationConfigSha256 = some run.configSha256 &&
    m.codeBundleSha256 = some run.bundleSha256 && (d.read .action).any fun action => m.outputSha256 = some (sha action)

/-- The manifest that a run writes. -/
def Conversion.manifest (run : Conversion) (episode : Nat) (action : β) (frames : Nat × Nat) : Manifest where
  schemaVersion := converterSchema
  source := run.source episode
  encoderSha256 := run.encoderSha256
  observationConfigSha256 := run.configSha256
  codeBundleSha256 := run.bundleSha256
  outputSha256 := sha (.bytes action)
  frames := frames

/-- An episode is skipped when its folder has a compatible manifest that says its frames. -/
def skips (run : Conversion) (episode : Nat) (fs : Tree EpisodeDir EpisodeFile (EpisodeContent β)) : Bool :=
  !run.force && (fs (.target episode)).any fun d =>
    match d.read .manifest with
    | some (.json m) => compatible sha run episode d m && m.frames.isSome
    | _ => false

namespace Production

def step (s : Production β) (a : ConversionStep β) : Option (Production β) :=
  match s.running, a with
  | none, .start run => some { s with running := some (run, .selecting run.selection), failures := [], reported := none }
  | some (run, .selecting []), .finish =>
    some { s with running := none, reported := if s.failures = [] then some run else none }
  | some (run, .selecting (e :: left)), .skip =>
    if skips sha run e s.fs then some { s with running := some (run, .selecting left) } else none
  | some (run, .selecting (e :: left)), .mkdtemp n =>
    if !skips sha run e s.fs && (s.fs (.temporary e n)).isNone then
      some { s with fs := s.fs.make (.temporary e n), running := some (run, .writing e n left) }
    else none
  | some (_, .writing e n _), .torn b => some { s with fs := s.fs.edit (.temporary e n) (·.write .action (.bytes b)) }
  | some (run, .writing e n left), .savez action frames =>
    some { s with
      fs := s.fs.edit (.temporary e n) (·.write .action (.bytes action))
      running := some (run, .signing e n action frames left) }
  | some (_, .signing e n _ _ _), .torn b => some { s with fs := s.fs.edit (.temporary e n) (·.write .manifest (.bytes b)) }
  | some (run, .signing e n action frames left), .next =>
    some { s with
      fs := s.fs.edit (.temporary e n) (·.write .manifest (.json (run.manifest sha e action frames)))
      running := some (run, .clearing e n left) }
  | some (_, .clearing e _ _), .unlink file => some { s with fs := s.fs.edit (.target e) (·.unlink file) }
  | some (_, .clearing e _ _), .remove => some { s with fs := s.fs.remove (.target e) }
  | some (run, .clearing e n left), .next =>
    if (s.fs (.target e)).isNone then some { s with running := some (run, .installing e n left) } else none
  | some (run, .installing e n left), .next =>
    if s.fs.Vacant (.target e) && (s.fs (.temporary e n)).isSome then
      some { s with fs := s.fs.rename (.temporary e n) (.target e), running := some (run, .installed e n left) }
    else none
  | some (run, .installed _ _ left), .next => some { s with running := some (run, .selecting left) }
  | some (run, .writing e n left), .fail
  | some (run, .signing e n _ _ left), .fail
  | some (run, .clearing e n left), .fail
  | some (run, .installing e n left), .fail
  | some (run, .installed e n left), .fail => some { s with running := some (run, .discarding e n left) }
  | some (_, .discarding e n _), .unlink file => some { s with fs := s.fs.edit (.temporary e n) (·.unlink file) }
  | some (_, .discarding e n _), .remove => some { s with fs := s.fs.remove (.temporary e n) }
  | some (run, .discarding e _ left), .next =>
    some { s with running := some (run, .selecting left), failures := e :: s.failures }
  | some _, .kill => some { s with running := none, reported := none }
  | _, _ => none

end Production

/-- Runs over one output folder, one after the other, from any state of it. -/
def productionMachine : Concurrency.Machine (Production β) (ConversionStep β) where
  init s := s.running = none ∧ s.reported = none
  step := Production.step sha

end
end HumanoidLab
