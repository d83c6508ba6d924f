import HumanoidLab.Datasets.Convert
import HumanoidLab.Lib.Dict
import HumanoidLab.Lib.Fallible
import Mathlib.Data.List.Sort

/-! The split of the episodes (`datasets/psi0_dex3/split.py`, and what `contract.py` checks of a configuration before it). Each
    collection gives a few of its usable episodes, drawn under a seed of its own, to validation and the others to training. -/

namespace HumanoidLab.Psi0Dex3
open Fallible Rounding

inductive SplitError
  | datasetFps
  | sonicFps
  | resampleMethod
  | actionFields
  | camera
  | valFraction
  | timestampErrors
  | tasks (missing extra : List String)
  | instruction (text : String)
  | unknownCollection
  | missingInfo
  | sampleSize
  | noValidation
  | overlap
  | notCovered
  | zeroDivision
  deriving DecidableEq, Repr

/-- `random.Random(seed).sample`: `k` of the elements of a list, each at most as often as it stands there. The same seed draws the
    same. -/
structure Sampler where
  sample : String → List Nat → Int → Except SplitError (List Nat)
  draws : ∀ seed xs k, 0 ≤ k → k ≤ xs.length → ∃ ys, sample seed xs k = .ok ys ∧ ys.Subperm xs ∧ (ys.length : Int) = k
  refuses : ∀ seed xs k, k < 0 ∨ (xs.length : Int) < k → sample seed xs k = .error .sampleSize

/-! ### The configuration -/

structure CollectionContract where
  name : String
  excluded : List Int
  instruction : String
  exclusionReason : Option String
  deriving DecidableEq, Repr

def CollectionContract.usableEpisodes (c : CollectionContract) (totalEpisodes : Nat) : List Nat :=
  (List.range totalEpisodes).filter fun index => (index : Int) ∉ c.excluded

/-- What the split reads of a `ConversionConfig`, and what `assert_contract` checks. -/
structure SplitConfig where
  path : String
  sha256 : String
  name : String
  rawRoot : String
  sonicRoot : String
  trainRepo : String
  cameraTargetKey : String
  cameraExcludedKeys : List String
  sourceFps : Int
  sonicFps : Int
  datasetFps : Int
  resampleMethod : String
  maxTimestampErrorS : FloatEntry
  tailTimestampErrorS : FloatEntry
  actionField : String
  bodyTokenField : String
  splitSeed : Int
  valFraction : FloatEntry
  minValPerCollection : Int
  collections : List CollectionContract
  tasks : List (String × String)

/-- `a < b`. -/
def FloatEntry.lt : FloatEntry → FloatEntry → Bool
  | finite a, finite b => a < b
  | finite _, infinite negative => !negative
  | infinite negative, finite _ => negative
  | infinite true, infinite false => true
  | _, _ => false

namespace SplitConfig

def collectionNames (cfg : SplitConfig) : List String := cfg.collections.map (·.name)

def collection (cfg : SplitConfig) (name : String) : Except SplitError CollectionContract :=
  match cfg.collections.find? (·.name = name) with
  | some c => .ok c
  | none => .error .unknownCollection

/-- `assert_contract`, less its checks of the loader's constants, of the canonical layout and of the pinned model, which no
    configuration changes. -/
def assertContract (isupper : Char → Bool) (cfg : SplitConfig) : Except SplitError Unit :=
  if cfg.datasetFps ≠ cfg.sourceFps then .error .datasetFps
  else if cfg.sonicFps ≤ cfg.datasetFps then .error .sonicFps
  else if cfg.resampleMethod ≠ "nearest_timestamp" then .error .resampleMethod
  else if cfg.actionField = cfg.bodyTokenField then .error .actionFields
  else if cfg.cameraTargetKey ∈ cfg.cameraExcludedKeys then .error .camera
  else if !((FloatEntry.finite 0).lt cfg.valFraction && cfg.valFraction.lt (.finite 1)) then .error .valFraction
  else if !((FloatEntry.finite 0).lt cfg.maxTimestampErrorS && cfg.maxTimestampErrorS.lt cfg.tailTimestampErrorS) then
    .error .timestampErrors
  else
    let missing := (cfg.collectionNames.filter (· ∉ cfg.tasks.map (·.1))).dedup.mergeSort (· ≤ ·)
    let extra := ((cfg.tasks.map (·.1)).filter (· ∉ cfg.collectionNames)).dedup.mergeSort (· ≤ ·)
    if missing ≠ [] ∨ extra ≠ [] then .error (.tasks missing extra)
    else
      match cfg.tasks.find? fun (_, text) => !(text.toList.head?.any isupper && text.toList.getLast? = some '.') with
      | some (_, text) => .error (.instruction text)
      | none => .ok ()

/-- `usable_episodes`, and the number of all episodes. The metadata of a collection may be missing. -/
def usableEpisodes (cfg : SplitConfig) (totals : String → Option Nat) (name : String) : Except SplitError (List Nat) := do
  let c ← cfg.collection name
  match totals name with
  | none => .error .missingInfo
  | some total => return c.usableEpisodes total

end SplitConfig

/-! ### The split -/

def valCount (usable : Nat) (valFraction : ℚ) (minimum : Int) : Int :=
  if (usable : Int) ≤ minimum then max 1 ((usable : Int) - 1)
  else
    let count : Int := roundHalfEven (float64 (valFraction * float64 usable))
    min (max count minimum) ((usable : Int) - 1)

/-- The training and the validation episodes of a collection. -/
def drawSplit (sampler : Sampler) (seed : String) (usable : List Nat) (valFraction : ℚ) (minimum : Int) :
    Except SplitError (List Nat × List Nat) := do
  let drawn ← sampler.sample seed usable (valCount usable.length valFraction minimum)
  let val := drawn.mergeSort
  let train := usable.filter (· ∉ val)
  if (val.length : Int) < minimum then .error .noValidation
  else if train.any (· ∈ val) then .error .overlap
  else if (train ++ val).mergeSort ≠ usable then .error .notCovered
  else return (train, val)

structure CollectionSplit where
  total : Nat
  usable : Nat
  excluded : List Int
  exclusionReason : Option String
  instruction : String
  train : List Nat
  val : List Nat
  deriving DecidableEq, Repr

structure SplitTotals where
  usable : Nat
  train : Nat
  val : Nat
  valFractionRealized : ℚ
  deriving DecidableEq, Repr

structure SplitManifest where
  name : String
  configPath : String
  configSha256 : String
  rawRoot : String
  sonicRoot : String
  seed : Int
  valFraction : FloatEntry
  minValPerCollection : Int
  collections : List (String × CollectionSplit)
  totals : SplitTotals
  normalizationStats : String
  taskInstructions : List (String × String)
  deriving DecidableEq, Repr

/-- The entry of a collection. -/
def splitCollection (sampler : Sampler) (totals : String → Option Nat) (cfg : SplitConfig) (c : CollectionContract) :
    Except SplitError CollectionSplit := do
  let usable ← cfg.usableEpisodes totals c.name
  let (train, val) ← drawSplit sampler s!"{cfg.splitSeed}:{c.name}" usable cfg.valFraction.value cfg.minValPerCollection
  return ⟨(totals c.name).getD 0, usable.length, c.excluded, c.exclusionReason, c.instruction, train, val⟩

def buildSplit (sampler : Sampler) (isupper : Char → Bool) (totals : String → Option Nat) (cfg : SplitConfig) :
    Except SplitError SplitManifest := do
  cfg.assertContract isupper
  let entries ← cfg.collections.mapM (splitCollection sampler totals cfg)
  let trainTotal : Nat := (entries.map (·.train.length)).sum
  let valTotal : Nat := (entries.map (·.val.length)).sum
  if trainTotal + valTotal = 0 then .error .zeroDivision
  else return {
    name := cfg.name
    configPath := cfg.path
    configSha256 := cfg.sha256
    rawRoot := cfg.rawRoot
    sonicRoot := cfg.sonicRoot
    seed := cfg.splitSeed
    valFraction := cfg.valFraction
    minValPerCollection := cfg.minValPerCollection
    collections := (cfg.collections.zip entries).foldl (fun items (c, entry) => Dict.set items c.name entry) []
    totals := ⟨trainTotal + valTotal, trainTotal, valTotal, float64 (valTotal / ((trainTotal + valTotal : Nat) : ℚ))⟩
    normalizationStats := s!"{cfg.trainRepo}/meta/stats_psi0.json"
    taskInstructions := cfg.tasks }

end HumanoidLab.Psi0Dex3
