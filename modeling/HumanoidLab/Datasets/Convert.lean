import HumanoidLab.Controllers.Providers
import HumanoidLab.Lib.Floating
import Mathlib.Data.List.Sort
import Mathlib.Data.Rat.Cast.OfScientific

/-! The conversion of an episode (`datasets/psi0_dex3/contract.py`, `convert.py`, and the table and the record that
    `SplitWriter.add` writes): the repair of its measured samples, the nearest sample of the SONIC corpus for each frame,
    the validity of its frames, and the bounds on the mapping. Arrays are lists; `np.interp` is a parameter. -/

namespace HumanoidLab.Psi0Dex3
open Rounding

/-! ### Floats -/

/-- An entry of a float array. -/
inductive FloatEntry
  | nan
  | infinite (negative : Bool)
  | finite (x : ℚ)
  deriving DecidableEq, Repr

def float64 : ℚ → ℚ := roundBinary 53 (-1074)
def float32 : ℚ → ℚ := roundBinary 24 (-149)

namespace FloatEntry

def isNan : FloatEntry → Bool
  | nan => true
  | _ => false

def isFinite : FloatEntry → Bool
  | finite _ => true
  | _ => false

/-- Read where the sample is finite. -/
def value : FloatEntry → ℚ
  | finite x => x
  | _ => 0

/-- `np.abs(x) > bound`. -/
def beyond (bound : ℚ) : FloatEntry → Bool
  | nan => false
  | infinite _ => true
  | finite x => bound < |x|

/-- `b - a > 0`. -/
def below : FloatEntry → FloatEntry → Bool
  | finite a, finite b => 0 < float64 (b - a)
  | finite _, infinite negative => !negative
  | infinite negative, finite _ => negative
  | infinite true, infinite false => true
  | _, _ => false

def toFloat32 : FloatEntry → FloatEntry
  | finite x => finite (float32 x)
  | s => s

end FloatEntry

/-! ### The contract -/

/-- `CANONICAL_STATE_NAMES`. -/
def canonicalStateNames : List String := bodyJointOrder ++ handJointNames .left ++ handJointNames .right

/-- `UNITREE_ACTION_NAMES`, which are also the `SOURCE_ARM_HAND_FIELDS` of the canonical channels 15 to 42. -/
def unitreeActionNames : List String :=
  ["kLeftShoulderPitch", "kLeftShoulderRoll", "kLeftShoulderYaw", "kLeftElbow", "kLeftWristRoll", "kLeftWristPitch",
   "kLeftWristYaw", "kRightShoulderPitch", "kRightShoulderRoll", "kRightShoulderYaw", "kRightElbow", "kRightWristRoll",
   "kRightWristPitch", "kRightWristYaw", "kLeftHandThumb0", "kLeftHandThumb1", "kLeftHandThumb2", "kLeftHandMiddle0",
   "kLeftHandMiddle1", "kLeftHandIndex0", "kLeftHandIndex1", "kRightHandThumb0", "kRightHandThumb1", "kRightHandThumb2",
   "kRightHandIndex0", "kRightHandIndex1", "kRightHandMiddle0", "kRightHandMiddle1"]

def sourceArmHandFields : List String := unitreeActionNames

def sourceStateDim : Nat := 28
def bodyTokenDim : Nat := 64
def handDim : Nat := 14
def actionModelDim : Nat := 80
def physicalHandSampleBoundRad : ℚ := 3
def maxRepairableSamplesPerEpisode : Nat := 256

/-- `standing_lower_body`. -/
def standingLowerBody : List ℚ :=
  [-0.312, 0, 0, 0.669, -0.363, 0, -0.312, 0, 0, 0.669, -0.363, 0, 0, 0, 0].map float64

/-- What the conversion reads of a loaded configuration. -/
structure ConversionConfig where
  sourceFps : Nat
  datasetFps : Nat
  actionChunkSize : Nat
  maxTimestampErrorS : ℚ
  tailTimestampErrorS : ℚ
  cameraWidth : Nat
  cameraHeight : Nat
  fps_eq : datasetFps = sourceFps
  fps_pos : 0 < datasetFps

inductive ConversionError
  | noRecords
  | channelNames
  | corpusScaleDefect
  | nothingToInterpolate
  | sonicShape
  | sonicFrameAxis
  | timeline
  | notUniform
  | sourceEmpty
  | sourceNotIncreasing
  | notFinite
  | chunkSize
  | notMonotone
  | tailBound
  | supervisedBound
  | sourceLayout
  | stateShape
  deriving DecidableEq, Repr

/-! ### The repair of measured samples -/

structure HandRepair where
  policy : String
  thresholdRad : ℚ
  channels : List (String × Nat)
  deriving DecidableEq, Repr

def HandRepair.invalidSourceSamples (r : HandRepair) : Nat := (r.channels.map (·.2)).sum

def column (rows : List (List FloatEntry)) (c : Nat) : List FloatEntry := rows.map (·.getD c .nan)

/-- How many samples of an array are beyond the physical bound. -/
def beyondCount (samples : List FloatEntry) : Nat := samples.countP (·.beyond physicalHandSampleBoundRad)

/-- The frames at which a channel is within the bound. -/
def goodFrames (rows : List (List FloatEntry)) (c : Nat) : List Nat :=
  (List.range rows.length).filter fun t => !((column rows c).getD t .nan).beyond physicalHandSampleBoundRad

def repairNonphysicalSamples (interp : Nat → List Nat → List FloatEntry → FloatEntry)
    (measured : List (List FloatEntry)) (names : List String) :
    Except ConversionError (List (List FloatEntry) × HandRepair) :=
  if measured.any (·.length ≠ names.length) then .error .channelNames
  else if beyondCount measured.flatten = 0 then .ok (measured, ⟨"none", physicalHandSampleBoundRad, []⟩)
  else if maxRepairableSamplesPerEpisode < beyondCount measured.flatten then .error .corpusScaleDefect
  else if (List.range names.length).any (fun c => beyondCount (column measured c) = measured.length) then
    .error .nothingToInterpolate
  else .ok (measured.mapIdx fun t row => row.mapIdx fun c x =>
      if x.beyond physicalHandSampleBoundRad then
        interp t (goodFrames measured c) ((goodFrames measured c).map fun g => (column measured c).getD g .nan)
      else x,
    ⟨"linear_interpolation_over_valid_source_samples", physicalHandSampleBoundRad,
      (List.range names.length).filterMap fun c =>
        if beyondCount (column measured c) = 0 then none else some (names.getD c "", beyondCount (column measured c))⟩)

/-- The rows of an episode in its frozen source file. -/
structure SourceEpisode where
  names : List String
  measured : List (List FloatEntry)
  timestamp : List FloatEntry

structure RawEpisode where
  state : List (List FloatEntry)
  timestamp : List FloatEntry
  stateNames : List String
  repair : HandRepair

/-- `read_raw_episode`, once the metadata of the episode has been resolved. -/
def readRawEpisode (interp : Nat → List Nat → List FloatEntry → FloatEntry) (src : SourceEpisode) :
    Except ConversionError RawEpisode :=
  if src.measured = [] then .error .noRecords
  else (repairNonphysicalSamples interp src.measured src.names).map fun (repaired, repair) =>
    ⟨repaired.map (·.map FloatEntry.toFloat32), src.timestamp, src.names, repair⟩

/-! ### The mapping -/

/-- The place that a possibly negative index selects. -/
def wrapIndex (n : Nat) (i : Int) : Nat := if i < 0 then (n + i).toNat else i.toNat

/-- The float64 distance of two times. -/
def stampDistance (a b : ℚ) : ℚ := |float64 (a - b)|

/-- The nearest of the two samples around a time; a tie goes to the lower index. -/
def nearestIndex (source : List ℚ) (target : ℚ) : Int :=
  let position : Int := min (max (source.findIdx (target ≤ ·)) 1) (source.length - 1)
  let left := source.getD (wrapIndex source.length (position - 1)) 0
  let right := source.getD (wrapIndex source.length position) 0
  if stampDistance target left ≤ stampDistance right target then position - 1 else position

/-- `np.diff(source) > 0` throughout. -/
def strictlyIncreasing (source : List FloatEntry) : Bool := (source.zip source.tail).all fun (a, b) => a.below b

def nearestIndices (source target : List FloatEntry) : Except ConversionError (List Int) :=
  if source = [] then .error .sourceEmpty
  else if 1 < source.length ∧ !strictlyIncreasing source then .error .sourceNotIncreasing
  else if !(source.all FloatEntry.isFinite && target.all FloatEntry.isFinite) then .error .notFinite
  else .ok (target.map fun t => nearestIndex (source.map FloatEntry.value) t.value)

def mappingError (source target : List ℚ) (index : List Int) : List ℚ :=
  List.zipWith (fun i t => stampDistance (source.getD (wrapIndex source.length i) 0) t) index target

/-- The last frame at which a mask is set. -/
def lastSet (mask : List Bool) : Option Nat := ((List.range mask.length).filter fun i => mask.getD i false).getLast?

def assertMapping (error : List ℚ) (index : List Int) (anchor : List Bool) (cfg : ConversionConfig) :
    Except ConversionError Unit :=
  if (index.zip index.tail).any (fun (a, b) => b < a) then .error .notMonotone
  else if error.any (cfg.tailTimestampErrorS < ·) then .error .tailBound
  else match lastSet anchor with
    | none => .ok ()
    | some last =>
      if (error.take (last + cfg.actionChunkSize)).any (cfg.maxTimestampErrorS < ·) then .error .supervisedBound else .ok ()

def anchorValidity (valid : List Bool) (chunk : Nat) : Except ConversionError (List Bool) :=
  if chunk = 0 then .error .chunkSize
  else .ok ((List.range valid.length).map fun i => i + chunk ≤ valid.length && ((valid.drop i).take chunk).all id)

def assertUniform (timestamp : List FloatEntry) (fps : Nat) : Except ConversionError Unit :=
  -- An empty array has no maximum, and that of an array with a NaN is a NaN, which is not above the tolerance.
  if timestamp = [] then .error .notUniform
  else if timestamp.any FloatEntry.isNan then .ok ()
  else if timestamp.zipIdx.all fun (t, i) => t.isFinite && stampDistance t.value (float64 (i / fps)) ≤ float64 5e-4 then .ok ()
  else .error .notUniform

def sourceStatePermutation (names : List String) : Except ConversionError (List Nat) :=
  if names = unitreeActionNames then .ok (sourceArmHandFields.map names.idxOf) else .error .sourceLayout

/-- The measured channels of a row, in canonical order. -/
def permuteRow (permutation : List Nat) (row : List FloatEntry) : List FloatEntry := permutation.map (row.getD · .nan)

def buildState (state : List (List FloatEntry)) (permutation : List Nat) : Except ConversionError (List (List FloatEntry)) :=
  if state.any (·.length ≠ sourceStateDim) then .error .stateShape
  else .ok (state.map fun row =>
    (standingLowerBody.map FloatEntry.finite ++ permuteRow permutation row).map FloatEntry.toFloat32)

/-- The wide mask of a frame: its validity on the body token and the hands, and nothing on the neck. -/
def actionMaskRow (valid : Bool) : List ℚ :=
  List.replicate (bodyTokenDim + handDim) (if valid then 1 else 0) ++
    List.replicate (actionModelDim - (bodyTokenDim + handDim)) 0

/-- The SONIC action of an episode, with its times and the validity of its samples. -/
structure SonicEpisode where
  action : List (List FloatEntry)
  timestamp : List FloatEntry
  valid : List Bool

structure ConvertedEpisode where
  state : List (List FloatEntry)
  bodyToken : List (List FloatEntry)
  handAction : List (List FloatEntry)
  actionMask : List (List ℚ)
  timestamp : List ℚ
  trainingValidMask : List Bool
  anchorValid : List Bool
  raw : RawEpisode

namespace SonicEpisode

def row (s : SonicEpisode) (i : Nat) : List FloatEntry := s.action.getD i []

def isValid (s : SonicEpisode) (i : Nat) : Bool := s.valid.getD i false

/-- The times of the samples, which are finite. -/
def stamps (s : SonicEpisode) : List ℚ := s.timestamp.map FloatEntry.value

end SonicEpisode

/-- The first checks of `convert_episode`: the arrays share their frame axes. -/
def assertShapes (raw : RawEpisode) (sonic : SonicEpisode) : Except ConversionError Unit :=
  if sonic.action.any (·.length ≠ bodyTokenDim + handDim) then .error .sonicShape
  else if ¬(sonic.timestamp.length = sonic.action.length ∧ sonic.valid.length = sonic.action.length) then
    .error .sonicFrameAxis
  else if raw.timestamp.length ≠ raw.state.length then .error .timeline
  else .ok ()

def convertEpisode (raw : RawEpisode) (sonic : SonicEpisode) (cfg : ConversionConfig) :
    Except ConversionError ConvertedEpisode := do
  assertShapes raw sonic
  assertUniform raw.timestamp cfg.sourceFps
  let index ← nearestIndices sonic.timestamp raw.timestamp
  let selected := index.map (wrapIndex sonic.action.length)
  let error := mappingError sonic.stamps (raw.timestamp.map FloatEntry.value) index
  let trainingValid := selected.map sonic.isValid
  let anchor ← anchorValidity trainingValid cfg.actionChunkSize
  assertMapping error index anchor cfg
  let permutation ← sourceStatePermutation raw.stateNames
  let state ← buildState raw.state permutation
  return {
    state
    bodyToken := selected.map fun i => (sonic.row i).take bodyTokenDim
    handAction := selected.map fun i => (sonic.row i).drop bodyTokenDim
    actionMask := trainingValid.map actionMaskRow
    timestamp := (List.range raw.state.length).map fun (i : Nat) => float64 (i / cfg.datasetFps)
    trainingValidMask := trainingValid
    anchorValid := anchor
    raw }

/-! ### What the writer adds -/

/-- `HandRepair.as_dict`. -/
structure RepairRecord where
  policy : String
  thresholdRad : ℚ
  channels : List (String × Nat)
  invalidSourceSamples : Nat
  deriving DecidableEq, Repr

def HandRepair.asDict (r : HandRepair) : RepairRecord :=
  ⟨r.policy, r.thresholdRad, r.channels.mergeSort fun a b => a.1 ≤ b.1, r.invalidSourceSamples⟩

/-- The columns of the table of an episode that the validator reads. -/
structure EpisodeTable where
  state : List (List FloatEntry)
  hand : List (List FloatEntry)
  token : List (List FloatEntry)
  mask : List (List ℚ)
  anchor : List Bool
  timestamp : List ℚ
  frameIndex : List Nat
  episodeIndex : List Nat

/-- The line of an episode in `meta/episodes.jsonl`. -/
structure EpisodeRow where
  episodeIndex : Nat
  length : Nat
  handRepair : RepairRecord

/-- `SplitWriter.add`, for the episode of an index. -/
def writeEpisode (index : Nat) (e : ConvertedEpisode) : EpisodeTable × EpisodeRow :=
  ({ state := e.state
     hand := e.handAction
     token := e.bodyToken
     mask := e.actionMask
     anchor := e.anchorValid
     timestamp := e.timestamp.map float32
     frameIndex := List.range e.state.length
     episodeIndex := List.replicate e.state.length index },
   { episodeIndex := index, length := e.state.length, handRepair := e.raw.repair.asDict })

end HumanoidLab.Psi0Dex3
