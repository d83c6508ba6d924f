import HumanoidLab.Datasets.Observation

/-! From a prepared episode to its training artifact: the encoder input and the encoder (`datasets/sonic/production.py`,
    `encoder_runner.py`), and the reader of the artifact (`datasets/sonic/training.py`). -/

namespace HumanoidLab

def productionOrientationPolicy : OrientationPolicy := .referenceRootCurrentFrame

/-- The value of an orientation policy. -/
def OrientationPolicy.value : OrientationPolicy → String
  | .referenceRootCurrentFrame => "reference_root_current_frame"
  | .measuredBase => "measured_base"
  | .legacyRawWorld => "legacy_raw_world"

/-- `CONVERSION_POLICIES`. -/
def conversionPolicies : List OrientationPolicy := [.referenceRootCurrentFrame]

inductive EncodeError
  | schema (e : SchemaError)
  | observation (e : ObservationError)
  | notUniform
  | policy
  | missing
  | layout
  | inputShape
  | inputFinite
  | noFrames
  | outputShape
  | outputFinite
  | probe
  | notRepeatable
  | keyError (key : String)
  deriving DecidableEq, Repr

structure EncoderInputArtifacts (K : Type) where
  observation : List (List K)
  futureClampFraction : List ℚ
  timestamps : List K

/-- The encoder session: what its n-th run returns. -/
structure G1EncoderRunner (K : Type) where
  run : Nat → List K → List K

/-- The hands of `reference.npz`. -/
structure ReferenceHands (K : Type) where
  leftHandJoints : List (List K)
  rightHandJoints : List (List K)

/-- `final_action_78d` of a run manifest. -/
structure FinalAction where
  status : String
  reason : String
  deriving DecidableEq, Repr

structure RunManifest where
  encoderOrientationPolicy : Option String
  finalAction78d : Option FinalAction
  deriving DecidableEq, Repr

/-- The files of a prepared episode. -/
structure PilotDir (K : Type) where
  encoderObservation : Option (EncoderInputArtifacts K)
  reference : Option (ReferenceHands K)
  runManifest : Option RunManifest

/-- `action_tokens.npz`, with the hands and the action where the hands are available. -/
structure ActionTokens (K : Type) where
  motionToken : List (List K)
  frameIndex : List Nat
  timestamp : List K
  trainingValidMask : List Bool
  action : Option (ReferenceHands K × List (List K))

/-- What the encoder manifest says about the training labels. -/
structure TrainingLabels where
  validFrames : Nat
  excludedTailFrames : Nat
  deriving DecidableEq, Repr

section
variable {K : Type} [Arithmetic K]
open Arithmetic

def requireConversionPolicy (policy : OrientationPolicy) : Except EncodeError OrientationPolicy :=
  if policy ∈ conversionPolicies then .ok policy else .error .policy

/-- `np.allclose(np.diff(ts), 1.0 / 50.0, rtol=0.0, atol=2e-6)`. -/
def uniform50Hz (ts : List K) : Bool :=
  (ts.zip ts.tail).all fun (a, b) => !lt (ofRat 2e-6) (b - a - ofRat (1 / 50)) && !lt (ofRat 2e-6) (-(b - a - ofRat (1 / 50)))

/-- `build_encoder_input`. -/
def buildEncoderInput (e : CanonicalEpisode K) : Except EncodeError (EncoderInputArtifacts K) := do
  e.validate.mapError EncodeError.schema
  if !uniform50Hz e.timestamps then .error .notUniform
  else
    let policy ← requireConversionPolicy productionOrientationPolicy
    let (observation, clamp) ← (buildG1EncoderObservation e policy none pinnedLayout).mapError EncodeError.observation
    .ok ⟨observation, clamp, e.timestamps⟩

/-- The files that `prepare_pilot` leaves for the encoder, beside the manifest's word on the hands. -/
def preparePilot (e : CanonicalEpisode K) (final : FinalAction) : Except EncodeError (PilotDir K) := do
  let input ← buildEncoderInput e
  .ok ⟨some input, some ⟨e.leftHandJoints, e.rightHandJoints⟩, some ⟨some productionOrientationPolicy.value, some final⟩⟩

namespace G1EncoderRunner
variable (runner : G1EncoderRunner K)

/-- One run of the encoder. -/
def encode (n : Nat) (observation : List K) : Except EncodeError (List K) :=
  if observation.length ≠ encoderInputDim then .error .inputShape
  else if !observation.all Scalar.isFinite then .error .inputFinite
  else
    let tokens := (runner.run n observation).map Scalar.toFloat32
    if tokens.length ≠ sonicTokenDim then .error .outputShape
    else if !tokens.all Scalar.isFinite then .error .outputFinite
    else .ok tokens

/-- `encode_frames`: one run for each row, in order. -/
def encodeFrames (observations : List (List K)) : Except EncodeError (List (List K)) :=
  if !observations.all (·.length = encoderInputDim) then .error .inputShape
  else if observations = [] then .error .noFrames
  else observations.zipIdx.mapM fun (row, n) => runner.encode n row

/-- `np.array_equal` of two arrays of numbers. -/
def arrayEqual (a b : List K) : Bool := a.length = b.length && (a.zip b).all fun (x, y) => !lt x y && !lt y x

/-- A row that is encoded once more, as the n-th run. -/
def probe (observation tokens : List (List K)) (n index : Nat) : Except EncodeError Bool := do
  let row ← (observation[index]?).elim (.error .probe) .ok
  let again ← runner.encode n row
  .ok (arrayEqual again (tokens.getD index []))

/-- `all` over the probes, which stops at the first that differs. -/
def repeatable (observation tokens : List (List K)) : Nat → List Nat → Except EncodeError Bool
  | _, [] => .ok true
  | n, index :: rest => do
    let equal ← runner.probe observation tokens n index
    if equal then repeatable observation tokens (n + 1) rest else .ok false

end G1EncoderRunner

/-- `compose_pilot_action`. -/
def composePilotAction (motionToken : List (List K)) (hands : Option (ReferenceHands K)) : Except EncodeError (Option (List (List K))) :=
  match hands with
  | none => .ok none
  | some hands => ((composeAction motionToken hands.leftHandJoints hands.rightHandJoints).mapError EncodeError.schema).map some

/-- The files that an encoding needs. -/
def PilotDir.files (pilot : PilotDir K) : Except EncodeError (EncoderInputArtifacts K × ReferenceHands K × RunManifest) :=
  match pilot.encoderObservation, pilot.reference, pilot.runManifest with
  | some input, some hands, some manifest => .ok (input, hands, manifest)
  | _, _, _ => .error .missing

/-- The rows of the hands that are taken, as float32, when the manifest says that they are available. -/
def RunManifest.hands (manifest : RunManifest) (reference : ReferenceHands K) : Except EncodeError (Option (ReferenceHands K)) :=
  match manifest.finalAction78d with
  | none => .error (.keyError "final_action_78d")
  | some final =>
    if final.status = "available" then
      .ok (some ⟨reference.leftHandJoints.map (·.map Scalar.toFloat32), reference.rightHandJoints.map (·.map Scalar.toFloat32)⟩)
    else .ok none

def checkLayout (layout : Option EncoderLayout) : Except EncodeError Unit :=
  if layout.map EncoderLayout.totalDim = some encoderInputDim then .ok () else .error .layout

def checkManifest (manifest : RunManifest) : Except EncodeError Unit :=
  if manifest.encoderOrientationPolicy = some productionOrientationPolicy.value then .ok () else .error .policy

/-- `encode_prepared_episode`: the artifact that is written and the labels of its manifest. -/
def encodePreparedEpisode (pilot : PilotDir K) (layout : Option EncoderLayout) (runner : G1EncoderRunner K) :
    Except EncodeError (ActionTokens K × TrainingLabels) := do
  let (input, reference, manifest) ← pilot.files
  checkLayout layout
  checkManifest manifest
  let tokens ← runner.encodeFrames input.observation
  let frames := input.observation.length
  let repeatable ← runner.repeatable input.observation tokens frames [0, frames / 2, frames - 1]
  if !repeatable then .error .notRepeatable
  else
    let hands ← manifest.hands reference
    let action ← composePilotAction tokens hands
    .ok (⟨tokens, List.range tokens.length, input.timestamps, input.futureClampFraction.map (· = 0),
          hands.bind fun hands => action.map fun action => (hands, action)⟩,
         ⟨input.futureClampFraction.countP (· = 0), input.futureClampFraction.countP (· ≠ 0)⟩)

end

/-! ### The reader -/

inductive TrainingError
  | missing (keys : List String)
  | actionShape
  | frameIndex
  | maskShape
  | notFinite
  | mask
  | horizon
  | window
  | emptyStack
  deriving DecidableEq, Repr

/-- The arrays of an artifact that a reader asks for, in the dtypes that it asks for. -/
structure TrainingPayload (K : Type) where
  action : Option (List (List K))
  timestamp : Option (List K)
  frameIndex : Option (List Nat)
  trainingValidMask : Option (List Bool)

def ActionTokens.payload {K : Type} (t : ActionTokens K) : TrainingPayload K :=
  ⟨t.action.map (·.2), some t.timestamp, some t.frameIndex, some t.trainingValidMask⟩

structure SonicTrainingEpisode (K : Type) where
  action : List (List K)
  timestamp : List K
  frameIndex : List Nat
  trainingValidMask : List Bool

/-- The missing keys, sorted. -/
def TrainingPayload.absent {K : Type} (p : TrainingPayload K) : List String :=
  (if p.action.isNone then ["action"] else []) ++ (if p.frameIndex.isNone then ["frame_index"] else []) ++
    (if p.timestamp.isNone then ["timestamp"] else []) ++ (if p.trainingValidMask.isNone then ["training_valid_mask"] else [])

namespace SonicTrainingEpisode
variable {K : Type} [Scalar K]

/-- `np.flatnonzero(~mask)`. -/
def invalid (e : SonicTrainingEpisode K) : List Nat :=
  (List.range e.trainingValidMask.length).filter fun i => !e.trainingValidMask.getD i true

def validate (e : SonicTrainingEpisode K) : Except TrainingError Unit :=
  let frames := e.timestamp.length
  if !hasShape e.action frames trainingActionDim then .error .actionShape
  else if e.frameIndex ≠ List.range frames then .error .frameIndex
  else if e.trainingValidMask.length ≠ frames then .error .maskShape
  else if !finiteRows e.action || !e.timestamp.all Scalar.isFinite then .error .notFinite
  else if e.invalid.length ≠ 45 ∨ e.invalid.map Int.ofNat ≠ (List.range 45).map (fun k : Nat => (frames : Int) - 45 + k) then
    .error .mask
  else .ok ()

def load (p : TrainingPayload K) : Except TrainingError (SonicTrainingEpisode K) :=
  match p.action, p.timestamp, p.frameIndex, p.trainingValidMask with
  | some action, some timestamp, some frameIndex, some mask => do
    let episode : SonicTrainingEpisode K := ⟨action, timestamp, frameIndex, mask⟩
    episode.validate
    .ok episode
  | _, _, _, _ => .error (.missing p.absent)

/-- `np.lib.stride_tricks.sliding_window_view`. -/
def slidingWindowView (mask : List Bool) (horizon : Nat) : Except TrainingError (List (List Bool)) :=
  if mask.length < horizon then .error .window
  else .ok ((List.range (mask.length - horizon + 1)).map fun i => (mask.drop i).take horizon)

/-- `np.stack`, which needs at least one array. -/
def stack {α : Type} (arrays : List α) : Except TrainingError (List α) :=
  if arrays.isEmpty then .error .emptyStack else .ok arrays

/-- `valid_action_chunks`. -/
def validActionChunks (e : SonicTrainingEpisode K) (horizon : Int) : Except TrainingError (List Nat × List (List (List K))) :=
  if horizon ≤ 0 then .error .horizon
  else do
    let windows ← slidingWindowView e.trainingValidMask horizon.toNat
    let anchors := (List.range windows.length).filter fun i => (windows.getD i []).all id
    let chunks ← stack (anchors.map fun i => (e.action.drop i).take horizon.toNat)
    .ok (anchors, chunks)

end SonicTrainingEpisode

section
variable {K : Type} [Arithmetic K]

/-- The artifact of the bulk converter (`scripts/convert-unitree-sonic-production.py`), read back before it is kept. -/
def bulkEpisode (e : CanonicalEpisode K) (runner : G1EncoderRunner K) :
    Except EncodeError (Except TrainingError (SonicTrainingEpisode K)) := do
  let input ← buildEncoderInput e
  let tokens ← runner.encodeFrames input.observation
  let action ← (composeAction tokens e.leftHandJoints e.rightHandJoints).mapError EncodeError.schema
  .ok (SonicTrainingEpisode.load ⟨some action, some e.timestamps, some (List.range action.length),
    some (input.futureClampFraction.map (· = 0))⟩)

end

end HumanoidLab
