import HumanoidLab.Datasets.Convert

/-! The checks that the validator makes on a converted episode (`DatasetValidator._check_episode` of
    `datasets/psi0_dex3/validate.py`), with its own search for the nearest sample and its own mask of valid anchors. -/

namespace HumanoidLab.Psi0Dex3
open Rounding

/-- `np.argmin`: the first place of a least value. -/
def argmin (ds : List ℚ) : Nat := ds.findIdx fun d => ds.all (d ≤ ·)

/-- `_nearest`. -/
def nearestBrute (source target : List ℚ) : List Nat := target.map fun t => argmin (source.map (stampDistance · t))

/-- `_strict_anchor_mask`. -/
def strictAnchorMask (valid : List Bool) (chunk : Nat) : List Bool :=
  (List.range valid.length).map fun i => ((valid.drop i).take chunk).length = chunk && ((valid.drop i).take chunk).all id

/-- `np.allclose` of two finite arrays. -/
def allClose (xs ys : List ℚ) (atol rtol : ℚ) : Bool :=
  (xs.zip ys).all fun (x, y) => |float64 (x - y)| ≤ float64 (atol + float64 (rtol * |y|))

/-- A clip, as it is decoded. -/
structure ClipInfo where
  frames : Nat
  width : Nat
  height : Nat
  fps : ℚ

/-- The checks of an episode that was read back, with the name of each. -/
structure EpisodeCheck where
  name : String
  ok : Bool

section
variable (cfg : ConversionConfig) (src : SourceEpisode) (raw : RawEpisode) (sonic : SonicEpisode) (table : EpisodeTable)
  (row : EpisodeRow) (clip : Option ClipInfo)

/-- The validity of the frames, as the wide mask has it. -/
def EpisodeTable.valid : List Bool := table.mask.map fun m => 0.5 < m.getD 0 0

def maskChecks : List EpisodeCheck :=
  ⟨"action_mask_width", table.mask.length = row.length && table.mask.all (·.length = actionModelDim)⟩ ::
  if table.mask.length = row.length && table.mask.all (·.length = actionModelDim) then
    [⟨"action_mask_binary", table.mask.all (·.all fun x => x = 0 || x = 1)⟩,
     ⟨"action_mask_uniform_over_real_dims", table.mask.all fun m => (m.take (bodyTokenDim + handDim)).all (· = m.getD 0 0)⟩,
     ⟨"action_mask_neck_padding_zero", table.mask.all fun m => (m.drop (bodyTokenDim + handDim)).all (· = 0)⟩]
  else []

def shapeChecks : List EpisodeCheck :=
  [⟨"frame_count", table.state.length = row.length && row.length = table.timestamp.length⟩,
   ⟨"state_width", table.state.all (·.length = canonicalStateNames.length)⟩,
   ⟨"hand_width", table.hand.length = row.length && table.hand.all (·.length = handDim)⟩,
   ⟨"token_width", table.token.length = row.length && table.token.all (·.length = bodyTokenDim)⟩]

/-- The entries of the state, the hands and the token are finite. -/
def EpisodeTable.isFinite : Bool :=
  table.state.all (·.all FloatEntry.isFinite) && table.hand.all (·.all FloatEntry.isFinite) &&
    table.token.all (·.all FloatEntry.isFinite)

def mappingChecks : List EpisodeCheck :=
  let index := nearestBrute sonic.stamps (raw.timestamp.map FloatEntry.value)
  let mapping := List.zipWith (fun i t => stampDistance (sonic.stamps.getD i 0) t) index (raw.timestamp.map FloatEntry.value)
  [⟨"body_token_matches_source", table.token = index.map fun i => (sonic.row i).take bodyTokenDim⟩,
   ⟨"hand_action_matches_source", table.hand = index.map fun i => (sonic.row i).drop bodyTokenDim⟩,
   ⟨"action_mask_matches_source_validity", table.valid = index.map sonic.isValid⟩,
   ⟨"anchor_mask_is_strict_30", table.anchor = strictAnchorMask table.valid cfg.actionChunkSize⟩,
   ⟨"selection_monotone", (index.zip index.tail).all fun (a, b) => a ≤ b⟩,
   ⟨"tail_mapping_within_bound", mapping.all (· ≤ cfg.tailTimestampErrorS)⟩,
   match lastSet table.anchor with
   | some last =>
     ⟨"supervised_mapping_within_bound", (mapping.take (last + cfg.actionChunkSize)).all (· ≤ cfg.maxTimestampErrorS)⟩
   | none => ⟨"has_valid_anchor", false⟩,
   ⟨"no_invalid_target_in_valid_anchor", (List.range table.anchor.length).all fun i =>
     !table.anchor.getD i false || (((table.valid.drop i).take cfg.actionChunkSize).length = cfg.actionChunkSize &&
       ((table.valid.drop i).take cfg.actionChunkSize).all id)⟩]

def timelineChecks : List EpisodeCheck :=
  [⟨"timeline_is_uniform_30hz", table.timestamp.zipIdx.all fun (t, i) =>
     stampDistance t (float64 (i / cfg.datasetFps)) < float64 1e-5⟩,
   ⟨"frame_index_contiguous", table.frameIndex = List.range row.length⟩,
   ⟨"episode_index", table.episodeIndex ≠ [] && table.episodeIndex.all (· = row.episodeIndex)⟩]

/-- The finite state, split into its standing and its measured channels. -/
def EpisodeTable.standing : List (List ℚ) := table.state.map fun s => (s.take 15).map FloatEntry.value
def EpisodeTable.written : List (List ℚ) := table.state.map fun s => (s.drop 15).map FloatEntry.value

def stateChecks (permutation : List Nat) : List EpisodeCheck :=
  [⟨"standing_proxy_constant", table.standing.all (· = table.standing.getD 0 [])⟩,
   ⟨"standing_proxy_matches_contract", allClose (table.standing.getD 0 []) standingLowerBody (float64 1e-6) (float64 1e-5)⟩,
   ⟨"measured_state_matches_raw", (table.written.zip raw.state).all fun (w, m) =>
     allClose w ((permuteRow permutation m).map FloatEntry.value) (float64 1e-6) 0⟩,
   ⟨"state_within_physical_bound", table.written.all (·.all (|·| ≤ physicalHandSampleBoundRad))⟩]

def repairChecks : List EpisodeCheck :=
  [⟨"hand_repair_recorded", row.handRepair.invalidSourceSamples = beyondCount src.measured.flatten &&
     beyondCount src.measured.flatten = raw.repair.invalidSourceSamples⟩,
   ⟨"hand_repair_channels_known", row.handRepair.channels.all (·.1 ∈ canonicalStateNames)⟩]

def clipChecks : List EpisodeCheck :=
  match clip with
  | none => [⟨"video_exists", false⟩]
  | some info =>
    [⟨"video_frames", info.frames = row.length⟩,
     ⟨"video_geometry", info.width = cfg.cameraWidth && info.height = cfg.cameraHeight⟩,
     ⟨"video_fps", |float64 (info.fps - cfg.datasetFps)| < float64 0.01⟩]

end

/-- `_check_episode`, where the table of the episode exists. -/
def checkEpisode (interp : Nat → List Nat → List FloatEntry → FloatEntry) (cfg : ConversionConfig) (src : SourceEpisode)
    (sonic : SonicEpisode) (table : EpisodeTable) (row : EpisodeRow) (clip : Option ClipInfo) :
    Except ConversionError (List EpisodeCheck) :=
  let shapes := maskChecks table row ++ shapeChecks table row ++ [⟨"finite", table.isFinite⟩]
  if table.isFinite then do
    let raw ← readRawEpisode interp src
    let permutation ← sourceStatePermutation raw.stateNames
    return shapes ++ mappingChecks cfg raw sonic table ++ timelineChecks cfg table row ++ stateChecks raw table permutation ++
      repairChecks src raw row ++ clipChecks cfg row clip
  else .ok shapes

end HumanoidLab.Psi0Dex3
