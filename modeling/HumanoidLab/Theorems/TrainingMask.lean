import HumanoidLab.Datasets.Training
import HumanoidLab.Theorems.ObservationLocality

/-! The writer and the reader of a training artifact on the end of an episode: the rows whose look-ahead is clamped are masked, and
    the reader takes an artifact with 45 of them. -/

namespace HumanoidLab
open Fallible
open Psi0Dex3 (float32)

/-! ### What the reader asks for -/

/-- The mask of an episode whose final 45 rows are not valid. -/
def tailMask (frames : Nat) : List Bool := (List.range frames).map fun i => decide (i + 45 < frames)

theorem tailMask_getElem? {frames i : Nat} {b : Bool} : (tailMask frames)[i]? = some b ↔ i < frames ∧ b = decide (i + 45 < frames) := by
  unfold tailMask
  rw [List.getElem?_map, Option.map_eq_some_iff]
  constructor
  · rintro ⟨j, hj, rfl⟩
    obtain ⟨hlt, rfl⟩ := List.getElem?_eq_some_iff.mp hj
    rw [List.length_range] at hlt
    rw [List.getElem_range]
    exact ⟨hlt, rfl⟩
  · rintro ⟨hlt, rfl⟩
    exact ⟨i, List.getElem?_range hlt, rfl⟩

/-- A mask that leaves out the last rows, and no others. -/
theorem eq_tailMask {mask : List Bool} {frames : Nat} (hlength : mask.length = frames)
    (hmem : ∀ i, mask[i]? = some false ↔ i < frames ∧ frames ≤ i + 45) : mask = tailMask frames := by
  refine List.ext_getElem? fun i => ?_
  rcases Nat.lt_or_ge i frames with hlt | hge
  · rw [tailMask_getElem?.mpr ⟨hlt, rfl⟩]
    obtain ⟨b, hb⟩ : ∃ b, mask[i]? = some b := ⟨_, List.getElem?_eq_getElem (hlength ▸ hlt)⟩
    have hfalse := hmem i
    rw [hb] at hfalse ⊢
    cases b with
    | false =>
      have hlate := (hfalse.mp rfl).2
      rw [decide_eq_false (by omega)]
    | true =>
      have hearly : i + 45 < frames := by
        by_contra hlate
        cases hfalse.mpr ⟨hlt, by omega⟩
      rw [decide_eq_true hearly]
  · rw [List.getElem?_eq_none (hlength ▸ hge), List.getElem?_eq_none]
    simpa [tailMask] using hge

section
variable {K : Type} [Scalar K] {e : SonicTrainingEpisode K}

omit [Scalar K] in
theorem mem_invalid {i : Nat} : i ∈ e.invalid ↔ e.trainingValidMask[i]? = some false := by
  unfold SonicTrainingEpisode.invalid
  rw [List.mem_filter, List.mem_range, Bool.not_eq_true', List.getD_eq_getElem?_getD]
  by_cases hi : i < e.trainingValidMask.length
  · simp [hi]
  · simp [hi]

omit [Scalar K] in
theorem invalid_tail {m : Nat} (h : e.trainingValidMask = tailMask (m + 45)) : e.invalid = (List.range 45).map (m + ·) := by
  have hget : ∀ i < m + 45, (!e.trainingValidMask.getD i true) = decide (m ≤ i) := by
    intro i hi
    rw [List.getD_eq_getElem?_getD, h, tailMask_getElem?.mpr ⟨hi, rfl⟩]
    simp only [Option.getD_some]
    by_cases hm : m ≤ i
    · simp [hm]
    · simpa [hm] using by omega
  have hlength : e.trainingValidMask.length = m + 45 := by simp [h, tailMask]
  unfold SonicTrainingEpisode.invalid
  rw [hlength, List.filter_congr fun i hi => hget i (List.mem_range.mp hi), List.range_add, List.filter_append,
    List.filter_eq_nil_iff.mpr, List.nil_append, List.filter_eq_self.mpr]
  · intro j hj
    obtain ⟨k, -, rfl⟩ := List.mem_map.mp hj
    simp
  · intro j hj
    simpa using List.mem_range.mp hj

omit [Scalar K] in
/-- The mask that the reader asks for. -/
theorem invalid_iff {frames : Nat} (hlength : e.trainingValidMask.length = frames) :
    e.invalid.length = 45 ∧ e.invalid.map Int.ofNat = (List.range 45).map (fun k : Nat => (frames : Int) - 45 + k) ↔
      45 ≤ frames ∧ e.trainingValidMask = tailMask frames := by
  constructor
  · rintro ⟨hcount, hinvalid⟩
    have hle : 45 ≤ frames := by
      rw [← hcount, ← hlength, ← List.length_range (n := e.trainingValidMask.length)]
      exact List.length_filter_le _ _
    refine ⟨hle, eq_tailMask hlength fun i => ?_⟩
    rw [← mem_invalid]
    have hcast : i ∈ e.invalid ↔ Int.ofNat i ∈ e.invalid.map Int.ofNat := by simp
    rw [hcast, hinvalid, List.mem_map]
    constructor
    · rintro ⟨k, hk, heq⟩
      have hk := List.mem_range.mp hk
      change (frames : Int) - 45 + k = (i : Int) at heq
      omega
    · rintro ⟨hlt, hge⟩
      refine ⟨i + 45 - frames, List.mem_range.mpr (by omega), ?_⟩
      change (frames : Int) - 45 + ((i + 45 - frames : Nat) : Int) = (i : Int)
      omega
  · rintro ⟨hle, hmask⟩
    obtain ⟨m, rfl⟩ := Nat.exists_eq_add_of_le' hle
    rw [invalid_tail hmask, List.map_map]
    refine ⟨by simp, List.map_congr_left fun k _ => ?_⟩
    change ((m + k : Nat) : Int) = _
    push_cast
    ring

/-- The reader takes an artifact of at least 45 rows whose mask leaves out exactly the final 45. -/
theorem training_validate_ok : e.validate = .ok () ↔ hasShape e.action e.timestamp.length trainingActionDim = true ∧
    e.frameIndex = List.range e.timestamp.length ∧ e.trainingValidMask.length = e.timestamp.length ∧
    (finiteRows e.action = true ∧ e.timestamp.all Scalar.isFinite = true) ∧
    45 ≤ e.timestamp.length ∧ e.trainingValidMask = tailMask e.timestamp.length := by
  unfold SonicTrainingEpisode.validate
  dsimp only
  rw [guard_ok, guard_ok, guard_ok, guard_ok, guard_ok, not_not, not_not, Bool.not_eq_true', Bool.not_eq_false, Bool.or_eq_true,
    not_or, not_or, not_not, not_not]
  constructor
  · rintro ⟨hshape, hindex, hlength, ⟨haction, htimestamp⟩, hinvalid, -⟩
    exact ⟨hshape, hindex, hlength, ⟨by simpa using haction, by simpa using htimestamp⟩, (invalid_iff hlength).mp hinvalid⟩
  · rintro ⟨hshape, hindex, hlength, ⟨haction, htimestamp⟩, hmask⟩
    exact ⟨hshape, hindex, hlength, ⟨by simpa using haction, by simpa using htimestamp⟩, (invalid_iff hlength).mpr hmask, rfl⟩

end

/-! ### What the writer writes -/

section
variable {K : Type} [Arithmetic K] {e : CanonicalEpisode K} {runner : G1EncoderRunner K}

omit [Arithmetic K] in
theorem composeAction_ok [Scalar K] {tokens left right action : List (List K)} (h : composeAction tokens left right = .ok action) :
    hasShape action tokens.length trainingActionDim = true ∧ finiteRows action = true := by
  unfold composeAction at h
  dsimp only at h
  rw [guard_ok, guard_ok, guard_ok] at h
  obtain ⟨hwidths, hlengths, hfinite, h⟩ := h
  obtain rfl := Except.ok.inj h
  rw [Bool.not_eq_true', Bool.not_eq_false, Bool.and_eq_true, Bool.and_eq_true, List.all_eq_true, List.all_eq_true,
    List.all_eq_true] at hwidths
  obtain ⟨⟨htokens, hleft⟩, hright⟩ := hwidths
  obtain ⟨hcountLeft, hcountRight⟩ := not_not.mp hlengths
  refine ⟨?_, by simpa using hfinite⟩
  unfold hasShape
  rw [Bool.and_eq_true, decide_eq_true_eq, List.all_eq_true]
  constructor
  · rw [List.length_map, List.length_zipWith, List.length_zipWith]
    omega
  · intro row hrow
    obtain ⟨raw, hraw, rfl⟩ := List.mem_map.mp hrow
    obtain ⟨i, hi⟩ := List.mem_iff_getElem?.mp hraw
    obtain ⟨token, hands, htoken, hhands, rfl⟩ := List.getElem?_zipWith_eq_some.mp hi
    obtain ⟨l, r, hl, hr, rfl⟩ := List.getElem?_zipWith_eq_some.mp hhands
    have ht := htokens token (List.mem_of_getElem? htoken)
    have hl := hleft l (List.mem_of_getElem? hl)
    have hr := hright r (List.mem_of_getElem? hr)
    simp only [decide_eq_true_eq] at ht hl hr ⊢
    rw [List.length_map, List.length_append, List.length_append, ht, hl, hr]
    rfl

theorem encodeFrames_length {observations tokens : List (List K)} (h : runner.encodeFrames observations = .ok tokens) :
    tokens.length = observations.length := by
  unfold G1EncoderRunner.encodeFrames at h
  rw [guard_ok, guard_ok] at h
  rw [← (mapM_ok h.2.2).length_eq, List.length_zipIdx]

theorem buildEncoderInput_ok {input : EncoderInputArtifacts K} (h : buildEncoderInput e = .ok input) :
    e.validate = .ok () ∧ input.observation.length = e.timestamps.length ∧ input.timestamps = e.timestamps ∧
      input.futureClampFraction = (List.range e.timestamps.length).map fun i => float32 (clampFraction e.timestamps.length i) := by
  unfold buildEncoderInput at h
  obtain ⟨_, hvalid, h⟩ := bind_ok h
  rw [guard_ok] at h
  obtain ⟨policy, -, h⟩ := bind_ok h.2
  obtain ⟨⟨observation, clamp⟩, hbuild, h⟩ := bind_ok h
  obtain rfl := Except.ok.inj h
  obtain ⟨-, hrows, hclamp, -⟩ := observation_ok.mp (mapError_ok.mp hbuild)
  refine ⟨mapError_ok.mp hvalid, ?_, rfl, hclamp⟩
  dsimp only
  rw [hrows, List.length_map, List.length_range]

/-- The rows that are kept are those whose look-ahead stays within the episode. -/
theorem mask_eq {frames : Nat} {clamp : List ℚ} (h : clamp = (List.range frames).map fun i => float32 (clampFraction frames i)) :
    clamp.map (fun c => decide (c = 0)) = tailMask frames := by
  rw [h, List.map_map]
  refine List.map_congr_left fun i _ => ?_
  exact decide_eq_decide.mpr clampFraction_zero

/-- An artifact of a valid episode is refused for its length alone. -/
theorem load_iff {action : List (List K)} {mask : List Bool} (hvalid : e.validate = .ok ())
    (hshape : hasShape action e.timestamps.length trainingActionDim = true) (hfinite : finiteRows action = true)
    (hmask : mask = tailMask e.timestamps.length) :
    (∃ loaded, SonicTrainingEpisode.load ⟨some action, some e.timestamps, some (List.range e.timestamps.length), some mask⟩ =
      .ok loaded) ↔ 45 ≤ e.timestamps.length := by
  have hload : ∀ loaded, SonicTrainingEpisode.load
      ⟨some action, some e.timestamps, some (List.range e.timestamps.length), some mask⟩ = .ok loaded ↔
        SonicTrainingEpisode.validate ⟨action, e.timestamps, List.range e.timestamps.length, mask⟩ = .ok () ∧
          (⟨action, e.timestamps, List.range e.timestamps.length, mask⟩ : SonicTrainingEpisode K) = loaded := by
    intro loaded
    unfold SonicTrainingEpisode.load
    dsimp only
    cases hvalidate : SonicTrainingEpisode.validate ⟨action, e.timestamps, List.range e.timestamps.length, mask⟩ with
    | error d => exact ⟨fun h => (by cases h), fun h => (by cases h.1)⟩
    | ok u => exact ⟨fun h => ⟨rfl, Except.ok.inj h⟩, fun h => congrArg Except.ok h.2⟩
  have htimestamps := (CanonicalEpisode.validate_ok.mp hvalid).2.2.1
  constructor
  · rintro ⟨loaded, h⟩
    exact (training_validate_ok.mp ((hload loaded).mp h).1).2.2.2.2.1
  · intro hlong
    refine ⟨_, (hload _).mpr ⟨training_validate_ok.mpr ⟨hshape, rfl, ?_, ⟨hfinite, htimestamps⟩, hlong, hmask⟩, rfl⟩⟩
    rw [hmask]
    simp [tailMask]

theorem encodePreparedEpisode_ok {final : FinalAction} {pilot : PilotDir K} {layout : Option EncoderLayout}
    {artifact : ActionTokens K} {labels : TrainingLabels} (hprepared : preparePilot e final = .ok pilot)
    (h : encodePreparedEpisode pilot layout runner = .ok (artifact, labels)) :
    ∃ input, buildEncoderInput e = .ok input ∧ runner.encodeFrames input.observation = .ok artifact.motionToken ∧
      artifact.frameIndex = List.range artifact.motionToken.length ∧ artifact.timestamp = input.timestamps ∧
      artifact.trainingValidMask = input.futureClampFraction.map (fun c => decide (c = 0)) ∧
      (∀ a, artifact.action.map (·.2) = some a → ∃ left right, composeAction artifact.motionToken left right = .ok a) ∧
      labels = ⟨input.futureClampFraction.countP (fun c => decide (c = 0)),
        input.futureClampFraction.countP (fun c => decide (c ≠ 0))⟩ := by
  unfold preparePilot at hprepared
  obtain ⟨input, hinput, hprepared⟩ := bind_ok hprepared
  obtain rfl := Except.ok.inj hprepared
  unfold encodePreparedEpisode at h
  obtain ⟨⟨input', reference, manifest⟩, hfiles, h⟩ := bind_ok h
  obtain ⟨rfl, rfl, rfl⟩ : input = input' ∧ _ = reference ∧ _ = manifest := by
    obtain ⟨hin, hrest⟩ := Prod.mk.inj (Except.ok.inj hfiles)
    exact ⟨hin, Prod.mk.inj hrest⟩
  obtain ⟨_, -, h⟩ := bind_ok h
  obtain ⟨_, -, h⟩ := bind_ok h
  obtain ⟨tokens, htokens, h⟩ := bind_ok h
  obtain ⟨repeatable, -, h⟩ := bind_ok h
  rw [guard_ok] at h
  obtain ⟨hands, hhands, h⟩ := bind_ok h.2
  obtain ⟨action, haction, h⟩ := bind_ok h
  obtain ⟨rfl, rfl⟩ := Prod.mk.inj (Except.ok.inj h)
  refine ⟨input, hinput, htokens, rfl, rfl, rfl, fun a ha => ?_, rfl⟩
  cases hands with
  | none => cases ha
  | some hands =>
    obtain ⟨composed, hcomposed, rfl⟩ := map_ok haction
    obtain rfl := Option.some.inj ha
    exact ⟨_, _, mapError_ok.mp hcomposed⟩

/-- What the bulk converter reads back has the tokens and the clamps of the same episode. -/
theorem bulkEpisode_ok {input : EncoderInputArtifacts K} {tokens : List (List K)}
    {read : Except TrainingError (SonicTrainingEpisode K)} (hinput : buildEncoderInput e = .ok input)
    (htokens : runner.encodeFrames input.observation = .ok tokens) (h : bulkEpisode e runner = .ok read) :
    ∃ action, hasShape action tokens.length trainingActionDim = true ∧ finiteRows action = true ∧
      read = SonicTrainingEpisode.load ⟨some action, some e.timestamps, some (List.range tokens.length),
        some (input.futureClampFraction.map (· = 0))⟩ := by
  unfold bulkEpisode at h
  obtain ⟨input', hinput', h⟩ := bind_ok h
  obtain rfl : input = input' := Except.ok.inj (hinput.symm.trans hinput')
  obtain ⟨tokens', htokens', h⟩ := bind_ok h
  obtain rfl : tokens = tokens' := Except.ok.inj (htokens.symm.trans htokens')
  obtain ⟨action, hcompose, h⟩ := bind_ok h
  obtain ⟨hshape, hfinite⟩ := composeAction_ok (mapError_ok.mp hcompose)
  have hrows := hshape
  unfold hasShape at hrows
  rw [Bool.and_eq_true, decide_eq_true_eq] at hrows
  rw [hrows.1] at h
  exact ⟨action, hshape, hfinite, (Except.ok.inj h).symm⟩

end

/-- A row is kept for training unless a sample of its look-ahead is clamped to the end of the episode, and an artifact with actions
    is read when there are 45 rows to leave out. -/
theorem training_mask {K : Type} [Arithmetic K] (e : CanonicalEpisode K) (final : FinalAction) (pilot : PilotDir K)
    (layout : Option EncoderLayout) (runner : G1EncoderRunner K) (artifact : ActionTokens K) (labels : TrainingLabels)
    (hprepared : preparePilot e final = .ok pilot) (h : encodePreparedEpisode pilot layout runner = .ok (artifact, labels)) :
    (∀ i, artifact.trainingValidMask[i]? = some false ↔ i < e.timestamps.length ∧ ∃ o ∈ futureOffsets, e.timestamps.length ≤ i + o) ∧
    (∀ i, artifact.trainingValidMask[i]? = some false ↔
      i < e.timestamps.length ∧ e.timestamps.length - min 45 e.timestamps.length ≤ i) ∧
    artifact.trainingValidMask.length = e.timestamps.length ∧
    labels = ⟨artifact.trainingValidMask.count true, artifact.trainingValidMask.count false⟩ ∧
    (artifact.action.isSome = true →
      ((∃ loaded, SonicTrainingEpisode.load artifact.payload = .ok loaded) ↔ 45 ≤ e.timestamps.length)) ∧
    ∀ read, bulkEpisode e runner = .ok read → ((∃ loaded, read = .ok loaded) ↔ 45 ≤ e.timestamps.length) ∧
      ∀ loaded, read = .ok loaded → loaded.trainingValidMask = artifact.trainingValidMask := by
  obtain ⟨input, hinput, htokens, hindex, htimestamp, hmask, haction, rfl⟩ := encodePreparedEpisode_ok hprepared h
  obtain ⟨hvalid, hlength, htimestamps, hclamp⟩ := buildEncoderInput_ok hinput
  have htail := mask_eq hclamp
  have hcount : artifact.motionToken.length = e.timestamps.length := (encodeFrames_length htokens).trans hlength
  have hlate : ∀ i, artifact.trainingValidMask[i]? = some false ↔ i < e.timestamps.length ∧ e.timestamps.length ≤ i + 45 := by
    intro i
    rw [hmask, htail, tailMask_getElem?, eq_comm, decide_eq_false_iff_not, not_lt]
  refine ⟨fun i => ?_, fun i => ?_, ?_, ?_, fun hsome => ?_, fun read hread => ?_⟩
  · rw [hlate]
    refine and_congr_right fun _ => ⟨fun hge => ⟨45, by decide, hge⟩, ?_⟩
    rintro ⟨o, ho, hge⟩
    have hle : ∀ o ∈ futureOffsets, o ≤ 45 := by decide
    exact hge.trans (Nat.add_le_add_left (hle o ho) i)
  · rw [hlate]
    refine and_congr_right fun _ => ?_
    omega
  · rw [hmask, htail]
    simp [tailMask]
  · rw [hmask, List.count_eq_countP, List.count_eq_countP, List.countP_map, List.countP_map]
    congr 1 <;> exact List.countP_congr fun c _ => by simp
  · obtain ⟨⟨hands, action⟩, hsome⟩ := Option.isSome_iff_exists.mp hsome
    obtain ⟨left, right, hcompose⟩ := haction action (by rw [hsome]; rfl)
    obtain ⟨hshape, hfinite⟩ := composeAction_ok hcompose
    have hload := load_iff hvalid (hcount ▸ hshape) hfinite (hmask.trans htail)
    unfold ActionTokens.payload
    rw [hsome, htimestamp, htimestamps, hindex, hcount]
    exact hload
  · obtain ⟨action, hshape, hfinite, rfl⟩ := bulkEpisode_ok hinput htokens hread
    rw [hcount] at hshape ⊢
    refine ⟨load_iff hvalid hshape hfinite htail, fun loaded hloaded => ?_⟩
    unfold SonicTrainingEpisode.load at hloaded
    obtain ⟨_, -, hloaded⟩ := bind_ok hloaded
    rw [← Except.ok.inj hloaded, hmask]

/-- An encoder whose tokens are zero. -/
def zeroRunner : G1EncoderRunner ℝ := ⟨fun _ _ => List.replicate 64 0⟩

theorem encode_zero {row : List ℝ} (h : row.length = encoderInputDim) (n : Nat) :
    zeroRunner.encode n row = .ok (List.replicate 64 0) := by
  have hfinite : ∀ l : List ℝ, l.all Scalar.isFinite = true := fun l => List.all_eq_true.mpr fun _ _ => rfl
  have htokens : (zeroRunner.run n row).map Scalar.toFloat32 = List.replicate 64 0 := List.map_id _
  unfold G1EncoderRunner.encode
  dsimp only
  rw [htokens, hfinite, hfinite, if_neg (not_not.mpr h), if_neg (by simp), List.length_replicate, if_neg (by decide), if_neg (by simp)]

theorem uniform50Hz_frames (n : Nat) : uniform50Hz (framesAt50Hz n) = true := by
  refine all_zip_tail.mpr ((framesAt50Hz_chain n).imp fun a b h => ?_)
  have hstep : b - a - Arithmetic.ofRat (1 / 50) = 0 := by
    rw [h, show (Arithmetic.ofRat (1 / 50) : ℝ) = 1 / 50 by norm_num [Arithmetic.ofRat], sub_self]
  have hclose : Arithmetic.lt (Arithmetic.ofRat 2e-6 : ℝ) 0 = false := by
    norm_num [Arithmetic.lt, Arithmetic.ofRat]
  simp only [hstep, neg_zero, hclose, Bool.not_false, Bool.and_self]

/-- The hands of the episode. -/
def restingHands (n : Nat) : ReferenceHands ℝ := ⟨List.replicate n (List.replicate 7 0), List.replicate n (List.replicate 7 0)⟩

def handsAvailable : RunManifest := ⟨some productionOrientationPolicy.value, some ⟨"available", ""⟩⟩

/-- The clamped fractions of an episode. -/
def clampFractions (n : Nat) : List ℚ := (List.range n).map fun i => float32 (clampFraction n i)

noncomputable def walkingInput (n : Nat) : EncoderInputArtifacts ℝ :=
  ⟨(List.range n).map (observationRow (walking n) .referenceRootCurrentFrame none pinnedLayout), clampFractions n, framesAt50Hz n⟩

noncomputable def walkingPilot (n : Nat) : PilotDir ℝ := ⟨some (walkingInput n), some (restingHands n), some handsAvailable⟩

noncomputable def walkingArtifact (n : Nat) : ActionTokens ℝ :=
  ⟨List.replicate n (List.replicate 64 0), List.range n, framesAt50Hz n, tailMask n,
    some (restingHands n, List.replicate n (List.replicate 78 0))⟩

def clampLabels (n : Nat) : TrainingLabels := ⟨(clampFractions n).countP (· = 0), (clampFractions n).countP (· ≠ 0)⟩

section
variable {n : Nat} (hn : n ≠ 0)
include hn

theorem prepare_walking : preparePilot (walking n) ⟨"available", ""⟩ = .ok (walkingPilot n) := by
  have hpolicy : requireConversionPolicy productionOrientationPolicy = .ok .referenceRootCurrentFrame := rfl
  have huniform : (!uniform50Hz (walking n).timestamps) = false := by
    rw [show uniform50Hz (walking n).timestamps = true from uniform50Hz_frames n]
    rfl
  have hinput : buildEncoderInput (walking n) = .ok (walkingInput n) := by
    unfold buildEncoderInput
    rw [walking_valid hn, huniform, hpolicy]
    simp only [bind, Except.bind, Except.mapError, build_walking hn .referenceRootCurrentFrame (by decide)]
    rfl
  unfold preparePilot
  rw [hinput]
  rfl

end

section
variable {rows : List (List ℝ)} (hrows : ∀ row ∈ rows, row.length = encoderInputDim)
include hrows

/-- The tokens are the same in every run. -/
theorem encodeFrames_zero (hne : rows ≠ []) :
    zeroRunner.encodeFrames rows = .ok (List.replicate rows.length (List.replicate 64 0)) := by
  have hall : rows.all (fun row => decide (row.length = encoderInputDim)) = true :=
    List.all_eq_true.mpr fun row hrow => decide_eq_true (hrows row hrow)
  have hencode : ∀ p ∈ rows.zipIdx, zeroRunner.encode p.2 p.1 = .ok (List.replicate 64 0) := by
    intro p hp
    exact encode_zero (hrows _ (List.fst_mem_of_mem_zipIdx hp)) _
  unfold G1EncoderRunner.encodeFrames
  rw [hall, if_neg (by simp), if_neg hne]
  exact (mapM_same hencode).trans (by rw [List.length_zipIdx])

theorem repeatable_zero (indices : List Nat) (hindices : ∀ i ∈ indices, i < rows.length) (k : Nat) :
    zeroRunner.repeatable rows (List.replicate rows.length (List.replicate 64 0)) k indices = .ok true := by
  have hequal : G1EncoderRunner.arrayEqual (List.replicate 64 (0 : ℝ)) (List.replicate 64 0) = true := by
    unfold G1EncoderRunner.arrayEqual
    simp [Arithmetic.lt]
  induction indices generalizing k with
  | nil => rfl
  | cons i indices ih =>
    have hi := hindices i List.mem_cons_self
    have hprobe : zeroRunner.probe rows (List.replicate rows.length (List.replicate 64 0)) k i = .ok true := by
      unfold G1EncoderRunner.probe
      rw [List.getElem?_eq_getElem hi, List.getD_eq_getElem _ _ (by rwa [List.length_replicate]), List.getElem_replicate]
      simp only [Option.elim, bind, Except.bind, encode_zero (hrows _ (List.getElem_mem hi)), hequal]
    rw [G1EncoderRunner.repeatable, hprobe]
    exact ih (fun j hj => hindices j (List.mem_cons_of_mem i hj)) (k + 1)

end

theorem toFloat32_real (l : List (List ℝ)) : l.map (·.map Scalar.toFloat32) = l :=
  (List.map_congr_left fun row _ => List.map_id row).trans (List.map_id l)

theorem composePilotAction_zero (n : Nat) : composePilotAction (List.replicate n (List.replicate 64 0)) (some (restingHands n)) =
    .ok (some (List.replicate n (List.replicate 78 0))) := by
  unfold composePilotAction composeAction restingHands
  dsimp only
  rw [if_neg (by simp [sonicTokenDim, dex3Dim]), if_neg (by simp), toFloat32_real, finiteRows_all (fun _ => rfl), if_neg (by simp)]
  simp only [List.zipWith_replicate', List.replicate_append_replicate, Except.mapError, Except.map]

theorem encode_walking {n : Nat} (hn : n ≠ 0) :
    encodePreparedEpisode (walkingPilot n) (some pinnedLayout) zeroRunner = .ok (walkingArtifact n, clampLabels n) := by
  obtain ⟨hobs, -, -, -⟩ := observation_ok.mp (build_walking hn .referenceRootCurrentFrame (by decide))
  have hlength : (walking n).timestamps.length = n := framesAt50Hz_length n
  have hcount : (walkingInput n).observation.length = n := by simp [walkingInput]
  have hrows : ∀ row ∈ (walkingInput n).observation, row.length = encoderInputDim := by
    intro row hrow
    obtain ⟨i, hi, rfl⟩ := List.mem_map.mp hrow
    exact observationRow_length hobs (hlength.symm ▸ List.mem_range.mp hi)
  have hlayout : checkLayout (some pinnedLayout) = .ok () := if_pos (congrArg some hobs.total)
  have htokens : zeroRunner.encodeFrames (walkingInput n).observation = .ok (List.replicate n (List.replicate 64 0)) := by
    have hne : (walkingInput n).observation ≠ [] := by
      rw [← List.length_pos_iff, hcount]
      exact Nat.pos_of_ne_zero hn
    rw [encodeFrames_zero hrows hne, hcount]
  have hrepeatable : zeroRunner.repeatable (walkingInput n).observation (List.replicate n (List.replicate 64 0)) n
      [0, n / 2, n - 1] = .ok true := by
    have hzero := repeatable_zero hrows [0, n / 2, n - 1] (by simp [hcount]; omega) n
    rwa [hcount] at hzero
  have hfiles : (walkingPilot n).files = .ok (walkingInput n, restingHands n, handsAvailable) := rfl
  have hmanifest : checkManifest handsAvailable = .ok () := rfl
  have havailable : handsAvailable.hands (restingHands n) = .ok (some (restingHands n)) := by
    unfold RunManifest.hands handsAvailable restingHands
    dsimp only
    rw [if_pos rfl, toFloat32_real]
  have hmask : (walkingInput n).futureClampFraction.map (fun c => decide (c = 0)) = tailMask n := mask_eq rfl
  unfold encodePreparedEpisode
  simp only [hfiles, bind, Except.bind, hlayout, hmanifest, htokens, hcount, hrepeatable, havailable, composePilotAction_zero, hmask,
    Bool.not_true, Bool.false_eq_true, if_false, List.length_replicate]
  rfl

noncomputable def standingPilot : PilotDir ℝ := walkingPilot 1

noncomputable def standingArtifact : ActionTokens ℝ := walkingArtifact 1

/-- The artifact of an episode shorter than the look-ahead is written, and refused. -/
theorem training_mask_short : preparePilot standing ⟨"available", ""⟩ = .ok standingPilot ∧
    encodePreparedEpisode standingPilot (some pinnedLayout) zeroRunner = .ok (standingArtifact, ⟨0, 1⟩) ∧
    standingArtifact.action.isSome = true ∧ ¬∃ loaded, SonicTrainingEpisode.load standingArtifact.payload = .ok loaded := by
  have hlabels : clampLabels 1 = ⟨0, 1⟩ := by decide +kernel
  refine ⟨prepare_walking Nat.one_ne_zero, hlabels ▸ encode_walking Nat.one_ne_zero, rfl, ?_⟩
  rintro ⟨loaded, h⟩
  unfold SonicTrainingEpisode.load at h
  obtain ⟨_, hvalidate, -⟩ := bind_ok h
  have hlong : 45 ≤ (framesAt50Hz 1).length := (training_validate_ok.mp hvalidate).2.2.2.2.1
  rw [framesAt50Hz_length] at hlong
  exact absurd hlong (by decide)

/-- Sixty frames: fifteen rows are kept, and the artifact is read. -/
theorem training_mask_walking : clampLabels 60 = ⟨15, 45⟩ ∧ (walkingArtifact 60).trainingValidMask.length = 60 ∧
    (∀ i, (walkingArtifact 60).trainingValidMask[i]? = some false ↔ i < 60 ∧ 15 ≤ i) ∧
    ∃ loaded, SonicTrainingEpisode.load (walkingArtifact 60).payload = .ok loaded := by
  have h := training_mask (walking 60) ⟨"available", ""⟩ (walkingPilot 60) (some pinnedLayout) zeroRunner (walkingArtifact 60)
    (clampLabels 60) (prepare_walking (by decide)) (encode_walking (by decide))
  rw [show (walking 60).timestamps.length = 60 from framesAt50Hz_length 60] at h
  obtain ⟨-, htail, hlength, -, hread, -⟩ := h
  exact ⟨by decide +kernel, hlength, htail, (hread rfl).mpr (by decide)⟩

end HumanoidLab
