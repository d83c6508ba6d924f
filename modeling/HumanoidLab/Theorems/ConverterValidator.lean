import HumanoidLab.Theorems.EpisodeConversion

/-! The converter and the validator on one episode. The validator rejects what the converter accepts when a measured sample
    was repaired or is not a number, when no anchor is valid, when float32 does not hold the times of the frames, and when the
    first and the last of the nearest samples differ; on every other episode all its checks pass. -/

namespace HumanoidLab.Psi0Dex3
open Fallible Rounding Nearest

variable {interp : Nat → List Nat → List FloatEntry → FloatEntry} {cfg : ConversionConfig} {src : SourceEpisode}
  {raw : RawEpisode} {sonic : SonicEpisode} {n : Nat}

/-- Every check of a list passes. -/
def AllOk (checks : List EpisodeCheck) : Prop := ∀ c ∈ checks, c.ok = true

theorem allOk_cons {c : EpisodeCheck} {checks : List EpisodeCheck} : AllOk (c :: checks) ↔ c.ok = true ∧ AllOk checks :=
  List.forall_mem_cons

theorem allOk_append {checks more : List EpisodeCheck} : AllOk (checks ++ more) ↔ AllOk checks ∧ AllOk more :=
  List.forall_mem_append

theorem allOk_nil : AllOk [] := fun _ hc => absurd hc List.not_mem_nil

section
variable (cfg : ConversionConfig) (raw : RawEpisode) (sonic : SonicEpisode) (n : Nat)

/-- The table and the line that the writer adds for an accepted episode. -/
def writtenTable : EpisodeTable := (writeEpisode n (converted cfg raw sonic)).1
def writtenRow : EpisodeRow := (writeEpisode n (converted cfg raw sonic)).2

end

theorem writtenRow_length : (writtenRow cfg raw sonic n).length = raw.state.length := List.length_map _

/-! ### The mask and the shapes -/

theorem actionMaskRow_length (v : Bool) : (actionMaskRow v).length = actionModelDim := by
  simp [actionMaskRow, bodyTokenDim, handDim, actionModelDim]

theorem actionMaskRow_head (v : Bool) : (actionMaskRow v).getD 0 0 = if v then 1 else 0 := rfl

theorem frameValid_length (h : Accepted cfg raw sonic) : (sonic.frameValid raw).length = raw.state.length :=
  (List.length_map _).trans h.frames

theorem written_valid : (writtenTable cfg raw sonic n).valid = sonic.frameValid raw := by
  show ((sonic.frameValid raw).map actionMaskRow).map _ = _
  rw [List.map_map]
  refine (List.map_congr_left fun v _ => ?_).trans (List.map_id _)
  show decide ((0.5 : ℚ) < (actionMaskRow v).getD 0 0) = v
  rw [actionMaskRow_head]
  cases v <;> norm_num

theorem maskChecks_ok (h : Accepted cfg raw sonic) :
    AllOk (maskChecks (writtenTable cfg raw sonic n) (writtenRow cfg raw sonic n)) := by
  have hrow : ∀ m ∈ (writtenTable cfg raw sonic n).mask, ∃ v, m = actionMaskRow v := fun m hm =>
    (List.mem_map.mp hm).imp fun _ hv => hv.2.symm
  have hwidth : (decide ((writtenTable cfg raw sonic n).mask.length = (writtenRow cfg raw sonic n).length) &&
      (writtenTable cfg raw sonic n).mask.all fun m => m.length = actionModelDim) = true := by
    rw [Bool.and_eq_true]
    refine ⟨decide_eq_true ?_, List.all_eq_true.mpr fun m hm => ?_⟩
    · rw [writtenRow_length]
      exact (List.length_map _).trans (frameValid_length h)
    · obtain ⟨v, rfl⟩ := hrow m hm
      exact decide_eq_true (actionMaskRow_length v)
  unfold maskChecks
  rw [if_pos hwidth]
  refine allOk_cons.mpr ⟨hwidth, allOk_cons.mpr ⟨?_, allOk_cons.mpr ⟨?_, allOk_cons.mpr ⟨?_, allOk_nil⟩⟩⟩⟩
  all_goals
    refine List.all_eq_true.mpr fun m hm => ?_
    obtain ⟨v, rfl⟩ := hrow m hm
    cases v <;> decide

theorem shapeChecks_ok (h : Accepted cfg raw sonic) :
    AllOk (shapeChecks (writtenTable cfg raw sonic n) (writtenRow cfg raw sonic n)) := by
  have hselected : ∀ f : Nat → List FloatEntry, (raw.timestamp.map fun t => f (sonic.select t)).length =
      (writtenRow cfg raw sonic n).length := fun f => by
    rw [writtenRow_length, List.length_map, h.frames]
  unfold shapeChecks
  refine allOk_cons.mpr ⟨?_, allOk_cons.mpr ⟨?_, allOk_cons.mpr ⟨?_, allOk_cons.mpr ⟨?_, allOk_nil⟩⟩⟩⟩
  · simp [writtenTable, writtenRow, writeEpisode, converted]
  · refine List.all_eq_true.mpr fun s hs => decide_eq_true ?_
    obtain ⟨r, hr, rfl⟩ := List.mem_map.mp hs
    rw [List.length_map, List.length_append, List.length_map, permuteRow, List.length_map, List.length_map]
    rfl
  · rw [Bool.and_eq_true]
    refine ⟨decide_eq_true (hselected fun i => (sonic.row i).drop bodyTokenDim),
      List.all_eq_true.mpr fun s hs => decide_eq_true ?_⟩
    obtain ⟨t, ht, rfl⟩ := List.mem_map.mp hs
    rw [List.length_drop, h.row_length (h.select_lt t)]
    rfl
  · rw [Bool.and_eq_true]
    refine ⟨decide_eq_true (hselected fun i => (sonic.row i).take bodyTokenDim),
      List.all_eq_true.mpr fun s hs => decide_eq_true ?_⟩
    obtain ⟨t, ht, rfl⟩ := List.mem_map.mp hs
    rw [List.length_take, h.row_length (h.select_lt t)]
    rfl

/-! ### Finite entries -/

theorem permutation_eq : sourceArmHandFields.map unitreeActionNames.idxOf = List.range sourceStateDim := by decide +kernel

theorem permuteRow_range {row : List FloatEntry} {n : Nat} (h : row.length = n) : permuteRow (List.range n) row = row := by
  unfold permuteRow
  subst h
  refine List.ext_getElem (by simp) fun i hi hi' => ?_
  rw [List.getElem_map, List.getElem_range, List.getD_eq_getElem _ _ hi']

theorem toFloat32_isFinite (x : FloatEntry) : x.toFloat32.isFinite = x.isFinite := by
  cases x <;> rfl

/-- The state that is written: the standing channels and the measured ones. -/
theorem written_state (h : Accepted cfg raw sonic) : (writtenTable cfg raw sonic n).state =
    raw.state.map fun row => (standingLowerBody.map FloatEntry.finite ++ row).map FloatEntry.toFloat32 := by
  refine List.map_congr_left fun row hrow => ?_
  rw [h.names, permutation_eq, permuteRow_range (h.stateWidth row hrow)]

theorem isFinite_written (h : Accepted cfg raw sonic) : (writtenTable cfg raw sonic n).isFinite = true ↔
    (∀ r ∈ raw.state, ∀ x ∈ r, x.isFinite = true) ∧
      ∀ t ∈ raw.timestamp, ∀ x ∈ sonic.row (sonic.select t), x.isFinite = true := by
  have hstate : ((writtenTable cfg raw sonic n).state.all (·.all FloatEntry.isFinite) = true) ↔
      ∀ r ∈ raw.state, ∀ x ∈ r, x.isFinite = true := by
    rw [written_state h, List.all_map, List.all_eq_true]
    refine forall_congr' fun r => imp_congr_right fun _ => ?_
    simp only [Function.comp, List.all_map, List.map_append, List.all_append, Bool.and_eq_true, List.all_eq_true]
    constructor
    · rintro ⟨-, hr⟩ x hx
      exact (toFloat32_isFinite x).symm.trans (hr x hx)
    · intro hr
      exact ⟨fun x _ => rfl, fun x hx => (toFloat32_isFinite x).trans (hr x hx)⟩
  have haction : ((writtenTable cfg raw sonic n).hand.all (·.all FloatEntry.isFinite) = true ∧
      (writtenTable cfg raw sonic n).token.all (·.all FloatEntry.isFinite) = true) ↔
      ∀ t ∈ raw.timestamp, ∀ x ∈ sonic.row (sonic.select t), x.isFinite = true := by
    have hmap : ∀ f : Nat → List FloatEntry, ((raw.timestamp.map fun t => f (sonic.select t)).all
        (·.all FloatEntry.isFinite) = true) ↔ ∀ t ∈ raw.timestamp, ∀ x ∈ f (sonic.select t), x.isFinite = true := fun f => by
      simp only [List.all_map, List.all_eq_true, Function.comp]
    rw [show (writtenTable cfg raw sonic n).hand = _ from rfl, show (writtenTable cfg raw sonic n).token = _ from rfl]
    refine (and_congr (hmap fun i => (sonic.row i).drop bodyTokenDim) (hmap fun i => (sonic.row i).take bodyTokenDim)).trans ?_
    constructor
    · rintro ⟨hdrop, htake⟩ t ht x hx
      rw [← List.take_append_drop bodyTokenDim (sonic.row (sonic.select t))] at hx
      exact (List.mem_append.mp hx).elim (htake t ht x) (hdrop t ht x)
    · intro hrow
      exact ⟨fun t ht x hx => hrow t ht x (List.mem_of_mem_drop hx), fun t ht x hx => hrow t ht x (List.mem_of_mem_take hx)⟩
  unfold EpisodeTable.isFinite
  rw [Bool.and_eq_true, Bool.and_eq_true, and_assoc, hstate, haction]

/-! ### The mapping -/

theorem lastSet_isSome {mask : List Bool} : (lastSet mask).isSome = true ↔ ∃ i, mask.getD i false = true := by
  unfold lastSet
  rw [List.getLast?_isSome, ← List.length_pos_iff, List.length_pos_iff_exists_mem]
  refine exists_congr fun i => ?_
  rw [List.mem_filter, List.mem_range]
  refine ⟨And.right, fun hset => ⟨?_, hset⟩⟩
  by_contra hge
  rw [List.getD_eq_default _ _ (not_lt.mp hge)] at hset
  cases hset

theorem strictAnchorMask_getD {valid : List Bool} {chunk i : Nat} : (strictAnchorMask valid chunk).getD i false = true ↔
    i < valid.length ∧ ((valid.drop i).take chunk).length = chunk ∧ ∀ v ∈ (valid.drop i).take chunk, v = true := by
  unfold strictAnchorMask
  by_cases hi : i < valid.length
  · rw [List.getD_eq_getElem _ _ (by simpa using hi), List.getElem_map, List.getElem_range, Bool.and_eq_true,
      decide_eq_true_iff, List.all_eq_true]
    simp only [hi, true_and, id]
  · rw [List.getD_eq_default _ _ (by simpa using hi)]
    simp only [hi, false_and, Bool.false_eq_true]

/-- float32 holds the times of the frames. -/
def Held (fps frames : Nat) : Prop := ∀ i < frames, stampDistance (float32 (float64 (i / fps))) (float64 (i / fps)) < float64 1e-5

/-- The conditions under which the validator passes an episode that the converter accepts. Several samples may be at the least
    float64 distance from a frame: the first of them and the last before the frame are to agree, and the first ones to be in
    order. -/
structure Agreed (cfg : ConversionConfig) (src : SourceEpisode) (sonic : SonicEpisode) : Prop where
  bounded : ∀ r ∈ src.measured, ∀ x ∈ r, x.isFinite = true ∧ x.beyond physicalHandSampleBoundRad = false
  action : ∀ t ∈ src.timestamp, ∀ x ∈ sonic.row (sonic.select t), x.isFinite = true
  anchored : ∃ i, (strictAnchorMask (src.timestamp.map fun t => sonic.isValid (sonic.select t)) cfg.actionChunkSize).getD i
    false = true
  held : Held cfg.datasetFps src.measured.length
  row : ∀ t ∈ src.timestamp, ∀ i j, Earliest stampDistance sonic.stamps t.value i → Latest stampDistance sonic.stamps t.value j →
    sonic.row i = sonic.row j
  valid : ∀ t ∈ src.timestamp, ∀ i j, Earliest stampDistance sonic.stamps t.value i →
    Latest stampDistance sonic.stamps t.value j → sonic.isValid i = sonic.isValid j
  monotone : src.timestamp.IsChain fun t u => ∀ i j, Earliest stampDistance sonic.stamps t.value i →
    Earliest stampDistance sonic.stamps u.value j → i ≤ j

theorem chain_iff {index : List Nat} : ((index.zip index.tail).all fun (a, b) => a ≤ b) = true ↔ index.IsChain (· ≤ ·) := by
  induction index with
  | nil => simp
  | cons a rest ih =>
    cases rest with
    | nil => simp
    | cons b rest =>
      rw [List.isChain_cons_cons, ← ih]
      simp

/-- Where float64 tells the samples on either side of the frames apart, the first and the last of the nearest samples are one. -/
theorem found_of_apart (h : Accepted cfg raw sonic) (hapart : ∀ t ∈ raw.timestamp, Apart stampDistance sonic.stamps t.value) :
    (∀ t ∈ raw.timestamp, ∀ i j, Earliest stampDistance sonic.stamps t.value i → Latest stampDistance sonic.stamps t.value j →
      i = j) ∧
    raw.timestamp.IsChain fun t u => ∀ i j, Earliest stampDistance sonic.stamps t.value i →
      Earliest stampDistance sonic.stamps u.value j → i ≤ j := by
  have hone : ∀ t ∈ raw.timestamp, ∀ i j, Earliest stampDistance sonic.stamps t.value i →
      Latest stampDistance sonic.stamps t.value j → i = j := fun t ht i j hi hj =>
    earliest_unique hi (hj.earliest (hapart t ht))
  have hsame : ∀ t ∈ raw.timestamp, sonic.first t = sonic.select t := fun t ht => (h.ties_iff id t).mpr (hone t ht)
  refine ⟨hone, (sonic.first_monotone h.stamps_ne _).mp ?_⟩
  rw [List.map_congr_left hsame]
  exact h.select_monotone

theorem rows_eq {s : SonicEpisode} (T : List FloatEntry) : ((T.map fun t => (s.row (s.select t)).take bodyTokenDim) =
      (T.map s.first).map fun i => (s.row i).take bodyTokenDim) ∧
    ((T.map fun t => (s.row (s.select t)).drop bodyTokenDim) = (T.map s.first).map fun i => (s.row i).drop bodyTokenDim) ↔
    ∀ t ∈ T, s.row (s.first t) = s.row (s.select t) := by
  rw [List.map_map, List.map_map, List.map_inj_left, List.map_inj_left]
  constructor
  · rintro ⟨htake, hdrop⟩ t ht
    rw [← List.take_append_drop bodyTokenDim (s.row (s.first t)), ← List.take_append_drop bodyTokenDim (s.row (s.select t)),
      htake t ht, hdrop t ht]
    rfl
  · intro hrow
    exact ⟨fun t ht => congrArg _ (hrow t ht).symm, fun t ht => congrArg _ (hrow t ht).symm⟩

/-- The distances that the validator measures stay within the bounds that the converter has kept. -/
theorem mapping_le (h : Accepted cfg raw sonic) {T : List FloatEntry} {bound : ℚ}
    (hbound : ∀ t ∈ T, stampDistance (sonic.stamps.getD (sonic.select t) 0) t.value ≤ bound) :
    ((T.map fun t => stampDistance (sonic.stamps.getD (sonic.first t) 0) t.value).all (· ≤ bound)) = true := by
  refine List.all_eq_true.mpr fun d hd => decide_eq_true ?_
  obtain ⟨t, ht, rfl⟩ := List.mem_map.mp hd
  exact (h.first_le t (h.select_lt t)).trans (hbound t ht)

theorem mappingChecks_iff (h : Accepted cfg raw sonic) : AllOk (mappingChecks cfg raw sonic (writtenTable cfg raw sonic n)) ↔
    (∀ t ∈ raw.timestamp, ∀ i j, Earliest stampDistance sonic.stamps t.value i →
      Latest stampDistance sonic.stamps t.value j → sonic.row i = sonic.row j) ∧
    (∀ t ∈ raw.timestamp, ∀ i j, Earliest stampDistance sonic.stamps t.value i →
      Latest stampDistance sonic.stamps t.value j → sonic.isValid i = sonic.isValid j) ∧
    (raw.timestamp.IsChain fun t u => ∀ i j, Earliest stampDistance sonic.stamps t.value i →
      Earliest stampDistance sonic.stamps u.value j → i ≤ j) ∧
    ∃ i, (strictAnchorMask (sonic.frameValid raw) cfg.actionChunkSize).getD i false = true := by
  have hindex : nearestBrute sonic.stamps (raw.timestamp.map FloatEntry.value) = raw.timestamp.map sonic.first :=
    List.map_map
  have hmapping : List.zipWith (fun i t => stampDistance (sonic.stamps.getD i 0) t) (raw.timestamp.map sonic.first)
      (raw.timestamp.map FloatEntry.value) =
      raw.timestamp.map fun t => stampDistance (sonic.stamps.getD (sonic.first t) 0) t.value := by
    rw [List.zipWith_map, List.zipWith_self]
  have hvalid : (sonic.frameValid raw = (raw.timestamp.map sonic.first).map sonic.isValid) ↔
      ∀ t ∈ raw.timestamp, sonic.isValid (sonic.first t) = sonic.isValid (sonic.select t) := by
    unfold SonicEpisode.frameValid
    rw [List.map_map, List.map_inj_left]
    exact forall₂_congr fun t _ => eq_comm
  have hstrict : ((List.range (strictAnchorMask (sonic.frameValid raw) cfg.actionChunkSize).length).all fun i =>
      !(strictAnchorMask (sonic.frameValid raw) cfg.actionChunkSize).getD i false ||
        ((((sonic.frameValid raw).drop i).take cfg.actionChunkSize).length = cfg.actionChunkSize &&
          (((sonic.frameValid raw).drop i).take cfg.actionChunkSize).all id)) = true := by
    refine List.all_eq_true.mpr fun i _ => ?_
    by_cases hset : (strictAnchorMask (sonic.frameValid raw) cfg.actionChunkSize).getD i false = true
    · obtain ⟨-, hlen, hall⟩ := strictAnchorMask_getD.mp hset
      have hall : (((sonic.frameValid raw).drop i).take cfg.actionChunkSize).all id = true := List.all_eq_true.mpr hall
      rw [hset, hlen, hall]
      simp
    · rw [Bool.not_eq_true] at hset
      rw [hset]
      rfl
  have htail := mapping_le h h.tail
  have hanchor : (writtenTable cfg raw sonic n).anchor = strictAnchorMask (sonic.frameValid raw) cfg.actionChunkSize := rfl
  have hset : (lastSet (strictAnchorMask (sonic.frameValid raw) cfg.actionChunkSize)).isSome = true ↔ _ := lastSet_isSome
  have hrows := (rows_eq (s := sonic) raw.timestamp).trans (forall₂_congr fun t _ => h.ties_iff sonic.row t)
  have hvalidity := hvalid.trans (forall₂_congr fun t _ => h.ties_iff sonic.isValid t)
  unfold mappingChecks
  dsimp only
  rw [written_valid, hindex, hmapping, hanchor, ← hset, ← hrows, ← hvalidity, ← sonic.first_monotone h.stamps_ne, ← chain_iff]
  rcases hlast : lastSet (strictAnchorMask (sonic.frameValid raw) cfg.actionChunkSize) with _ | last
  · simp [AllOk]
  · have hsupervised := mapping_le h (h.supervised last hlast)
    rw [List.map_take] at hsupervised
    simp only [allOk_cons, decide_eq_true_eq, hstrict, htail, hsupervised, allOk_nil, and_true, true_and,
      Option.isSome_some]
    exact and_assoc.symm

/-! ### The timeline -/

theorem timelineChecks_iff (hne : raw.state ≠ []) :
    AllOk (timelineChecks cfg (writtenTable cfg raw sonic n) (writtenRow cfg raw sonic n)) ↔
      Held cfg.datasetFps raw.state.length := by
  have huniform : (∀ t i, (t, i) ∈ (writtenTable cfg raw sonic n).timestamp.zipIdx →
      stampDistance t (float64 (i / cfg.datasetFps)) < float64 1e-5) ↔ Held cfg.datasetFps raw.state.length := by
    rw [show (writtenTable cfg raw sonic n).timestamp = _ from List.map_map]
    constructor
    · intro hall i hi
      refine hall (float32 (float64 (i / cfg.datasetFps))) i (List.mk_mem_zipIdx_iff_getElem?.mpr ?_)
      rw [List.getElem?_map, List.getElem?_range hi]
      rfl
    · intro hheld t i hti
      have hget := List.mk_mem_zipIdx_iff_getElem?.mp hti
      rw [List.getElem?_map] at hget
      obtain ⟨j, hj, rfl⟩ := Option.map_eq_some_iff.mp hget
      obtain ⟨hlt, rfl⟩ := List.getElem?_eq_some_iff.mp hj
      rw [List.length_range] at hlt
      rw [List.getElem_range]
      exact hheld i hlt
  have hframe : (writtenTable cfg raw sonic n).frameIndex = List.range (writtenRow cfg raw sonic n).length := rfl
  have hlen : (writtenRow cfg raw sonic n).length ≠ 0 := by
    rw [writtenRow_length]
    exact fun hzero => hne (List.length_eq_zero_iff.mp hzero)
  have hepisode : (writtenTable cfg raw sonic n).episodeIndex =
      List.replicate (writtenRow cfg raw sonic n).length (writtenRow cfg raw sonic n).episodeIndex := rfl
  unfold timelineChecks
  rw [allOk_cons, List.all_eq_true]
  simp only [Prod.forall, decide_eq_true_eq]
  rw [huniform, allOk_cons, allOk_cons, hepisode]
  simp [hframe, hlen, allOk_nil]

/-- The constants of the checks in binary floating point. -/
theorem check_constants : 0 < float64 1e-5 ∧ 0 < float64 0.01 ∧ float32 256 = 256 ∧ float64 256 = 256 ∧
    float64 (2 ^ (-17 : Int)) < float64 1e-5 ∧ float32 physicalHandSampleBoundRad = physicalHandSampleBoundRad ∧
    allClose (standingLowerBody.map float32) standingLowerBody (float64 1e-6) (float64 1e-5) = true := by
  decide +kernel

theorem stampDistance_float32 {y : ℚ} (hpos : 0 ≤ y) (hle : y ≤ 256) : stampDistance (float32 y) y < float64 1e-5 := by
  have hexact : ∀ z : ℚ, float32 z = z → stampDistance (float32 z) z < float64 1e-5 := fun z hz => by
    unfold stampDistance
    rw [hz, sub_self, show float64 0 = 0 from roundBinary_zero, abs_zero]
    exact check_constants.1
  rcases hpos.eq_or_lt with rfl | hpos
  · exact hexact 0 roundBinary_zero
  · rcases hle.eq_or_lt with rfl | hlt
    · exact hexact 256 check_constants.2.2.1
    · have hquantum : quantum 24 (-149) y ≤ 2 ^ (-16 : Int) :=
        quantum_le (k := 8) hpos.ne' (by rw [abs_of_pos hpos]; exact_mod_cast hlt) (by norm_num)
      have herror : |float32 y - y| ≤ 2 ^ (-17 : Int) := by
        refine (abs_roundBinary_sub_le y).trans ((div_le_div_of_nonneg_right hquantum (by norm_num)).trans_eq ?_)
        norm_num
      unfold stampDistance float64
      rw [abs_roundBinary]
      exact (roundBinary_mono (by norm_num) herror).trans_lt check_constants.2.2.2.2.1

/-- At the rate of the contract, float32 holds the times of the first 7682 frames, and not that of the next one. -/
theorem held_thirty {frames : Nat} : Held 30 frames ↔ frames ≤ 7682 := by
  have hlast : ¬stampDistance (float32 (float64 ((7682 : Nat) / (30 : Nat)))) (float64 ((7682 : Nat) / (30 : Nat))) < float64 1e-5 := by
    decide +kernel
  constructor
  · intro hheld
    by_contra hgt
    exact hlast (hheld 7682 (not_le.mp hgt))
  · intro hle i hi
    rcases Nat.lt_or_ge i 7681 with hshort | hlong
    · refine stampDistance_float32 (roundBinary_nonneg (by positivity)) ?_
      have hmono : float64 (i / (30 : Nat)) ≤ float64 256 := by
        refine roundBinary_mono (by norm_num) ?_
        rw [div_le_iff₀ (by norm_num)]
        exact_mod_cast (by omega : i ≤ 256 * 30)
      exact hmono.trans_eq check_constants.2.2.2.1
    · obtain rfl : i = 7681 := by omega
      decide +kernel

/-! ### The state -/

theorem float32_bound {x : ℚ} (h : |x| ≤ physicalHandSampleBoundRad) : |float32 x| ≤ physicalHandSampleBoundRad := by
  have hthree := check_constants.2.2.2.2.2.1
  unfold float32 at hthree ⊢
  rw [abs_roundBinary, ← hthree]
  exact roundBinary_mono (by norm_num) h

theorem allClose_self {xs : List ℚ} {atol : ℚ} (h : 0 ≤ atol) : allClose xs xs atol 0 = true := by
  refine List.all_eq_true.mpr fun (x, y) hxy => decide_eq_true ?_
  obtain rfl : x = y := by
    obtain ⟨i, hi, heq⟩ := List.getElem_of_mem hxy
    rw [List.getElem_zip] at heq
    exact (Prod.ext_iff.mp heq).1.symm.trans (Prod.ext_iff.mp heq).2
  show |float64 (x - x)| ≤ float64 (atol + float64 (0 * |x|))
  rw [sub_self, zero_mul, show float64 0 = 0 from roundBinary_zero, abs_zero, add_zero]
  exact roundBinary_nonneg h

/-- The samples of a state are finite, of float32 and within the physical bound. -/
def Sound (state : List (List FloatEntry)) : Prop :=
  ∀ r ∈ state, ∀ x ∈ r, ∃ q, x = .finite (float32 q) ∧ |q| ≤ physicalHandSampleBoundRad

theorem stateChecks_ok (h : Accepted cfg raw sonic) (hne : raw.state ≠ []) (hsound : Sound raw.state) :
    AllOk (stateChecks raw (writtenTable cfg raw sonic n) (List.range sourceStateDim)) := by
  have hstanding : (writtenTable cfg raw sonic n).standing = raw.state.map fun _ => standingLowerBody.map float32 := by
    unfold EpisodeTable.standing
    rw [written_state h, List.map_map]
    refine List.map_congr_left fun row _ => ?_
    rfl
  have hwritten : (writtenTable cfg raw sonic n).written = raw.state.map fun row => row.map FloatEntry.value := by
    unfold EpisodeTable.written
    rw [written_state h, List.map_map]
    refine List.map_congr_left fun row hrow => ?_
    show ((row.map FloatEntry.toFloat32).map FloatEntry.value) = _
    rw [List.map_map]
    refine List.map_congr_left fun x hx => ?_
    obtain ⟨q, rfl, -⟩ := hsound row hrow x hx
    exact roundBinary_roundBinary (by norm_num) q
  have hfirst : (writtenTable cfg raw sonic n).standing.getD 0 [] = standingLowerBody.map float32 := by
    rw [hstanding, List.getD_eq_getElem _ _ (by simpa using List.length_pos_iff.mpr hne), List.getElem_map]
  unfold stateChecks
  refine allOk_cons.mpr ⟨?_, allOk_cons.mpr ⟨?_, allOk_cons.mpr ⟨?_, allOk_cons.mpr ⟨?_, allOk_nil⟩⟩⟩⟩
  · refine List.all_eq_true.mpr fun s hs => decide_eq_true ?_
    rw [hfirst]
    rw [hstanding] at hs
    obtain ⟨_, -, rfl⟩ := List.mem_map.mp hs
    rfl
  · rw [hfirst]
    exact check_constants.2.2.2.2.2.2
  · refine List.all_eq_true.mpr fun (w, m) hwm => ?_
    rw [hwritten] at hwm
    obtain ⟨i, hi, heq⟩ := List.getElem_of_mem hwm
    rw [List.getElem_zip, List.getElem_map] at heq
    obtain ⟨rfl, rfl⟩ := Prod.ext_iff.mp heq
    dsimp only
    rw [permuteRow_range (h.stateWidth _ (List.getElem_mem _))]
    exact allClose_self (roundBinary_nonneg (by norm_num))
  · refine List.all_eq_true.mpr fun w hw => List.all_eq_true.mpr fun x hx => decide_eq_true ?_
    rw [hwritten] at hw
    obtain ⟨r, hr, rfl⟩ := List.mem_map.mp hw
    obtain ⟨y, hy, rfl⟩ := List.mem_map.mp hx
    obtain ⟨q, rfl, hq⟩ := hsound r hr y hy
    exact float32_bound hq

/-! ### The repair and the clip -/

/-- A clip of every frame, at the size and the rate of the configuration. -/
def correctClip (cfg : ConversionConfig) (row : EpisodeRow) : ClipInfo :=
  ⟨row.length, cfg.cameraWidth, cfg.cameraHeight, cfg.datasetFps⟩

theorem clipChecks_ok (row : EpisodeRow) : AllOk (clipChecks cfg row (some (correctClip cfg row))) := by
  refine allOk_cons.mpr ⟨decide_eq_true rfl, allOk_cons.mpr ⟨?_, allOk_cons.mpr ⟨decide_eq_true ?_, allOk_nil⟩⟩⟩
  · simp [correctClip]
  · show |float64 ((cfg.datasetFps : ℚ) - cfg.datasetFps)| < float64 0.01
    rw [sub_self, show float64 0 = 0 from roundBinary_zero, abs_zero]
    exact check_constants.2.1

theorem repairChecks_iff (hread : readRawEpisode interp src = .ok raw) (hnames : src.names = unitreeActionNames) :
    AllOk (repairChecks src raw (writtenRow cfg raw sonic n)) ↔ beyondCount src.measured.flatten = 0 := by
  obtain ⟨-, -, -, repaired, hrepair, -⟩ := read_ok hread
  have hrecord : (writtenRow cfg raw sonic n).handRepair = raw.repair.asDict := rfl
  rcases repair_ok hrepair with ⟨hnone, -, heq⟩ | ⟨hsome, channel, hmem, hchannel⟩
  · simp [AllOk, repairChecks, hrecord, heq, hnone, HandRepair.asDict, HandRepair.invalidSourceSamples]
  · refine ⟨fun hok => ?_, fun hnone => absurd hnone hsome⟩
    have hknown : channel.1 ∈ canonicalStateNames :=
      of_decide_eq_true (List.all_eq_true.mp (allOk_cons.mp (allOk_cons.mp hok).2).1 channel (List.mem_mergeSort.mpr hmem))
    exact absurd hknown (not_canonical _ (hnames ▸ hchannel))

/-! ### The agreement -/

/-- `read_raw_episode`, `convert_episode` and `SplitWriter.add` of one episode. -/
def writeConverted (interp : Nat → List Nat → List FloatEntry → FloatEntry) (cfg : ConversionConfig) (src : SourceEpisode)
    (sonic : SonicEpisode) (index : Nat) : Except ConversionError (EpisodeTable × EpisodeRow) := do
  let raw ← readRawEpisode interp src
  let e ← convertEpisode raw sonic cfg
  return writeEpisode index e

/-- Every check that the validator makes on what was written passes. -/
def Passes (interp : Nat → List Nat → List FloatEntry → FloatEntry) (cfg : ConversionConfig) (src : SourceEpisode)
    (sonic : SonicEpisode) (table : EpisodeTable) (row : EpisodeRow) : Prop :=
  ∃ checks, checkEpisode interp cfg src sonic table row (some (correctClip cfg row)) = .ok checks ∧ AllOk checks

theorem bounded_flatten {rows : List (List FloatEntry)} : (∀ r ∈ rows, ∀ x ∈ r, x.beyond physicalHandSampleBoundRad = false) ↔
    beyondCount rows.flatten = 0 := by
  unfold beyondCount
  rw [List.countP_eq_zero]
  simp only [List.mem_flatten, forall_exists_index, and_imp, Bool.not_eq_true]
  exact ⟨fun h x r hr hx => h r hr x hx, fun h r hr x hx => h x r hr hx⟩

theorem raw_state_eq (hread : readRawEpisode interp src = .ok raw) (hnone : beyondCount src.measured.flatten = 0) :
    raw.state = src.measured.map (·.map FloatEntry.toFloat32) := by
  obtain ⟨-, -, -, repaired, hrepair, hstate⟩ := read_ok hread
  rcases repair_ok hrepair with ⟨-, rfl, -⟩ | ⟨hsome, -⟩
  · exact hstate
  · exact absurd hnone hsome

theorem sound_of_bounded {rows : List (List FloatEntry)} (h : ∀ r ∈ rows, ∀ x ∈ r,
    x.isFinite = true ∧ x.beyond physicalHandSampleBoundRad = false) : Sound (rows.map (·.map FloatEntry.toFloat32)) := by
  intro r hr x hx
  obtain ⟨r, hr', rfl⟩ := List.mem_map.mp hr
  obtain ⟨y, hy, rfl⟩ := List.mem_map.mp hx
  obtain ⟨hfinite, hbound⟩ := h r hr' y hy
  cases y with
  | nan => cases hfinite
  | infinite negative => cases hfinite
  | finite q => exact ⟨q, rfl, not_lt.mp (of_decide_eq_false hbound)⟩

/-- The checks of an accepted episode, group by group. -/
theorem passes_iff (h : Accepted cfg raw sonic) (hread : readRawEpisode interp src = .ok raw) :
    Passes interp cfg src sonic (writtenTable cfg raw sonic n) (writtenRow cfg raw sonic n) ↔
      (writtenTable cfg raw sonic n).isFinite = true ∧
      AllOk (mappingChecks cfg raw sonic (writtenTable cfg raw sonic n)) ∧
      AllOk (timelineChecks cfg (writtenTable cfg raw sonic n) (writtenRow cfg raw sonic n)) ∧
      AllOk (stateChecks raw (writtenTable cfg raw sonic n) (List.range sourceStateDim)) ∧
      AllOk (repairChecks src raw (writtenRow cfg raw sonic n)) := by
  have hmask := maskChecks_ok (n := n) h
  have hshape := shapeChecks_ok (n := n) h
  have hclip := @clipChecks_ok cfg (writtenRow cfg raw sonic n)
  have hpermutation : sourceStatePermutation raw.stateNames = .ok (List.range sourceStateDim) := by
    unfold sourceStatePermutation
    rw [if_pos h.names, h.names, permutation_eq]
  unfold Passes checkEpisode
  by_cases hfinite : (writtenTable cfg raw sonic n).isFinite = true
  · rw [if_pos hfinite, hread]
    dsimp only [bind, Except.bind]
    rw [hpermutation]
    dsimp only [pure, Except.pure]
    constructor
    · rintro ⟨checks, heq, hall⟩
      obtain rfl := Except.ok.inj heq
      simp only [allOk_append] at hall
      obtain ⟨⟨⟨⟨⟨-, hmapping⟩, htimeline⟩, hstate⟩, hrepair⟩, -⟩ := hall
      exact ⟨hfinite, hmapping, htimeline, hstate, hrepair⟩
    · rintro ⟨-, hmapping, htimeline, hstate, hrepair⟩
      refine ⟨_, rfl, ?_⟩
      simp only [allOk_append]
      exact ⟨⟨⟨⟨⟨⟨⟨hmask, hshape⟩, allOk_cons.mpr ⟨hfinite, allOk_nil⟩⟩, hmapping⟩, htimeline⟩, hstate⟩, hrepair⟩, hclip⟩
  · rw [if_neg hfinite]
    refine ⟨?_, fun hpass => absurd hpass.1 hfinite⟩
    rintro ⟨checks, heq, hall⟩
    obtain rfl := Except.ok.inj heq
    exact absurd (allOk_cons.mp (allOk_append.mp hall).2).1 hfinite

/-- The validator passes what the converter has written exactly on the episodes that meet the conditions. -/
theorem converter_validator {table : EpisodeTable} {row : EpisodeRow}
    (h : writeConverted interp cfg src sonic n = .ok (table, row)) :
    Passes interp cfg src sonic table row ↔ Agreed cfg src sonic := by
  obtain ⟨raw, hread, h⟩ := bind_ok h
  obtain ⟨e, hconvert, h⟩ := bind_ok h
  obtain ⟨haccepted, rfl⟩ := convert_ok hconvert
  obtain ⟨rfl, rfl⟩ := Prod.ext_iff.mp (Except.ok.inj h)
  obtain ⟨hmeasured, htime, hnames, -⟩ := read_ok hread
  have hsource : src.names = unitreeActionNames := hnames ▸ haccepted.names
  have hvalid : src.timestamp.map (fun t => sonic.isValid (sonic.select t)) = sonic.frameValid raw := by
    rw [← htime]
    rfl
  refine (passes_iff haccepted hread).trans ?_
  rw [isFinite_written haccepted, mappingChecks_iff haccepted, repairChecks_iff hread hsource]
  constructor
  · rintro ⟨⟨hstate, haction⟩, ⟨hrow, hvalidity, hmonotone, hanchor⟩, htimeline, -, hnone⟩
    have heq := raw_state_eq hread hnone
    have hne : raw.state ≠ [] := by
      rw [heq]
      exact fun hnil => hmeasured (List.map_eq_nil_iff.mp hnil)
    rw [timelineChecks_iff hne, heq, List.length_map] at htimeline
    refine ⟨fun r hr x hx => ⟨?_, bounded_flatten.mpr hnone r hr x hx⟩, htime ▸ haction, hvalid ▸ hanchor, htimeline,
      htime ▸ hrow, htime ▸ hvalidity, htime ▸ hmonotone⟩
    rw [heq] at hstate
    exact (toFloat32_isFinite x).symm.trans (hstate _ (List.mem_map_of_mem hr) _ (List.mem_map_of_mem hx))
  · intro hagreed
    have hnone : beyondCount src.measured.flatten = 0 := bounded_flatten.mp fun r hr x hx => (hagreed.bounded r hr x hx).2
    have heq := raw_state_eq hread hnone
    have hne : raw.state ≠ [] := by
      rw [heq]
      exact fun hnil => hmeasured (List.map_eq_nil_iff.mp hnil)
    have hsound : Sound raw.state := heq ▸ sound_of_bounded hagreed.bounded
    refine ⟨⟨fun r hr x hx => ?_, htime ▸ hagreed.action⟩, ⟨htime ▸ hagreed.row, htime ▸ hagreed.valid,
      htime ▸ hagreed.monotone, hvalid ▸ hagreed.anchored⟩, ?_, stateChecks_ok haccepted hne hsound, hnone⟩
    · obtain ⟨q, rfl, -⟩ := hsound r hr x hx
      rfl
    · rw [timelineChecks_iff hne, heq, List.length_map]
      exact hagreed.held

/-- An episode with a sample beyond the physical bound is converted, and never passes. -/
theorem repaired_fails {table : EpisodeTable} {row : EpisodeRow}
    (h : writeConverted interp cfg src sonic n = .ok (table, row)) (hspike : 0 < beyondCount src.measured.flatten) :
    ¬Passes interp cfg src sonic table row := by
  obtain ⟨raw, hread, h⟩ := bind_ok h
  obtain ⟨e, hconvert, h⟩ := bind_ok h
  obtain ⟨haccepted, rfl⟩ := convert_ok hconvert
  obtain ⟨rfl, rfl⟩ := Prod.ext_iff.mp (Except.ok.inj h)
  obtain ⟨-, -, hnames, -⟩ := read_ok hread
  intro hpass
  have hnone := (repairChecks_iff hread (hnames ▸ haccepted.names)).mp ((passes_iff haccepted hread).mp hpass).2.2.2.2
  exact hspike.ne' hnone

/-! ### Two episodes -/

/-- An episode of a second, measured at rest. -/
def atRest : SourceEpisode where
  names := unitreeActionNames
  measured := List.replicate 30 (List.replicate sourceStateDim (.finite 0))
  timestamp := (List.range 30).map fun (i : Nat) => .finite (float64 (i / 30))

/-- The same with one sample of 5 rad. -/
def spiked : SourceEpisode :=
  { atRest with measured := atRest.measured.set 1 ((List.replicate sourceStateDim (.finite 0)).set 20 (.finite 5)) }

def restSonic : SonicEpisode where
  action := List.replicate 2 (List.replicate (bodyTokenDim + handDim) (.finite 0))
  timestamp := [.finite 0, .finite 1]
  valid := [true, true]

def coarseConfig : ConversionConfig where
  sourceFps := 30
  datasetFps := 30
  actionChunkSize := 30
  maxTimestampErrorS := 1
  tailTimestampErrorS := 2
  cameraWidth := 640
  cameraHeight := 480
  fps_eq := rfl
  fps_pos := Nat.succ_pos 29

/-- `np.interp` between samples that are all the same. -/
def constantInterp (_ : Nat) (_ : List Nat) (ys : List FloatEntry) : FloatEntry := ys.headD .nan

def writtenOf (src : SourceEpisode) : EpisodeTable × EpisodeRow :=
  (writeConverted constantInterp coarseConfig src restSonic 0).toOption.getD
    (⟨[], [], [], [], [], [], [], []⟩, ⟨0, 0, ⟨"none", 0, [], 0⟩⟩)

/-- An episode that is read, converted and written. -/
structure Convertible where
  src : SourceEpisode
  converts : (writeConverted constantInterp coarseConfig src restSonic 0).toOption.isSome = true

def restConvertible : Convertible := ⟨atRest, by decide +kernel⟩

def spikedConvertible : Convertible := ⟨spiked, by decide +kernel⟩

theorem writtenOf_ok (c : Convertible) :
    writeConverted constantInterp coarseConfig c.src restSonic 0 = .ok ((writtenOf c.src).1, (writtenOf c.src).2) := by
  have h := c.converts
  unfold writtenOf
  cases hwritten : writeConverted constantInterp coarseConfig c.src restSonic 0 with
  | error e =>
    rw [hwritten] at h
    cases h
  | ok p => rfl

theorem rest_sample {r : List FloatEntry} {x : FloatEntry} (hr : r ∈ atRest.measured) (hx : x ∈ r) : x = .finite 0 := by
  rw [List.eq_of_mem_replicate hr] at hx
  exact List.eq_of_mem_replicate hx

theorem rest_row {i : Nat} (hi : i < 2) : restSonic.row i = List.replicate (bodyTokenDim + handDim) (.finite 0) :=
  List.getD_replicate _ hi

theorem rest_valid {i : Nat} (hi : i < 2) : restSonic.isValid i = true :=
  match i, hi with
  | 0, _ => rfl
  | 1, _ => rfl

theorem rest_token {i : Nat} {x : FloatEntry} (hx : x ∈ restSonic.row i) : x = .finite 0 := by
  rcases Nat.lt_or_ge i 2 with hi | hi
  · rw [rest_row hi] at hx
    exact List.eq_of_mem_replicate hx
  · rw [show restSonic.row i = [] from List.getD_eq_default _ _ (by simpa [restSonic] using hi)] at hx
    cases hx

/-- At the tie of 0.5 s both take the first sample. -/
theorem rest_selected : atRest.timestamp.map restSonic.select = List.replicate 16 0 ++ List.replicate 14 1 ∧
    atRest.timestamp.map restSonic.first = List.replicate 16 0 ++ List.replicate 14 1 := by
  decide +kernel

theorem rest_written : writeConverted constantInterp coarseConfig atRest restSonic 0 =
    .ok ((writtenOf atRest).1, (writtenOf atRest).2) :=
  writtenOf_ok restConvertible

theorem converter_validator_rest : Passes constantInterp coarseConfig atRest restSonic (writtenOf atRest).1 (writtenOf atRest).2 :=
  (converter_validator rest_written).mpr {
    bounded := fun r hr x hx => by
      rw [rest_sample hr hx]
      decide +kernel
    action := fun t _ x hx => by
      rw [rest_token hx]
      rfl
    anchored := ⟨0, by
      rw [show (fun t => restSonic.isValid (restSonic.select t)) = restSonic.isValid ∘ restSonic.select from rfl,
        ← List.map_map, rest_selected.1]
      decide +kernel⟩
    held := held_thirty.mpr (by decide)
    row := fun t _ i j hi hj => (rest_row hi.closest.fst).trans (rest_row hj.closest.fst).symm
    valid := fun t _ i j hi hj => (rest_valid hi.closest.fst).trans (rest_valid hj.closest.fst).symm
    monotone := (restSonic.first_monotone (List.cons_ne_nil _ _) _).mp (by
      rw [rest_selected.2]
      decide) }

/-- The converter writes the episode with the spike, and the validator rejects it. -/
theorem repaired_rejected : writeConverted constantInterp coarseConfig spiked restSonic 0 =
      .ok ((writtenOf spiked).1, (writtenOf spiked).2) ∧
    ¬Passes constantInterp coarseConfig spiked restSonic (writtenOf spiked).1 (writtenOf spiked).2 := by
  have hwritten := writtenOf_ok spikedConvertible
  exact ⟨hwritten, repaired_fails hwritten (by decide +kernel)⟩

end HumanoidLab.Psi0Dex3
