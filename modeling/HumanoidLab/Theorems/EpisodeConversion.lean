import HumanoidLab.Datasets.Selection
import HumanoidLab.Lib.Fallible

/-! What the converter has found when it accepts an episode: the shapes, the bounds on the mapping, the samples that it
    selects, which are the last of the nearest ones where a search through all of them finds the first, and the repair. -/

namespace HumanoidLab.Psi0Dex3
open Fallible Rounding Nearest

variable {interp : Nat → List Nat → List FloatEntry → FloatEntry} {cfg : ConversionConfig} {src : SourceEpisode}
  {raw : RawEpisode} {sonic : SonicEpisode} {e : ConvertedEpisode}

/-- The SONIC sample that the converter selects for a time of the raw episode. -/
def SonicEpisode.select (sonic : SonicEpisode) (t : FloatEntry) : Nat :=
  wrapIndex sonic.action.length (nearestIndex sonic.stamps t.value)

/-- The validity of the frames of an episode. -/
def SonicEpisode.frameValid (sonic : SonicEpisode) (raw : RawEpisode) : List Bool :=
  raw.timestamp.map fun t => sonic.isValid (sonic.select t)

/-! ### An accepted episode -/

theorem assertShapes_ok {u : Unit} (h : assertShapes raw sonic = .ok u) :
    (∀ r ∈ sonic.action, r.length = bodyTokenDim + handDim) ∧
      (sonic.timestamp.length = sonic.action.length ∧ sonic.valid.length = sonic.action.length) ∧
      raw.timestamp.length = raw.state.length := by
  unfold assertShapes at h
  split at h
  · cases h
  · rename_i hwidth
    split at h
    · cases h
    · rename_i haxis
      split at h
      · cases h
      · rename_i hframes
        refine ⟨fun r hr => ?_, not_not.mp haxis, not_not.mp hframes⟩
        by_contra hne
        exact hwidth (List.any_eq_true.mpr ⟨r, hr, decide_eq_true hne⟩)

theorem below_lt {a b : FloatEntry} (h : a.below b = true) (ha : a.isFinite = true) (hb : b.isFinite = true) :
    a.value < b.value := by
  cases a <;> cases b <;> simp only [FloatEntry.isFinite, Bool.false_eq_true] at ha hb
  rename_i a b
  have hpos : 0 < float64 (b - a) := of_decide_eq_true h
  show a < b
  by_contra hle
  have hmono : float64 (b - a) ≤ float64 0 := roundBinary_mono (by norm_num) (by linarith)
  rw [show float64 0 = 0 from roundBinary_zero] at hmono
  exact absurd hpos (not_lt.mpr hmono)

theorem strictlyIncreasing_pairwise {source : List FloatEntry} (hfinite : source.all FloatEntry.isFinite = true)
    (h : strictlyIncreasing source = true) : (source.map FloatEntry.value).Pairwise (· < ·) := by
  rw [← List.isChain_iff_pairwise]
  induction source with
  | nil => exact List.isChain_nil
  | cons a rest ih =>
    cases rest with
    | nil => exact List.isChain_singleton _
    | cons b rest =>
      simp only [strictlyIncreasing, List.tail_cons, List.zip_cons_cons, List.all_cons, Bool.and_eq_true] at h hfinite ih
      exact List.isChain_cons_cons.mpr ⟨below_lt h.1 hfinite.1 hfinite.2.1, ih hfinite.2 h.2⟩

theorem nearestIndices_ok {source target : List FloatEntry} {index : List Int} (h : nearestIndices source target = .ok index) :
    source ≠ [] ∧ (source.map FloatEntry.value).Pairwise (· < ·) ∧
      index = target.map fun t => nearestIndex (source.map FloatEntry.value) t.value := by
  unfold nearestIndices at h
  split at h
  · cases h
  · rename_i hne
    split at h
    · cases h
    · rename_i hincreasing
      split at h
      · cases h
      · rename_i hfinite
        have hfinite : source.all FloatEntry.isFinite = true ∧ target.all FloatEntry.isFinite = true := by simpa using hfinite
        refine ⟨hne, ?_, (Except.ok.inj h).symm⟩
        rcases Nat.lt_or_ge 1 source.length with hlen | hlen
        · exact strictlyIncreasing_pairwise hfinite.1 (by simpa [hlen] using hincreasing)
        · match source, hlen with
          | [], _ => exact List.Pairwise.nil
          | [_], _ => exact List.pairwise_singleton _ _

theorem window_length {valid : List Bool} {chunk i : Nat} (hchunk : chunk ≠ 0) :
    ((valid.drop i).take chunk).length = chunk ↔ i + chunk ≤ valid.length := by
  rw [List.length_take, List.length_drop]
  omega

theorem anchorValidity_ok {valid anchor : List Bool} {chunk : Nat} (h : anchorValidity valid chunk = .ok anchor) :
    chunk ≠ 0 ∧ anchor = strictAnchorMask valid chunk := by
  unfold anchorValidity at h
  split at h
  · cases h
  · rename_i hchunk
    refine ⟨hchunk, (Except.ok.inj h).symm.trans (List.map_congr_left fun i _ => ?_)⟩
    simp only [window_length hchunk]

theorem chain_of_any {index : List Int} (h : ¬(index.zip index.tail).any (fun (a, b) => b < a) = true) :
    index.IsChain (· ≤ ·) := by
  induction index with
  | nil => exact List.isChain_nil
  | cons a rest ih =>
    cases rest with
    | nil => exact List.isChain_singleton _
    | cons b rest =>
      rw [List.tail_cons, List.zip_cons_cons, List.any_cons, Bool.or_eq_true, not_or] at h
      exact List.isChain_cons_cons.mpr ⟨not_lt.mp fun hlt => h.1 (decide_eq_true hlt), ih h.2⟩

theorem assertMapping_ok {error : List ℚ} {index : List Int} {anchor : List Bool} {u : Unit}
    (h : assertMapping error index anchor cfg = .ok u) : index.IsChain (· ≤ ·) ∧ (∀ d ∈ error, d ≤ cfg.tailTimestampErrorS) ∧
      ∀ last, lastSet anchor = some last → ∀ d ∈ error.take (last + cfg.actionChunkSize), d ≤ cfg.maxTimestampErrorS := by
  unfold assertMapping at h
  split at h
  · cases h
  · rename_i hmonotone
    split at h
    · cases h
    · rename_i htail
      refine ⟨chain_of_any hmonotone, fun d hd => ?_, fun last hlast d hd => ?_⟩
      · by_contra hlt
        exact htail (List.any_eq_true.mpr ⟨d, hd, decide_eq_true (not_le.mp hlt)⟩)
      · simp only [hlast] at h
        split at h
        · cases h
        · rename_i hsupervised
          by_contra hlt
          exact hsupervised (List.any_eq_true.mpr ⟨d, hd, decide_eq_true (not_le.mp hlt)⟩)

theorem sourceStatePermutation_ok {names : List String} {permutation : List Nat}
    (h : sourceStatePermutation names = .ok permutation) :
    names = unitreeActionNames ∧ permutation = sourceArmHandFields.map names.idxOf := by
  unfold sourceStatePermutation at h
  split at h
  · rename_i hnames
    exact ⟨hnames, (Except.ok.inj h).symm⟩
  · cases h

theorem buildState_ok {rows state : List (List FloatEntry)} {permutation : List Nat}
    (h : buildState rows permutation = .ok state) : (∀ r ∈ rows, r.length = sourceStateDim) ∧
      state = rows.map fun row => (standingLowerBody.map FloatEntry.finite ++ permuteRow permutation row).map FloatEntry.toFloat32 := by
  unfold buildState at h
  split at h
  · cases h
  · rename_i hwidth
    refine ⟨fun r hr => ?_, (Except.ok.inj h).symm⟩
    by_contra hne
    exact hwidth (List.any_eq_true.mpr ⟨r, hr, decide_eq_true hne⟩)

/-- What the converter has found when it accepts an episode. -/
structure Accepted (cfg : ConversionConfig) (raw : RawEpisode) (sonic : SonicEpisode) : Prop where
  width : ∀ r ∈ sonic.action, r.length = bodyTokenDim + handDim
  stamps : sonic.timestamp.length = sonic.action.length
  frames : raw.timestamp.length = raw.state.length
  nonempty : sonic.timestamp ≠ []
  increasing : sonic.stamps.Pairwise (· < ·)
  chunk : cfg.actionChunkSize ≠ 0
  monotone : (raw.timestamp.map fun t => nearestIndex sonic.stamps t.value).IsChain (· ≤ ·)
  tail : ∀ t ∈ raw.timestamp, stampDistance (sonic.stamps.getD (sonic.select t) 0) t.value ≤ cfg.tailTimestampErrorS
  supervised : ∀ last, lastSet (strictAnchorMask (sonic.frameValid raw) cfg.actionChunkSize) = some last →
    ∀ t ∈ raw.timestamp.take (last + cfg.actionChunkSize),
      stampDistance (sonic.stamps.getD (sonic.select t) 0) t.value ≤ cfg.maxTimestampErrorS
  names : raw.stateNames = unitreeActionNames
  stateWidth : ∀ r ∈ raw.state, r.length = sourceStateDim

/-- The converted episode of an accepted one. -/
def converted (cfg : ConversionConfig) (raw : RawEpisode) (sonic : SonicEpisode) : ConvertedEpisode where
  state := raw.state.map fun row => (standingLowerBody.map FloatEntry.finite ++
    permuteRow (sourceArmHandFields.map raw.stateNames.idxOf) row).map FloatEntry.toFloat32
  bodyToken := raw.timestamp.map fun t => (sonic.row (sonic.select t)).take bodyTokenDim
  handAction := raw.timestamp.map fun t => (sonic.row (sonic.select t)).drop bodyTokenDim
  actionMask := (sonic.frameValid raw).map actionMaskRow
  timestamp := (List.range raw.state.length).map fun (i : Nat) => float64 (i / cfg.datasetFps)
  trainingValidMask := sonic.frameValid raw
  anchorValid := strictAnchorMask (sonic.frameValid raw) cfg.actionChunkSize
  raw := raw

theorem convert_ok (h : convertEpisode raw sonic cfg = .ok e) : Accepted cfg raw sonic ∧ e = converted cfg raw sonic := by
  unfold convertEpisode at h
  obtain ⟨_, hshapes, h⟩ := bind_ok h
  obtain ⟨_, -, h⟩ := bind_ok h
  obtain ⟨index, hindex, h⟩ := bind_ok h
  obtain ⟨anchor, hanchor, h⟩ := bind_ok h
  obtain ⟨_, hmapping, h⟩ := bind_ok h
  obtain ⟨permutation, hpermutation, h⟩ := bind_ok h
  obtain ⟨state, hstate, h⟩ := bind_ok h
  obtain ⟨hwidth, ⟨hstamps, -⟩, hframes⟩ := assertShapes_ok hshapes
  obtain ⟨hne, hincreasing, rfl⟩ := nearestIndices_ok hindex
  obtain ⟨hchunk, rfl⟩ := anchorValidity_ok hanchor
  obtain ⟨hnames, rfl⟩ := sourceStatePermutation_ok hpermutation
  obtain ⟨hstateWidth, rfl⟩ := buildState_ok hstate
  have hselected : ∀ {α : Type} (f : Nat → α), ((raw.timestamp.map fun t =>
      nearestIndex (sonic.timestamp.map FloatEntry.value) t.value).map (wrapIndex sonic.action.length)).map f =
      raw.timestamp.map fun t => f (sonic.select t) := by
    intro α f
    rw [List.map_map, List.map_map]
    rfl
  have herror : mappingError sonic.stamps (raw.timestamp.map FloatEntry.value) (raw.timestamp.map fun t =>
      nearestIndex (sonic.timestamp.map FloatEntry.value) t.value) =
      raw.timestamp.map fun t => stampDistance (sonic.stamps.getD (sonic.select t) 0) t.value := by
    have hlength : sonic.stamps.length = sonic.action.length := (List.length_map _).trans hstamps
    unfold mappingError
    rw [List.zipWith_map, List.zipWith_self, hlength]
    rfl
  rw [herror] at hmapping
  obtain ⟨hmonotone, htail, hsupervised⟩ := assertMapping_ok hmapping
  rw [hselected] at hsupervised
  refine ⟨⟨hwidth, hstamps, hframes, hne, hincreasing, hchunk, hmonotone, fun t ht => htail _ (List.mem_map_of_mem ht),
    fun last hlast t ht => ?_, hnames, hstateWidth⟩, ?_⟩
  · refine hsupervised last hlast _ ?_
    rw [← List.map_take]
    exact List.mem_map_of_mem ht
  · rw [← Except.ok.inj h]
    simp only [hselected]
    rfl

/-! ### The nearest sample -/

theorem wrapIndex_lt {n : Nat} {i : Int} (hn : 0 < n) (hlow : -1 ≤ i) (hhigh : i < n) : wrapIndex n i < n := by
  unfold wrapIndex
  split <;> omega

theorem nearestIndex_bounds {source : List ℚ} (h : source ≠ []) (t : ℚ) :
    -1 ≤ nearestIndex source t ∧ nearestIndex source t < source.length := by
  have hlen := List.length_pos_iff.mpr h
  unfold nearestIndex
  dsimp only
  split <;> omega

/-- The sample that `np.argmin` finds for a time. -/
def SonicEpisode.first (sonic : SonicEpisode) (t : FloatEntry) : Nat := argmin (sonic.stamps.map (stampDistance · t.value))

theorem Accepted.stamps_length (h : Accepted cfg raw sonic) : sonic.stamps.length = sonic.action.length :=
  (List.length_map _).trans h.stamps

theorem Accepted.stamps_ne (h : Accepted cfg raw sonic) : sonic.stamps ≠ [] := fun hnil => h.nonempty (List.map_eq_nil_iff.mp hnil)

theorem Accepted.select_lt (h : Accepted cfg raw sonic) (t : FloatEntry) : sonic.select t < sonic.stamps.length := by
  obtain ⟨hlow, hhigh⟩ := nearestIndex_bounds h.stamps_ne t.value
  unfold SonicEpisode.select
  rw [← h.stamps_length]
  exact wrapIndex_lt (List.length_pos_iff.mpr h.stamps_ne) hlow hhigh

theorem Accepted.row_length (h : Accepted cfg raw sonic) {i : Nat} (hi : i < sonic.stamps.length) :
    (sonic.row i).length = bodyTokenDim + handDim := by
  rw [h.stamps_length] at hi
  unfold SonicEpisode.row
  rw [List.getD_eq_getElem _ _ hi]
  exact h.width _ (List.getElem_mem hi)

/-- `np.argmin` finds the first of the nearest samples. -/
theorem SonicEpisode.earliest_first (hne : sonic.stamps ≠ []) (t : FloatEntry) :
    Earliest stampDistance sonic.stamps t.value (sonic.first t) :=
  earliest_least hne

theorem Accepted.first_lt (h : Accepted cfg raw sonic) (t : FloatEntry) : sonic.first t < sonic.stamps.length :=
  (sonic.earliest_first h.stamps_ne t).closest.fst

/-- No sample is nearer than the one that `np.argmin` finds. -/
theorem Accepted.first_le (h : Accepted cfg raw sonic) (t : FloatEntry) {i : Nat} (hi : i < sonic.stamps.length) :
    stampDistance (sonic.stamps.getD (sonic.first t) 0) t.value ≤ stampDistance (sonic.stamps.getD i 0) t.value := by
  obtain ⟨hfirst, hleast⟩ := (sonic.earliest_first h.stamps_ne t).closest
  rw [List.getD_eq_getElem _ _ hi, List.getD_eq_getElem _ _ hfirst]
  exact hleast i hi

theorem stampDistance_comm (a b : ℚ) : stampDistance a b = stampDistance b a := by
  unfold stampDistance float64
  rw [← neg_sub, roundBinary_neg, abs_neg]

theorem between_stampDistance : Between stampDistance := by
  intro a b t h
  unfold stampDistance float64
  rw [abs_roundBinary, abs_roundBinary]
  exact roundBinary_mono (by norm_num) (between_abs h)

/-- The bisection finds the last of the nearest samples before a time. Where none lies before it, it finds the first of all. -/
theorem wrapIndex_nearestIndex {source : List ℚ} (hne : source ≠ []) (hsorted : source.Pairwise (· < ·)) (t : ℚ) :
    Latest stampDistance source t (wrapIndex source.length (nearestIndex source t)) ∨
      Earliest stampDistance source t (wrapIndex source.length (nearestIndex source t)) ∧ ∀ j, ¬Latest stampDistance source t j := by
  change Latest stampDistance source t (wrapIndex source.length (nearestIndexBy (fun x y => float64 (x - y)) source t)) ∨
    Earliest stampDistance source t (wrapIndex source.length (nearestIndexBy (fun x y => float64 (x - y)) source t)) ∧ _
  rcases Nat.lt_or_ge 1 source.length with hmany | hone
  · obtain ⟨k, hk, haround, heq⟩ := nearestIndexBy_many (fun x y => float64 (x - y)) hmany t
    have hchoice := latest_or_earliest between_stampDistance hsorted hk haround
    rw [← stampDistance_comm t] at hchoice
    rw [heq, wrapIndex, if_neg (by omega), Int.toNat_natCast]
    exact hchoice
  · -- With one sample, the bisection selects it from the end.
    match source, hne, hone with
    | [s], _, _ =>
      rw [nearestIndexBy_one _ stampDistance_comm]
      refine .inr ⟨⟨⟨Nat.one_pos, fun j hj => ?_⟩, fun j _ => Nat.zero_le j⟩, fun j hlatest => ?_⟩
      · obtain rfl := Nat.lt_one_iff.mp hj
        exact le_rfl
      · obtain ⟨hj, -⟩ := hlatest.inside
        exact absurd hj (by simp)

theorem nearestIndex_nonneg {source : List ℚ} (h : 1 < source.length) (t : ℚ) : 0 ≤ nearestIndex source t := by
  unfold nearestIndex
  dsimp only
  split <;> omega

/-- The samples of successive frames are in order. -/
theorem Accepted.select_monotone (h : Accepted cfg raw sonic) : (raw.timestamp.map sonic.select).IsChain (· ≤ ·) := by
  have hmonotone := h.monotone
  rw [List.isChain_map] at hmonotone ⊢
  refine hmonotone.imp fun a b hab => ?_
  rcases Nat.lt_or_ge 1 sonic.stamps.length with hmany | hone
  · have ha := nearestIndex_nonneg hmany a.value
    have hb := nearestIndex_nonneg hmany b.value
    unfold SonicEpisode.select wrapIndex
    rw [if_neg (by omega), if_neg (by omega)]
    omega
  · have ha := h.select_lt a
    have hb := h.select_lt b
    omega

theorem Accepted.select_choice (h : Accepted cfg raw sonic) (t : FloatEntry) :
    Latest stampDistance sonic.stamps t.value (sonic.select t) ∨
      Earliest stampDistance sonic.stamps t.value (sonic.select t) ∧ ∀ j, ¬Latest stampDistance sonic.stamps t.value j := by
  unfold SonicEpisode.select
  rw [← h.stamps_length]
  exact wrapIndex_nearestIndex h.stamps_ne h.increasing t.value

/-- The two samples agree exactly where the first and the last of the nearest samples do. -/
theorem Accepted.ties_iff {α : Type} (h : Accepted cfg raw sonic) (f : Nat → α) (t : FloatEntry) :
    f (sonic.first t) = f (sonic.select t) ↔ ∀ i j, Earliest stampDistance sonic.stamps t.value i →
      Latest stampDistance sonic.stamps t.value j → f i = f j := by
  have hfirst := sonic.earliest_first h.stamps_ne t
  rcases h.select_choice t with hlatest | ⟨hearliest, hnone⟩
  · constructor
    · intro heq i j hi hj
      rwa [earliest_unique hi hfirst, latest_unique hj hlatest]
    · intro hall
      exact hall _ _ hfirst hlatest
  · rw [earliest_unique hearliest hfirst]
    exact ⟨fun _ _ j _ hj => absurd hj (hnone j), fun _ => rfl⟩

/-- What `np.argmin` finds is in order exactly where the first of the nearest samples are. -/
theorem SonicEpisode.first_monotone (hne : sonic.stamps ≠ []) (T : List FloatEntry) :
    (T.map sonic.first).IsChain (· ≤ ·) ↔ T.IsChain fun t u => ∀ i j, Earliest stampDistance sonic.stamps t.value i →
      Earliest stampDistance sonic.stamps u.value j → i ≤ j := by
  have hfirst := sonic.earliest_first hne
  have hiff : ∀ t u, sonic.first t ≤ sonic.first u ↔ ∀ i j, Earliest stampDistance sonic.stamps t.value i →
      Earliest stampDistance sonic.stamps u.value j → i ≤ j := by
    intro t u
    constructor
    · intro hle i j hi hj
      rwa [earliest_unique hi (hfirst t), earliest_unique hj (hfirst u)]
    · intro hall
      exact hall _ _ (hfirst t) (hfirst u)
  rw [List.isChain_map]
  simp only [hiff]

/-! ### The repair -/

theorem beyondCount_pos {xs : List FloatEntry} : 0 < beyondCount xs ↔ ∃ x ∈ xs, x.beyond physicalHandSampleBoundRad = true :=
  List.countP_pos_iff

/-- The source names are none of the canonical names. -/
theorem not_canonical : ∀ name ∈ unitreeActionNames, name ∉ canonicalStateNames := by decide

/-- A repair names a source channel. -/
theorem repair_ok {measured repaired : List (List FloatEntry)} {names : List String} {repair : HandRepair}
    (h : repairNonphysicalSamples interp measured names = .ok (repaired, repair)) :
    (beyondCount measured.flatten = 0 ∧ repaired = measured ∧ repair = ⟨"none", physicalHandSampleBoundRad, []⟩) ∨
    (beyondCount measured.flatten ≠ 0 ∧ ∃ channel ∈ repair.channels, channel.1 ∈ names) := by
  unfold repairNonphysicalSamples at h
  split at h
  · cases h
  · rename_i hwidth
    split at h
    · rename_i hnone
      cases h
      exact .inl ⟨hnone, rfl, rfl⟩
    · rename_i hsome
      split at h
      · cases h
      · split at h
        · cases h
        · cases h
          refine .inr ⟨hsome, ?_⟩
          obtain ⟨x, hx, hbeyond⟩ := beyondCount_pos.mp (Nat.pos_of_ne_zero hsome)
          obtain ⟨r, hr, hxr⟩ := List.mem_flatten.mp hx
          obtain ⟨c, hc, rfl⟩ := List.getElem_of_mem hxr
          have hlen : r.length = names.length := by
            by_contra hne
            exact hwidth (List.any_eq_true.mpr ⟨r, hr, decide_eq_true hne⟩)
          have hcolumn : beyondCount (column measured c) ≠ 0 := by
            refine Nat.ne_of_gt (beyondCount_pos.mpr ⟨r[c], ?_, hbeyond⟩)
            rw [← List.getD_eq_getElem r .nan hc]
            exact List.mem_map_of_mem (f := fun row : List FloatEntry => row.getD c .nan) hr
          refine ⟨(names.getD c "", beyondCount (column measured c)), ?_, ?_⟩
          · exact List.mem_filterMap.mpr ⟨c, List.mem_range.mpr (hlen ▸ hc), if_neg hcolumn⟩
          · show names.getD c "" ∈ names
            rw [List.getD_eq_getElem _ _ (hlen ▸ hc)]
            exact List.getElem_mem _

theorem read_ok (h : readRawEpisode interp src = .ok raw) : src.measured ≠ [] ∧ raw.timestamp = src.timestamp ∧
    raw.stateNames = src.names ∧ ∃ repaired, repairNonphysicalSamples interp src.measured src.names = .ok (repaired, raw.repair) ∧
      raw.state = repaired.map (·.map FloatEntry.toFloat32) := by
  unfold readRawEpisode at h
  split at h
  · cases h
  · rename_i hne
    obtain ⟨⟨repaired, repair⟩, hrepair, rfl⟩ := map_ok h
    exact ⟨hne, rfl, rfl, repaired, hrepair, rfl⟩

end HumanoidLab.Psi0Dex3
