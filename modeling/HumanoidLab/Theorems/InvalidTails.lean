import HumanoidLab.Theorems.EpisodeConversion

/-! What an accepted episode supervises. Every frame in the chunk window of a valid anchor selects a valid sample within the
    bound, and the samples that are not valid reach neither the masks nor a frame that the action mask admits. -/

namespace HumanoidLab.Psi0Dex3
open Fallible

variable {cfg : ConversionConfig} {raw : RawEpisode} {sonic other : SonicEpisode} {e : ConvertedEpisode}

/-- The action mask admits a frame: some entry of its row is not zero. -/
def ConvertedEpisode.admits (e : ConvertedEpisode) (k : Nat) : Bool := (e.actionMask.getD k []).any (· ≠ 0)

/-- Two SONIC actions that agree on their times, their validity and their valid rows. -/
structure SonicEpisode.Agrees (sonic other : SonicEpisode) : Prop where
  timestamp : other.timestamp = sonic.timestamp
  valid : other.valid = sonic.valid
  length : other.action.length = sonic.action.length
  width : ∀ r ∈ other.action, r.length = bodyTokenDim + handDim
  row : ∀ i, sonic.isValid i = true → other.row i = sonic.row i

/-! ### The window of an anchor -/

theorem le_lastSet {mask : List Bool} {i : Nat} (h : mask.getD i false = true) : ∃ last, lastSet mask = some last ∧ i ≤ last := by
  have hi : i < mask.length := by
    by_contra hge
    rw [List.getD_eq_default _ _ (not_lt.mp hge)] at h
    cases h
  have hmem : i ∈ (List.range mask.length).filter fun i => mask.getD i false := List.mem_filter.mpr ⟨List.mem_range.mpr hi, h⟩
  refine ⟨_, List.getLast?_eq_some_getLast (List.ne_nil_of_mem hmem), ?_⟩
  obtain ⟨j, hj, rfl⟩ := List.getElem_of_mem hmem
  have hsorted := (List.pairwise_lt_range (n := mask.length)).filter fun i => mask.getD i false
  rw [List.getLast_eq_getElem]
  rcases (Nat.le_sub_one_of_lt hj).eq_or_lt with heq | hlt
  · simp only [heq, le_refl]
  · exact (List.pairwise_iff_getElem.mp hsorted _ _ hj (by omega) hlt).le

theorem window_get {valid : List Bool} {chunk i k : Nat} (hlen : ((valid.drop i).take chunk).length = chunk)
    (hall : ∀ v ∈ (valid.drop i).take chunk, v = true) (hik : i ≤ k) (hk : k < i + chunk) : valid[k]? = some true := by
  have hlt : k - i < ((valid.drop i).take chunk).length := by omega
  have hset := hall _ (List.getElem_mem hlt)
  rw [List.getElem_take, List.getElem_drop] at hset
  rw [List.length_take, List.length_drop] at hlen
  rw [List.getElem?_eq_getElem (by omega), ← hset]
  congr 2
  omega

/-- A frame in the window of a valid anchor. -/
theorem Accepted.supervised_frame (h : Accepted cfg raw sonic) {i k : Nat}
    (hi : (strictAnchorMask (sonic.frameValid raw) cfg.actionChunkSize).getD i false = true) (hik : i ≤ k)
    (hk : k < i + cfg.actionChunkSize) : ∃ t, raw.timestamp[k]? = some t ∧ sonic.isValid (sonic.select t) = true ∧
      stampDistance (sonic.stamps.getD (sonic.select t) 0) t.value ≤ cfg.maxTimestampErrorS := by
  obtain ⟨last, hlast, hle⟩ := le_lastSet hi
  unfold strictAnchorMask at hi
  rw [List.getD_eq_getElem?_getD, List.getElem?_map] at hi
  rcases hrange : (List.range (sonic.frameValid raw).length)[i]? with _ | j
  · rw [hrange] at hi
    cases hi
  · obtain ⟨hj, rfl⟩ := List.getElem?_eq_some_iff.mp hrange
    rw [hrange, List.getElem_range] at hi
    simp only [Option.map_some, Option.getD_some, Bool.and_eq_true, decide_eq_true_eq] at hi
    have hvalid := window_get hi.1 (List.all_eq_true.mp hi.2) hik hk
    unfold SonicEpisode.frameValid at hvalid
    rw [List.getElem?_map] at hvalid
    obtain ⟨t, ht, hset⟩ := Option.map_eq_some_iff.mp hvalid
    refine ⟨t, ht, hset, h.supervised last hlast t ?_⟩
    obtain ⟨hlt, rfl⟩ := List.getElem?_eq_some_iff.mp ht
    exact List.mem_take_iff_getElem.mpr ⟨k, by omega, rfl⟩

/-! ### Rows that are not valid -/

theorem actionMaskRow_any (v : Bool) : (actionMaskRow v).any (· ≠ 0) = v := by
  cases v <;> decide +kernel

theorem converted_admits {k : Nat} (h : (converted cfg raw sonic).admits k = true) :
    ∃ t, raw.timestamp[k]? = some t ∧ sonic.isValid (sonic.select t) = true := by
  unfold ConvertedEpisode.admits at h
  have hmask : (converted cfg raw sonic).actionMask = raw.timestamp.map fun t =>
      actionMaskRow (sonic.isValid (sonic.select t)) := List.map_map
  rw [hmask, List.getD_eq_getElem?_getD, List.getElem?_map] at h
  rcases hget : raw.timestamp[k]? with _ | t
  · rw [hget] at h
    cases h
  · rw [hget] at h
    exact ⟨t, rfl, (actionMaskRow_any _).symm.trans h⟩

theorem SonicEpisode.Agrees.select_eq (h : sonic.Agrees other) (t : FloatEntry) : other.select t = sonic.select t := by
  unfold SonicEpisode.select SonicEpisode.stamps
  rw [h.timestamp, h.length]

theorem SonicEpisode.Agrees.frameValid_eq (h : sonic.Agrees other) : other.frameValid raw = sonic.frameValid raw := by
  unfold SonicEpisode.frameValid SonicEpisode.isValid
  simp only [h.select_eq, h.valid]

theorem assertShapes_agrees (h : sonic.Agrees other) {u : Unit} (hs : assertShapes raw sonic = .ok u) :
    assertShapes raw other = .ok u := by
  obtain ⟨-, haxis, hframes⟩ := assertShapes_ok hs
  have hwidth : ¬(other.action.any (·.length ≠ bodyTokenDim + handDim)) = true := by
    rw [List.any_eq_true]
    rintro ⟨r, hr, hne⟩
    exact of_decide_eq_true hne (h.width r hr)
  unfold assertShapes
  rw [if_neg hwidth, h.timestamp, h.valid, h.length, if_neg (not_not.mpr haxis), if_neg (not_not.mpr hframes)]

/-- The action of an agreeing source is accepted too. -/
theorem convert_agrees (h : sonic.Agrees other) (he : convertEpisode raw sonic cfg = .ok e) :
    ∃ e', convertEpisode raw other cfg = .ok e' := by
  unfold convertEpisode at he ⊢
  obtain ⟨_, hshapes, he⟩ := bind_ok he
  obtain ⟨_, huniform, he⟩ := bind_ok he
  obtain ⟨index, hindex, he⟩ := bind_ok he
  obtain ⟨anchor, hanchor, he⟩ := bind_ok he
  obtain ⟨_, hmapping, he⟩ := bind_ok he
  obtain ⟨permutation, hpermutation, he⟩ := bind_ok he
  obtain ⟨state, hstate, he⟩ := bind_ok he
  have hvalid : other.isValid = sonic.isValid := by
    unfold SonicEpisode.isValid
    rw [h.valid]
  have hstamps : other.stamps = sonic.stamps := by
    unfold SonicEpisode.stamps
    rw [h.timestamp]
  rw [assertShapes_agrees h hshapes, huniform, h.timestamp, hindex, hvalid, h.length, hstamps]
  simp only [hanchor, hmapping, hpermutation, hstate, bind, Except.bind]
  exact ⟨_, rfl⟩

theorem invalid_tails (raw : RawEpisode) (sonic : SonicEpisode) (cfg : ConversionConfig) (e : ConvertedEpisode)
    (h : convertEpisode raw sonic cfg = .ok e) :
    (∃ index selected, nearestIndices sonic.timestamp raw.timestamp = .ok index ∧
      selected = index.map (wrapIndex sonic.action.length) ∧
      e.bodyToken = selected.map (fun i => (sonic.row i).take bodyTokenDim) ∧
      e.handAction = selected.map (fun i => (sonic.row i).drop bodyTokenDim) ∧
      (∀ i k, e.anchorValid.getD i false = true → i ≤ k → k < i + cfg.actionChunkSize →
        ∃ s t, selected[k]? = some s ∧ raw.timestamp[k]? = some t ∧ s < sonic.action.length ∧ sonic.isValid s = true ∧
          stampDistance (sonic.stamps.getD s 0) t.value ≤ cfg.maxTimestampErrorS) ∧
      selected.Pairwise (· ≤ ·)) ∧
    ∀ other, sonic.Agrees other → ∃ e', convertEpisode raw other cfg = .ok e' ∧ e'.anchorValid = e.anchorValid ∧
      e'.actionMask = e.actionMask ∧
      ∀ k, e.admits k = true → e'.bodyToken[k]? = e.bodyToken[k]? ∧ e'.handAction[k]? = e.handAction[k]? := by
  obtain ⟨haccepted, rfl⟩ := convert_ok h
  refine ⟨?_, fun other hagrees => ?_⟩
  · have hindices := h
    unfold convertEpisode at hindices
    obtain ⟨_, -, hindices⟩ := bind_ok hindices
    obtain ⟨_, -, hindices⟩ := bind_ok hindices
    obtain ⟨index, hindex, -⟩ := bind_ok hindices
    obtain ⟨-, -, rfl⟩ := nearestIndices_ok hindex
    have hselected : (raw.timestamp.map fun t => nearestIndex (sonic.timestamp.map FloatEntry.value) t.value).map
        (wrapIndex sonic.action.length) = raw.timestamp.map sonic.select := List.map_map
    refine ⟨_, _, hindex, rfl, ?_, ?_, fun i k hi hik hk => ?_, ?_⟩
    · rw [hselected, List.map_map]
      rfl
    · rw [hselected, List.map_map]
      rfl
    · obtain ⟨t, ht, hvalid, hbound⟩ := haccepted.supervised_frame hi hik hk
      refine ⟨sonic.select t, t, ?_, ht, haccepted.stamps_length ▸ haccepted.select_lt t, hvalid, hbound⟩
      rw [hselected, List.getElem?_map, ht]
      rfl
    · rw [hselected]
      exact List.isChain_iff_pairwise.mp haccepted.select_monotone
  · obtain ⟨e', he'⟩ := convert_agrees hagrees h
    obtain ⟨-, rfl⟩ := convert_ok he'
    refine ⟨_, he', ?_, ?_, fun k hk => ?_⟩
    · show strictAnchorMask (other.frameValid raw) _ = strictAnchorMask (sonic.frameValid raw) _
      rw [hagrees.frameValid_eq]
    · show (other.frameValid raw).map _ = (sonic.frameValid raw).map _
      rw [hagrees.frameValid_eq]
    · obtain ⟨t, ht, hvalid⟩ := converted_admits hk
      have hrow : other.row (other.select t) = sonic.row (sonic.select t) := by
        rw [hagrees.select_eq]
        exact hagrees.row _ hvalid
      constructor <;> (simp only [converted, List.getElem?_map, ht, Option.map_some, hrow])

/-! ### An episode whose last sample is not valid -/

def tailRaw : RawEpisode where
  state := List.replicate 3 (List.replicate sourceStateDim (.finite 0))
  timestamp := (List.range 3).map fun (i : Nat) => .finite (float64 (i / 25))
  stateNames := unitreeActionNames
  repair := ⟨"none", physicalHandSampleBoundRad, []⟩

def tailSonic (last : FloatEntry) : SonicEpisode where
  action := [List.replicate (bodyTokenDim + handDim) (.finite 0), List.replicate (bodyTokenDim + handDim) (.finite 1),
    List.replicate (bodyTokenDim + handDim) last]
  timestamp := tailRaw.timestamp
  valid := [true, true, false]

def tailConfig : ConversionConfig where
  sourceFps := 25
  datasetFps := 25
  actionChunkSize := 2
  maxTimestampErrorS := 1
  tailTimestampErrorS := 2
  cameraWidth := 640
  cameraHeight := 480
  fps_eq := rfl
  fps_pos := Nat.succ_pos 24

theorem tailSonic_agrees (a b : FloatEntry) : (tailSonic a).Agrees (tailSonic b) where
  timestamp := rfl
  valid := rfl
  length := rfl
  width := by
    intro r hr
    simp only [tailSonic, List.mem_cons, List.not_mem_nil, or_false] at hr
    rcases hr with rfl | rfl | rfl <;> exact List.length_replicate
  row := by
    intro i hi
    match i with
    | 0 => rfl
    | 1 => rfl
    | 2 => cases hi
    | _ + 3 => cases hi

theorem invalid_tails_nan : ∃ e e', convertEpisode tailRaw (tailSonic (.finite 0)) tailConfig = .ok e ∧
    convertEpisode tailRaw (tailSonic .nan) tailConfig = .ok e' ∧ e'.anchorValid = e.anchorValid ∧ e'.actionMask = e.actionMask := by
  have hsome : (convertEpisode tailRaw (tailSonic (.finite 0)) tailConfig).toOption.isSome = true := by decide +kernel
  cases h : convertEpisode tailRaw (tailSonic (.finite 0)) tailConfig with
  | error d =>
    rw [h] at hsome
    cases hsome
  | ok e =>
    obtain ⟨e', he', hanchor, hmask, -⟩ := (invalid_tails _ _ _ e h).2 _ (tailSonic_agrees (.finite 0) .nan)
    exact ⟨e, e', rfl, he', hanchor, hmask⟩

end HumanoidLab.Psi0Dex3
