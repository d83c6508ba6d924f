import HumanoidLab.Theorems.TrainingMask

/-! The windows of a training episode: the anchors that `valid_action_chunks` returns, and the episodes on which it raises. -/

namespace HumanoidLab
open Fallible

/-- The anchors and chunks of an episode: every window of valid rows, once, in order. -/
structure Windows {K : Type} (e : SonicTrainingEpisode K) (h : Nat) (out : List Nat × List (List (List K))) : Prop where
  increasing : out.1.Pairwise (· < ·)
  anchors : ∀ i, i ∈ out.1 ↔ i + h ≤ e.action.length ∧ ∀ k < h, e.trainingValidMask[i + k]? = some true
  chunks : List.Forall₂ (fun i chunk => chunk.length = h ∧ ∀ k < h, chunk[k]? = e.action[i + k]?) out.1 out.2

/-- The windows of a mask, and the anchors of those that are valid throughout. -/
def maskWindows (mask : List Bool) (h : Nat) : List (List Bool) :=
  (List.range (mask.length - h + 1)).map fun i => (mask.drop i).take h

def maskAnchors (mask : List Bool) (h : Nat) : List Nat :=
  (List.range (maskWindows mask h).length).filter fun i => ((maskWindows mask h).getD i []).all id

section
variable {K : Type} {e : SonicTrainingEpisode K} {h i : Nat} {mask : List Bool}

/-- A window of the mask, row by row. -/
theorem window_all (hi : i + h ≤ mask.length) :
    ((mask.drop i).take h).all id = true ↔ ∀ k < h, mask[i + k]? = some true := by
  rw [List.all_eq_true]
  constructor
  · intro hall k hk
    have hlt : i + k < mask.length := by omega
    have hmem : mask[i + k] ∈ (mask.drop i).take h := by
      refine List.mem_of_getElem? (i := k) ?_
      rw [List.getElem?_take_of_lt hk, List.getElem?_drop, List.getElem?_eq_getElem hlt]
    rw [List.getElem?_eq_getElem hlt]
    exact congrArg some (hall _ hmem)
  · intro hall b hb
    obtain ⟨k, hk⟩ := List.mem_iff_getElem?.mp hb
    have hlt : k < h := by
      by_contra hge
      rw [List.getElem?_eq_none (by rw [List.length_take]; omega)] at hk
      cases hk
    rw [List.getElem?_take_of_lt hlt, List.getElem?_drop, hall k hlt] at hk
    exact (Option.some.inj hk).symm

/-- Before the final 45 rows every row is valid. -/
theorem tail_window {frames : Nat} (hpos : 0 < h) :
    (i + h ≤ frames ∧ ∀ k < h, (tailMask frames)[i + k]? = some true) ↔ i + h + 45 ≤ frames := by
  constructor
  · rintro ⟨-, hall⟩
    have hlast := (tailMask_getElem?.mp (hall (h - 1) (by omega))).2
    have := of_decide_eq_true hlast.symm
    omega
  · intro hle
    refine ⟨by omega, fun k hk => tailMask_getElem?.mpr ⟨by omega, ?_⟩⟩
    exact (decide_eq_true (by omega)).symm

theorem slidingWindowView_ok (hle : h ≤ mask.length) :
    SonicTrainingEpisode.slidingWindowView mask h = .ok (maskWindows mask h) := if_neg (not_lt.mpr hle)

theorem mem_maskAnchors (hle : h ≤ mask.length) :
    i ∈ maskAnchors mask h ↔ i + h ≤ mask.length ∧ ∀ k < h, mask[i + k]? = some true := by
  have hcount : (maskWindows mask h).length = mask.length - h + 1 := by simp [maskWindows]
  have hget : i < mask.length - h + 1 → (maskWindows mask h).getD i [] = (mask.drop i).take h := by
    intro hi
    unfold maskWindows
    rw [List.getD_eq_getElem?_getD, List.getElem?_map, List.getElem?_range hi]
    rfl
  unfold maskAnchors
  rw [List.mem_filter, List.mem_range, hcount]
  constructor
  · rintro ⟨hi, hall⟩
    rw [hget hi] at hall
    have hfit : i + h ≤ mask.length := by omega
    exact ⟨hfit, (window_all hfit).mp hall⟩
  · rintro ⟨hfit, hall⟩
    have hi : i < mask.length - h + 1 := by omega
    rw [hget hi]
    exact ⟨hi, (window_all hfit).mpr hall⟩

end

section
variable {K : Type} [Scalar K] {e : SonicTrainingEpisode K}

theorem load_valid {payload : TrainingPayload K} (hload : SonicTrainingEpisode.load payload = .ok e) : e.validate = .ok () := by
  unfold SonicTrainingEpisode.load at hload
  split at hload
  · obtain ⟨_, hvalid, hload⟩ := bind_ok hload
    obtain rfl := Except.ok.inj hload
    exact hvalid
  · cases hload

omit [Scalar K] in
/-- `valid_action_chunks` returns the anchors of its mask when there are any. -/
theorem validActionChunks_iff {h : Int} (hpos : 0 < h) {out : List Nat × List (List (List K))} :
    e.validActionChunks h = .ok out ↔ h.toNat ≤ e.trainingValidMask.length ∧ out.1 ≠ [] ∧
      out.1 = maskAnchors e.trainingValidMask h.toNat ∧ out.2 = out.1.map fun i => (e.action.drop i).take h.toNat := by
  obtain ⟨anchors, chunks⟩ := out
  unfold SonicTrainingEpisode.validActionChunks
  rw [if_neg (not_le.mpr hpos)]
  rcases Nat.lt_or_ge e.trainingValidMask.length h.toNat with hlt | hle
  · have hwindow : SonicTrainingEpisode.slidingWindowView e.trainingValidMask h.toNat = .error .window := if_pos hlt
    rw [hwindow]
    exact ⟨fun hok => (by cases hok), fun hok => absurd hok.1 (not_le.mpr hlt)⟩
  · rw [slidingWindowView_ok hle]
    unfold maskAnchors SonicTrainingEpisode.stack
    dsimp only [bind, Except.bind]
    generalize (List.range _).filter _ = found
    cases found with
    | nil =>
      constructor
      · intro hok
        cases hok
      · rintro ⟨-, hne, hanchors, -⟩
        exact absurd hanchors hne
    | cons a rest =>
      constructor
      · intro hok
        obtain ⟨rfl, rfl⟩ := Prod.mk.inj (Except.ok.inj hok)
        exact ⟨hle, List.cons_ne_nil _ _, rfl, rfl⟩
      · rintro ⟨-, -, rfl, rfl⟩
        rfl

/-- On an episode that is read, the windows are returned when one fits before the final 45 rows; otherwise there is no anchor, and the
    call raises instead of returning none. -/
theorem training_windows (payload : TrainingPayload K) (e : SonicTrainingEpisode K) (h : Int)
    (hload : SonicTrainingEpisode.load payload = .ok e) (hpos : 0 < h) :
    (∃ out, e.validActionChunks h = .ok out ∧ Windows e h.toNat out) ↔ h + 45 ≤ e.timestamp.length := by
  obtain ⟨hshape, -, hlength, -, hlong, hmask⟩ := training_validate_ok.mp (load_valid hload)
  have hrows : e.action.length = e.timestamp.length := by
    unfold hasShape at hshape
    rw [Bool.and_eq_true, decide_eq_true_eq] at hshape
    exact hshape.1
  have hanchor : h.toNat ≤ e.trainingValidMask.length → ∀ i, i ∈ maskAnchors e.trainingValidMask h.toNat ↔
      i + h.toNat + 45 ≤ e.timestamp.length := by
    intro hle i
    rw [mem_maskAnchors hle, hlength, hmask, tail_window (by omega)]
  constructor
  · rintro ⟨⟨anchors, chunks⟩, hout, -⟩
    obtain ⟨hle, hne, rfl, -⟩ := (validActionChunks_iff hpos).mp hout
    obtain ⟨i, hi⟩ := List.exists_mem_of_ne_nil _ hne
    have := (hanchor hle i).mp hi
    omega
  · intro hfit
    have hle : h.toNat ≤ e.trainingValidMask.length := by omega
    have hzero : 0 ∈ maskAnchors e.trainingValidMask h.toNat := (hanchor hle 0).mpr (by omega)
    refine ⟨(maskAnchors e.trainingValidMask h.toNat,
      (maskAnchors e.trainingValidMask h.toNat).map fun i => (e.action.drop i).take h.toNat),
      (validActionChunks_iff hpos).mpr ⟨hle, List.ne_nil_of_mem hzero, rfl, rfl⟩, ?_, fun i => ?_, ?_⟩
    · exact List.pairwise_lt_range.filter _
    · rw [mem_maskAnchors hle, hlength, hrows]
    · refine List.forall₂_map_right_iff.mpr (List.forall₂_same.mpr fun i hi => ⟨?_, fun k hk => ?_⟩)
      · have := (hanchor hle i).mp hi
        rw [List.length_take, List.length_drop]
        omega
      · rw [List.getElem?_take_of_lt hk, List.getElem?_drop]

end

/-- An episode of rows of zeros. -/
def zeroEpisode (frames : Nat) : SonicTrainingEpisode ℚ :=
  ⟨List.replicate frames (List.replicate 78 0), (List.range frames).map fun i => i / 50, List.range frames, tailMask frames⟩

def SonicTrainingEpisode.payload {K : Type} (e : SonicTrainingEpisode K) : TrainingPayload K :=
  ⟨some e.action, some e.timestamp, some e.frameIndex, some e.trainingValidMask⟩

theorem load_zeroEpisode {frames : Nat} (hlong : 45 ≤ frames) :
    SonicTrainingEpisode.load (zeroEpisode frames).payload = .ok (zeroEpisode frames) := by
  have hvalid : (zeroEpisode frames).validate = .ok () := by
    have hlength : (zeroEpisode frames).timestamp.length = frames := by simp [zeroEpisode]
    refine training_validate_ok.mpr ?_
    rw [hlength]
    refine ⟨?_, rfl, by simp [zeroEpisode, tailMask], ⟨?_, ?_⟩, hlong, rfl⟩
    · simp [zeroEpisode, hasShape, trainingActionDim]
    · simp [finiteRows, Scalar.isFinite]
    · simp [Scalar.isFinite]
  have hload : SonicTrainingEpisode.load (zeroEpisode frames).payload =
      (zeroEpisode frames).validate >>= fun _ => .ok (zeroEpisode frames) := rfl
  rw [hload, hvalid]
  rfl

theorem training_windows_zero : ∃ out, (zeroEpisode 46).validActionChunks 1 = .ok out ∧ Windows (zeroEpisode 46) 1 out :=
  (training_windows _ (zeroEpisode 46) 1 (load_zeroEpisode (by decide)) (by decide)).mpr (by simp [zeroEpisode])

/-- A shortest episode that is read has no window: the call raises on the empty stack, and on a horizon longer than the episode. -/
theorem training_windows_none : SonicTrainingEpisode.load (zeroEpisode 45).payload = .ok (zeroEpisode 45) ∧
    (zeroEpisode 45).validActionChunks 40 = .error .emptyStack ∧ (zeroEpisode 45).validActionChunks 46 = .error .window :=
  ⟨load_zeroEpisode (by decide), by decide +kernel, by decide +kernel⟩

end HumanoidLab
