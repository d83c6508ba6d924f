import HumanoidLab.Evaluation.Datasets
import Mathlib.Order.Bounds.Basic

/-! The windows of the evaluation dataset: whatever the timestamps of the decoded frames, a window that is returned holds the frames
    after the selected one and the rows from it on, as many as are asked for and lie in its valid range. -/

namespace HumanoidLab.Dex3
open Fallible Psi0Dex3

variable {ι ι' : Type}

/-! ### The frames -/

section
variable {reformat : ι → ι'} {fps timeBase : ℚ} {first : Int} {count : Nat}

/-- Decoded frames that stand for the frames from one on. -/
def Consecutive (fps timeBase : ℚ) (first : Int) (window : List (DecodedFrame ι)) : Prop :=
  ∀ (k : Nat) f, window[k]? = some f → ∃ pts, f.pts = some pts ∧ frameIndex fps timeBase pts = first + k

theorem Consecutive.cons {f : DecodedFrame ι} {pts : Int} {window : List (DecodedFrame ι)} (hpts : f.pts = some pts)
    (hindex : frameIndex fps timeBase pts = first) (h : Consecutive fps timeBase (first + 1) window) :
    Consecutive fps timeBase first (f :: window) := by
  intro k g hg
  cases k with
  | zero =>
    obtain rfl := Option.some.inj hg
    exact ⟨pts, hpts, by rw [hindex]; simp⟩
  | succ k =>
    obtain ⟨pts', hpts', hindex'⟩ := h k g hg
    refine ⟨pts', hpts', ?_⟩
    rw [hindex', Nat.cast_succ]
    ring

/-- The images that are collected are those of as many frames of the stream, one after the other. -/
theorem collect_ok {frames : List (DecodedFrame ι)} {images out : List ι'}
    (h : collect reformat fps timeBase first count frames images = .ok out) :
    out.length = count ∧ ∃ window, window.Sublist frames ∧ out = images ++ window.map (fun f => reformat f.picture) ∧
      Consecutive fps timeBase (first + images.length) window := by
  have hnone : Consecutive fps timeBase (first + images.length) ([] : List (DecodedFrame ι)) := fun k f hf => by cases hf
  induction frames generalizing images with
  | nil =>
    obtain ⟨hlen, h⟩ := guard_ok.mp h
    cases h
    exact ⟨not_not.mp hlen, [], .slnil, (List.append_nil _).symm, hnone⟩
  | cons f rest ih =>
    unfold collect at h
    split at h
    · cases h
    rename_i pts hpts
    dsimp only at h
    by_cases hearly : frameIndex fps timeBase pts < first
    · rw [if_pos hearly] at h
      obtain ⟨hlen, window, hsub, hout, hwindow⟩ := ih h hnone
      exact ⟨hlen, window, hsub.cons _, hout, hwindow⟩
    rw [if_neg hearly] at h
    obtain ⟨hindex, h⟩ := guard_ok.mp h
    rw [not_not] at hindex
    by_cases hlast : (images ++ [reformat f.picture]).length = count
    · rw [if_pos hlast] at h
      cases h
      exact ⟨hlast, [f], List.singleton_sublist.mpr List.mem_cons_self, rfl, .cons hpts hindex fun k g hg => by cases hg⟩
    · rw [if_neg hlast] at h
      obtain ⟨hlen, window, hsub, hout, hwindow⟩ := ih h fun k g hg => by cases hg
      refine ⟨hlen, f :: window, hsub.cons_cons f, ?_, .cons hpts hindex ?_⟩
      · rw [hout, List.map_cons, List.append_assoc]
        rfl
      · rwa [List.length_append, List.length_singleton, Nat.cast_add, Nat.cast_one, ← add_assoc] at hwindow

end

/-! ### The dataset -/

section
variable {m : Manifest} {rows : List (List FloatEntry)} {ds : Dex3Dataset} {episodeId : String} {e : Episode}

/-- The rows of an episode are rows of the dataset, and its valid ranges are ranges of its frames. -/
structure Episode.Fits (e : Episode) (rows : Nat) : Prop where
  from_nonneg : 0 ≤ e.fromIndex
  rows_le : e.fromIndex + e.nFrames ≤ rows
  first_nonneg : 0 ≤ e.headFirstFrame
  ranges : ∀ range ∈ e.validRanges, 0 ≤ range.1 ∧ range.1 < range.2 ∧ range.2 ≤ e.nFrames

theorem check_ok {n : Nat} (h : e.check n = .ok ()) : e.Fits n := by
  obtain ⟨hrows, h⟩ := guard_ok.mp h
  obtain ⟨hvideo, -⟩ := guard_ok.mp h
  simp only [not_or, Bool.not_eq_true, List.any_eq_false, Bool.not_eq_true', Bool.not_eq_false, Bool.and_eq_true,
    decide_eq_true_eq] at hrows hvideo
  refine ⟨by omega, by omega, by omega, fun range hrange => ?_⟩
  obtain ⟨⟨hlow, hlt⟩, hhigh⟩ := hvideo.2 range hrange
  exact ⟨hlow, hlt, hhigh⟩

/-- Every episode of an accepted manifest fits, and every row has a state and an action. -/
theorem load_fits (hload : Dex3Dataset.load m rows = .ok ds) (h : ds.episode episodeId = .ok e) :
    ds.rows = rows ∧ e.Fits rows.length := by
  obtain ⟨-, hload⟩ := guard_ok.mp hload
  obtain ⟨-, hload⟩ := guard_ok.mp hload
  obtain ⟨checked, hchecked, hload⟩ := bind_ok hload
  cases hload
  refine ⟨rfl, ?_⟩
  unfold Dex3Dataset.episode at h
  split at h
  · rename_i e' hlookup
    cases h
    obtain ⟨before, after, heq, -⟩ := List.lookup_eq_some_iff.mp hlookup
    obtain ⟨i, hi, hget⟩ := List.getElem_of_mem (show (episodeId, e) ∈ _ from heq ▸ List.mem_append_right _ List.mem_cons_self)
    have hcheck := (List.forall₂_iff_get.mp (mapM_ok hchecked)).2 i hi (by rwa [← (mapM_ok hchecked).length_eq])
    rw [List.get_eq_getElem, hget] at hcheck
    exact check_ok hcheck
  · cases h

theorem validateFrame_ok {frame : Dex3Dataset.FrameArgument} {n : Int} (h : ds.validateFrame episodeId frame = .ok (e, n)) :
    ds.episode episodeId = .ok e ∧ frame = .int n ∧ 0 ≤ n ∧ n < e.nFrames := by
  obtain ⟨e', he, h⟩ := bind_ok h
  cases frame with
  | other => cases h
  | int value =>
    obtain ⟨hframe, h⟩ := guard_ok.mp h
    obtain ⟨-, h⟩ := guard_ok.mp h
    cases h
    simp only [Bool.not_eq_true', Bool.not_eq_false, Bool.and_eq_true, decide_eq_true_eq] at hframe
    exact ⟨he, rfl, hframe⟩

theorem referenceLength_ok {frame : Dex3Dataset.FrameArgument} {steps count : Int}
    (h : ds.referenceLength episodeId frame steps = .ok count) : ∃ e n lo hi, ds.validateFrame episodeId frame = .ok (e, n) ∧
      e.validRanges.find? (Dex3Dataset.inRange n) = some (lo, hi) ∧
      count = max 0 (min steps (min (hi - n - 1) (e.nFrames - n - 1))) := by
  obtain ⟨⟨e, n⟩, hframe, h⟩ := bind_ok h
  dsimp only at h
  split at h
  · cases h
  · rename_i lo hi hfind
    cases h
    exact ⟨e, n, lo, hi, hframe, hfind, rfl⟩

/-- The images and the rows of a window of `c` steps from frame `n` on lie in a range. -/
def InWindow (n lo hi : Int) (c : ℕ) : Prop :=
  ∀ k : ℕ, k < c → (lo ≤ n + k ∧ n + k < hi) ∧ lo ≤ n + 1 + k ∧ n + 1 + k < hi

/-- The reference length is the longest window within the range of its frame. -/
theorem referenceLength_greatest {n lo hi last : Int} (steps : Int) (hlo : lo ≤ n) (hn : n < hi) (hhi : hi ≤ last) :
    IsGreatest {c : ℕ | c ≤ max 0 steps ∧ InWindow n lo hi c} (max 0 (min steps (min (hi - n - 1) (last - n - 1)))).toNat := by
  constructor
  · refine ⟨by omega, fun k hk => ?_⟩
    omega
  · rintro c ⟨hc, hwindow⟩
    cases c with
    | zero => exact Nat.zero_le _
    | succ c =>
      have := hwindow c (Nat.lt_succ_self c)
      omega

end

section
variable {videos : String → Except DatasetError (VideoStream ι)} {reformat : ι → ι'} {ds : Dex3Dataset} {episodeId : String}

/-- An image is that of a decoded frame whose timestamp stands for the given frame of the video. -/
def Dex3Dataset.Shows (ds : Dex3Dataset) (video : VideoStream ι) (reformat : ι → ι') (image : ι') (number : Int) : Prop :=
  ∃ fps offset f pts, ds.fps = .finite fps ∧ f ∈ video.decode offset ∧ f.pts = some pts ∧
    frameIndex fps video.timeBase pts = number ∧ image = reformat f.picture

theorem readFrames_ok {start count : Int} {out : List ι'}
    (h : ds.readFrames videos reformat episodeId start count = .ok out) :
    ∃ e video, ds.episode episodeId = .ok e ∧ videos e.headFile = .ok video ∧ out.length = count.toNat ∧
      ∀ (k : ℕ) image, out[k]? = some image → ds.Shows video reformat image (e.headFirstFrame + start + k) := by
  obtain ⟨e, he, h⟩ := bind_ok h
  obtain ⟨-, h⟩ := guard_ok.mp h
  obtain ⟨video, hvideo, h⟩ := bind_ok h
  dsimp only at h
  split at h
  · rename_i fps hfps
    obtain ⟨offset, -, h⟩ := bind_ok h
    obtain ⟨hlen, window, hsub, hout, hwindow⟩ := collect_ok h
    refine ⟨e, video, he, hvideo, hlen, fun k image hk => ?_⟩
    rw [hout, List.nil_append, List.getElem?_map] at hk
    obtain ⟨f, hf, rfl⟩ := Option.map_eq_some_iff.mp hk
    obtain ⟨pts, hpts, hindex⟩ := hwindow k f hf
    refine ⟨fps, offset, f, pts, hfps, hsub.subset (List.mem_of_getElem? hf), hpts, ?_, rfl⟩
    rw [hindex, List.length_nil, Nat.cast_zero, add_zero]
  · cases h

/-- The actions of a window are those of its rows. -/
theorem actions_get {rows : List (List FloatEntry)} {row count k : ℕ} {a : List FloatEntry}
    (h : (((rows.drop row).take count).map (·.drop stateWidth))[k]? = some a) :
    ∃ r, rows[row + k]? = some r ∧ a = r.drop stateWidth := by
  rw [List.getElem?_map] at h
  obtain ⟨r, hr, rfl⟩ := Option.map_eq_some_iff.mp h
  have hk : k < ((rows.drop row).take count).length := (List.getElem?_eq_some_iff.mp hr).1
  rw [List.getElem?_take_of_lt (by rw [List.length_take] at hk; omega), List.getElem?_drop] at hr
  exact ⟨r, hr, rfl⟩

/-- A window that is returned is the longest one of the first valid range of its frame: its actions are the rows of the episode from
    the frame on, and its images are the frames of the video behind it. -/
theorem window_alignment {m : Manifest} {rows : List (List FloatEntry)} {frame : Dex3Dataset.FrameArgument} {steps : Int}
    {r : Dex3Dataset.Reference ι'} (hload : Dex3Dataset.load m rows = .ok ds)
    (h : ds.reference videos reformat episodeId frame steps = .ok r) :
    ∃ e n lo hi, ds.episode episodeId = .ok e ∧ frame = .int n ∧ e.validRanges.find? (Dex3Dataset.inRange n) = some (lo, hi) ∧
      lo ≤ n ∧ n < hi ∧
      IsGreatest {c : ℕ | c ≤ max 0 steps ∧ InWindow n lo hi c} r.frames.length ∧
      r.steps = r.frames.length ∧ r.actions.length = r.frames.length ∧
      (∀ (k : ℕ) image, r.frames[k]? = some image → ∃ video, videos e.headFile = .ok video ∧
        ds.Shows video reformat image (e.headFirstFrame + n + 1 + k)) ∧
      ∀ (k : ℕ) action, r.actions[k]? = some action → e.fromIndex ≤ e.fromIndex + n + k ∧
        e.fromIndex + n + k < e.fromIndex + e.nFrames ∧
        ∃ row, rows[(e.fromIndex + n + k).toNat]? = some row ∧ action = row.drop stateWidth := by
  obtain ⟨count, hcount, h⟩ := bind_ok h
  obtain ⟨e, n, lo, hi, hframe, hfind, hlen⟩ := referenceLength_ok hcount
  obtain ⟨⟨e', n'⟩, hframe', h⟩ := bind_ok h
  obtain ⟨rfl, rfl⟩ : e = e' ∧ n = n' := by
    rw [hframe] at hframe'
    cases hframe'
    exact ⟨rfl, rfl⟩
  obtain ⟨he, hn, hpos, hlt⟩ := validateFrame_ok hframe
  obtain ⟨hrows, hfits⟩ := load_fits hload he
  have hin : lo ≤ n ∧ n < hi := by
    simpa only [Dex3Dataset.inRange, Bool.and_eq_true, decide_eq_true_eq] using List.find?_some hfind
  have hrange := hfits.ranges _ (List.mem_of_find?_eq_some hfind)
  obtain ⟨-, h⟩ := guard_ok.mp h
  obtain ⟨frames, hframes, h⟩ := bind_ok h
  cases h
  have hgreatest := referenceLength_greatest steps hin.1 hin.2 hrange.2.2
  rw [← hlen] at hgreatest
  -- Without a step no video is opened.
  obtain ⟨hshown, himages⟩ : frames.length = count.toNat ∧ ∀ (k : ℕ) image, frames[k]? = some image →
      ∃ video, videos e.headFile = .ok video ∧ ds.Shows video reformat image (e.headFirstFrame + n + 1 + k) := by
    by_cases hzero : count = 0
    · rw [if_pos hzero] at hframes
      cases hframes
      exact ⟨by rw [hzero]; rfl, fun k image hk => by cases hk⟩
    · rw [if_neg hzero] at hframes
      obtain ⟨e₁, video, he₁, hvideo, hnum, himages⟩ := readFrames_ok hframes
      rw [he] at he₁
      cases he₁
      refine ⟨hnum, fun k image hk => ⟨video, hvideo, ?_⟩⟩
      rw [add_assoc e.headFirstFrame n 1]
      exact himages k image hk
  have hfrom := hfits.from_nonneg
  have hto := hfits.rows_le
  -- The rows of the window exist, as they lie in the episode.
  have hactions : (((ds.rows.drop (e.fromIndex + n).toNat).take count.toNat).map (·.drop stateWidth)).length = count.toNat := by
    rw [List.length_map, List.length_take, List.length_drop, hrows]
    omega
  refine ⟨e, n, lo, hi, he, hn, hfind, hin.1, hin.2, ?_, ?_, ?_, himages, fun k action hk => ?_⟩
  · rwa [hshown]
  · have hpositive : 0 ≤ count := by omega
    rw [hshown]
    exact (Int.toNat_of_nonneg hpositive).symm
  · rw [hactions, hshown]
  · have hlast : k < count.toNat := hactions ▸ (List.getElem?_eq_some_iff.mp hk).1
    obtain ⟨row, hrow, haction⟩ := actions_get hk
    refine ⟨by omega, by omega, row, ?_, haction⟩
    rwa [hrows, show (e.fromIndex + n).toNat + k = (e.fromIndex + n + k).toNat by omega] at hrow

/-- An episode of four frames, whose first is frame ten of its video. -/
def Manifest.sample : Manifest :=
  ⟨28, 28, ["waist"], ["waist"], 6, .finite 2, [⟨"7", 2, 4, "head.mp4", 10, [(0, 1), (1, 4)]⟩]⟩

/-- The first frame is before the window and skipped. -/
def VideoStream.sample : VideoStream ℕ :=
  ⟨1 / 4, fun _ => (List.range 5).map fun i : ℕ => ⟨some (22 + 2 * (i : Int)), i⟩⟩

def rowsSample : List (List FloatEntry) :=
  (List.range 6).map fun i => List.replicate 28 (.finite 0) ++ List.replicate 28 (.finite (i : ℕ))

def referenceSample : Except DatasetError (Dex3Dataset.Reference ℕ) := do
  let ds ← Dex3Dataset.load Manifest.sample rowsSample
  ds.reference (fun _ => .ok VideoStream.sample) id "7" (.int 1) 9

theorem window_alignment_two : ∃ r lo hi, referenceSample = .ok r ∧ r.frames = [1, 2] ∧ r.actions.length = 2 ∧
    IsGreatest {c : ℕ | c ≤ max 0 (9 : Int) ∧ InWindow 1 lo hi c} 2 := by
  have hout : referenceSample.map (·.frames) = .ok [1, 2] := by decide +kernel
  obtain ⟨r, hr, hframes⟩ := map_ok hout
  obtain ⟨ds, hload, h⟩ := bind_ok hr
  obtain ⟨e, n, lo, hi, -, hn, -, -, -, hgreatest, -, hactions, -⟩ := window_alignment hload h
  cases hn
  rw [hframes] at hgreatest hactions
  exact ⟨r, lo, hi, hr, hframes, hactions, hgreatest⟩

end
end HumanoidLab.Dex3
