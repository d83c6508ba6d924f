import HumanoidLab.Datasets.Writer
import Mathlib.Data.List.Range
import Mathlib.Tactic.Common

/-! The clips of a finalized split. A task keeps a file that is already at its path when it decodes to as many frames as
    the episode has, whatever it shows; and the index of an add that raises after it has submitted its clip is used
    again by the next add. When neither happens, every recorded episode has its own clip. -/

namespace HumanoidLab
open Concurrency

variable {σ γ : Type} {V : VideoTools σ γ} {force : Bool} {s t : SplitWriter σ γ}

/-- Every recorded episode has the clip of its own segment, with as many frames as it has. -/
def ClipsMatch (V : VideoTools σ γ) (s : SplitWriter σ γ) : Prop :=
  ∀ e ∈ s.episodes, s.files (videoPath e.index) = some (V.cut e.source e.frames) ∧
    V.frameCount (V.cut e.source e.frames) = some e.frames

/-- An add comes while every submitted clip is one of a recorded episode, and a file that the task of a recorded episode
    keeps is the clip of its segment. -/
def OwnClips (V : VideoTools σ γ) (force : Bool) (s : SplitWriter σ γ) : WriterStep σ γ → Prop
  | .add _ _ => s.tasks.length = s.episodes.length
  | .examine i => force = false → i < s.episodes.length → ∀ job ∈ s.at? i .examining, ∀ c ∈ s.files (videoPath job.index),
      SplitWriter.adopts V job c = true → c = V.cut job.source job.frames
  | _ => True

instance [DecidableEq γ] (s : SplitWriter σ γ) : ∀ a, Decidable (OwnClips V force s a)
  | .add _ _ => inferInstanceAs (Decidable (s.tasks.length = s.episodes.length))
  | .examine i => inferInstanceAs (Decidable (force = false → i < s.episodes.length → ∀ job ∈ s.at? i .examining,
      ∀ c ∈ s.files (videoPath job.index), SplitWriter.adopts V job c = true → c = V.cut job.source job.frames))
  | .addRaises _ _ | .start _ | .torn _ _ | .ffmpeg _ | .ffmpegFails _ _ | .verify _ | .finalize => .isTrue trivial

/-! ### What the writer keeps -/

/-- What is known of the file of a task. -/
def AtPath (V : VideoTools σ γ) (file : Option γ) (t : VideoTask σ) : Prop :=
  match t.phase with
  | .verifying => file = some (V.cut t.job.source t.job.frames)
  | .done => file = some (V.cut t.job.source t.job.frames) ∧
      V.frameCount (V.cut t.job.source t.job.frames) = some t.job.frames
  | _ => True

/-- The first tasks are those of the recorded episodes, in their order; the clips of adds that raised since are all under
    the next index. -/
structure Clips (V : VideoTools σ γ) (s : SplitWriter σ γ) : Prop where
  recorded : ∀ i < s.episodes.length, s.tasks[i]?.map (·.job) = s.episodes[i]?
  numbered : ∀ (i : Nat) (job : VideoJob σ), s.episodes[i]? = some job → job.index = i
  raised : ∀ (i : Nat) (t : VideoTask σ), s.episodes.length ≤ i → s.tasks[i]? = some t → t.job.index = s.episodes.length
  files : ∀ (i : Nat) (t : VideoTask σ), i < s.episodes.length → s.tasks[i]? = some t → AtPath V (s.files (videoPath t.job.index)) t
  finalized : s.finalized = true → ∀ t ∈ s.tasks, t.phase = .done

theorem at?_iff {i : Nat} {phase : VideoPhase} {job : VideoJob σ} :
    s.at? i phase = some job ↔ s.tasks[i]? = some ⟨job, phase⟩ := by
  unfold SplitWriter.at?
  rw [Option.bind_eq_some_iff]
  constructor
  · rintro ⟨⟨job', phase'⟩, hi, h⟩
    obtain ⟨hp, ⟨⟩⟩ := Option.ite_none_right_eq_some.mp h
    obtain rfl : phase' = phase := hp
    exact hi
  · intro hi
    exact ⟨_, hi, if_pos rfl⟩

/-- The task of a recorded episode writes under its place in the order. -/
theorem Clips.index_eq (h : Clips V s) {i : Nat} {t : VideoTask σ} (hlt : i < s.episodes.length)
    (hi : s.tasks[i]? = some t) : t.job.index = i := by
  have hjob := h.recorded i hlt
  rw [hi, Option.map_some] at hjob
  exact h.numbered i t.job hjob.symm

/-- No other task writes the file of a recorded episode. -/
theorem Clips.path_ne (h : Clips V s) {i j : Nat} {t u : VideoTask σ} (hij : i ≠ j) (hlt : j < s.episodes.length)
    (hi : s.tasks[i]? = some t) (hj : s.tasks[j]? = some u) : videoPath u.job.index ≠ videoPath t.job.index := by
  intro heq
  have heq := videoPath_inj heq
  rw [h.index_eq hlt hj] at heq
  by_cases hrec : i < s.episodes.length
  · rw [h.index_eq hrec hi] at heq
    exact hij heq.symm
  · rw [h.raised i t (by omega) hi] at heq
    omega

theorem Clips.move (h : Clips V s) {i : Nat} {phase phase' : VideoPhase} {job : VideoJob σ} {file : Option γ}
    (hi : s.at? i phase = some job) (hphase : phase ≠ .done)
    (hfile : i < s.episodes.length → AtPath V file ⟨job, phase'⟩) : Clips V (s.move i job phase' file) := by
  have hi := at?_iff.mp hi
  have hlt : i < s.tasks.length := (List.getElem?_eq_some_iff.mp hi).1
  have hself : (s.tasks.set i ⟨job, phase'⟩)[i]? = some ⟨job, phase'⟩ := List.getElem?_set_self hlt
  have hother : ∀ j, i ≠ j → (s.tasks.set i ⟨job, phase'⟩)[j]? = s.tasks[j]? := fun j hij => List.getElem?_set_ne hij
  refine ⟨fun j hj => ?_, h.numbered, fun j t hj ht => ?_, fun j t hj ht => ?_, fun hfin => ?_⟩
  · show (s.tasks.set i ⟨job, phase'⟩)[j]?.map (·.job) = s.episodes[j]?
    by_cases hij : i = j
    · subst hij
      rw [hself, ← h.recorded i hj, hi, Option.map_some, Option.map_some]
    · rw [hother j hij, h.recorded j hj]
  · have ht : (s.tasks.set i ⟨job, phase'⟩)[j]? = some t := ht
    by_cases hij : i = j
    · subst hij
      rw [hself] at ht
      cases ht
      exact h.raised i ⟨job, phase⟩ hj hi
    · rw [hother j hij] at ht
      exact h.raised j t hj ht
  · have ht : (s.tasks.set i ⟨job, phase'⟩)[j]? = some t := ht
    by_cases hij : i = j
    · subst hij
      rw [hself] at ht
      cases ht
      simpa [SplitWriter.move] using hfile hj
    · rw [hother j hij] at ht
      simpa [SplitWriter.move, h.path_ne hij hj hi ht] using h.files j t hj ht
  · exact absurd (h.finalized hfin _ (List.mem_of_getElem? hi)) hphase

/-- A clip is submitted under the next index. -/
theorem Clips.submit (h : Clips V s) (hfin : s.finalized = false) (source : σ) (frames : Nat) :
    Clips V { s with tasks := s.tasks ++ [⟨s.submit source frames, .queued⟩] } := by
  have hlen : ∀ i < s.episodes.length, i < s.tasks.length := by
    intro i hi
    have hjob := h.recorded i hi
    rw [List.getElem?_eq_getElem hi, Option.map_eq_some_iff] at hjob
    obtain ⟨t, ht, -⟩ := hjob
    exact (List.getElem?_eq_some_iff.mp ht).1
  refine ⟨fun i hi => ?_, h.numbered, fun i t hi ht => ?_, fun i t hi ht => ?_, fun hfin' => ?_⟩
  · show (s.tasks ++ _)[i]?.map _ = s.episodes[i]?
    rw [List.getElem?_append_left (hlen i hi)]
    exact h.recorded i hi
  · have ht : (s.tasks ++ [⟨s.submit source frames, .queued⟩])[i]? = some t := ht
    by_cases hlt : i < s.tasks.length
    · rw [List.getElem?_append_left hlt] at ht
      exact h.raised i t hi ht
    · rw [List.getElem?_append_right (by omega)] at ht
      obtain rfl := List.mem_singleton.mp (List.mem_of_getElem? ht)
      rfl
  · have ht : (s.tasks ++ [⟨s.submit source frames, .queued⟩])[i]? = some t := ht
    rw [List.getElem?_append_left (hlen i hi)] at ht
    exact h.files i t hi ht
  · cases hfin.symm.trans hfin'

/-- The episode of the last clip is recorded, when it is the only one that is not. -/
theorem Clips.record (h : Clips V s) (hlen : s.tasks.length = s.episodes.length + 1) {job : VideoJob σ}
    (hlast : s.tasks[s.episodes.length]? = some ⟨job, .queued⟩) : Clips V { s with episodes := s.episodes ++ [job] } := by
  have hindex : job.index = s.episodes.length := h.raised _ _ (Nat.le_refl _) hlast
  refine ⟨fun i hi => ?_, fun i e he => ?_, fun i t hi ht => ?_, fun i t hi ht => ?_, h.finalized⟩
  · have hi : i < s.episodes.length + 1 := by simpa using hi
    show s.tasks[i]?.map _ = (s.episodes ++ [job])[i]?
    rcases Nat.lt_succ_iff_lt_or_eq.mp hi with hi | rfl
    · rw [List.getElem?_append_left hi]
      exact h.recorded i hi
    · rw [hlast, List.getElem?_concat_length, Option.map_some]
  · have he : (s.episodes ++ [job])[i]? = some e := he
    have hi : i < s.episodes.length + 1 := by simpa using (List.getElem?_eq_some_iff.mp he).1
    rcases Nat.lt_succ_iff_lt_or_eq.mp hi with hi | rfl
    · rw [List.getElem?_append_left hi] at he
      exact h.numbered i e he
    · rw [List.getElem?_concat_length] at he
      obtain rfl := Option.some.inj he
      exact hindex
  · have hi : s.episodes.length + 1 ≤ i := by simpa using hi
    have hlt : i < s.tasks.length := (List.getElem?_eq_some_iff.mp ht).1
    omega
  · have hi : i < s.episodes.length + 1 := by simpa using hi
    rcases Nat.lt_succ_iff_lt_or_eq.mp hi with hi | rfl
    · exact h.files i t hi ht
    · cases hlast.symm.trans ht
      trivial

theorem Clips.step (h : Clips V s) {a : WriterStep σ γ} (ha : OwnClips V force s a) (hstep : s.step V force a = some t) :
    Clips V t := by
  cases a with
  | add source frames =>
    simp only [SplitWriter.step, Option.ite_none_left_eq_some] at hstep
    obtain ⟨hfin, ⟨⟩⟩ := hstep
    have hlen : s.tasks.length = s.episodes.length := ha
    refine (h.submit (by simpa using hfin) source frames).record (by simp [hlen]) ?_
    show (s.tasks ++ _)[s.episodes.length]? = _
    rw [← hlen, List.getElem?_concat_length]
  | addRaises source frames =>
    simp only [SplitWriter.step, Option.ite_none_left_eq_some] at hstep
    obtain ⟨hfin, ⟨⟩⟩ := hstep
    exact h.submit (by simpa using hfin) source frames
  | start i =>
    simp only [SplitWriter.step, Option.ite_none_right_eq_some, Option.map_eq_some_iff] at hstep
    obtain ⟨-, job, hi, rfl⟩ := hstep
    exact h.move hi (by decide) fun _ => trivial
  | examine i =>
    simp only [SplitWriter.step, Option.map_eq_some_iff] at hstep
    obtain ⟨job, hi, hstep⟩ := hstep
    split at hstep
    · subst hstep
      exact h.move hi (by decide) fun _ => trivial
    · rename_i c hc
      split at hstep
      · subst hstep
        exact h.move hi (by decide) fun _ => trivial
      · rename_i hforce
        split at hstep
        · rename_i hadopts
          subst hstep
          refine h.move hi (by decide) fun hlt => ?_
          have hown := ha (by simpa using hforce) hlt job hi c hc hadopts
          obtain ⟨-, hcount⟩ := Bool.and_eq_true_iff.mp hadopts
          exact ⟨congrArg some hown, hown ▸ of_decide_eq_true hcount⟩
        · subst hstep
          exact h.move hi (by decide) fun _ => trivial
  | torn i c =>
    simp only [SplitWriter.step, Option.map_eq_some_iff] at hstep
    obtain ⟨job, hi, rfl⟩ := hstep
    exact h.move hi (by decide) fun _ => trivial
  | ffmpeg i =>
    simp only [SplitWriter.step, Option.map_eq_some_iff] at hstep
    obtain ⟨job, hi, rfl⟩ := hstep
    exact h.move hi (by decide) fun _ => rfl
  | ffmpegFails i c =>
    simp only [SplitWriter.step, Option.map_eq_some_iff] at hstep
    obtain ⟨job, hi, rfl⟩ := hstep
    exact h.move hi (by decide) fun _ => trivial
  | verify i =>
    simp only [SplitWriter.step, Option.map_eq_some_iff] at hstep
    obtain ⟨job, hi, hstep⟩ := hstep
    split at hstep
    · rename_i hcount
      subst hstep
      refine h.move hi (by decide) fun hlt => ?_
      have hfile : s.files (videoPath job.index) = some (V.cut job.source job.frames) := h.files i _ hlt (at?_iff.mp hi)
      rw [hfile] at hcount ⊢
      exact ⟨rfl, hcount⟩
    · subst hstep
      exact h.move hi (by decide) fun _ => trivial
  | finalize =>
    simp only [SplitWriter.step, Option.ite_none_right_eq_some] at hstep
    obtain ⟨⟨-, hdone⟩, ⟨⟩⟩ := hstep
    exact ⟨h.recorded, h.numbered, h.raised, h.files, fun _ => hdone⟩

theorem clips_reach (h : (writerMachine V force).Reach (OwnClips V force) s) : Clips V s := by
  refine h.invariant ?_ fun s a t _ hs ha hstep => hs.step ha hstep
  rintro s ⟨hepisodes, htasks, hfin⟩
  refine ⟨fun i hi => ?_, fun i job hi => ?_, fun i t _ ht => ?_, fun i t _ ht => ?_, fun hfin' => ?_⟩
  · rw [hepisodes] at hi
    cases hi
  · rw [hepisodes] at hi
    cases hi
  · rw [htasks] at ht
    cases ht
  · rw [htasks] at ht
    cases ht
  · cases hfin.symm.trans hfin'

/-- Once `finalize` has returned, in a run that has kept to its own clips, the clips match. -/
theorem clip_identity (h : (writerMachine V force).Reach (OwnClips V force) s) (hfin : s.finalized = true) : ClipsMatch V s := by
  have hs := clips_reach h
  intro e he
  obtain ⟨i, hi⟩ := List.mem_iff_getElem?.mp he
  have hlt : i < s.episodes.length := (List.getElem?_eq_some_iff.mp hi).1
  have hjob := hs.recorded i hlt
  rw [hi, Option.map_eq_some_iff] at hjob
  obtain ⟨t, ht, rfl⟩ := hjob
  have hfile := hs.files i t hlt ht
  unfold AtPath at hfile
  rw [hs.finalized hfin t (List.mem_of_getElem? ht)] at hfile
  exact hfile

/-! ### A clip of an earlier conversion, and clips that match -/

/-- A clip is told by its segment and its frames. -/
def plainTools : VideoTools Nat (Nat × Nat) := ⟨fun source frames => (source, frames), fun _ => 1, fun c => some c.2⟩

/-- The directory of a split whose first episode was cut from segment 7. -/
def earlierSplit : SplitWriter Nat (Nat × Nat) := { files := fun path => if path = videoPath 0 then some (7, 100) else none }

/-- An episode of segment 8, of as many frames, gets the clip of segment 7. -/
theorem earlier_clip_kept : ∃ s, (writerMachine plainTools false).run earlierSplit [.add 8 100, .start 0, .examine 0, .finalize] =
      some s ∧ s.finalized = true ∧ ¬ClipsMatch plainTools s := by
  have hrun : ∃ s, (writerMachine plainTools false).run earlierSplit [.add 8 100, .start 0, .examine 0, .finalize] = some s ∧
      s.finalized = true ∧ s.episodes = [⟨0, 8, 100⟩] ∧ s.files (videoPath 0) = some (7, 100) := ⟨_, rfl, rfl, rfl, rfl⟩
  obtain ⟨s, hs, hfin, hepisodes, hfile⟩ := hrun
  refine ⟨s, hs, hfin, fun h => ?_⟩
  have hclip := (h ⟨0, 8, 100⟩ (hepisodes ▸ List.mem_singleton_self _)).1
  rw [hfile] at hclip
  cases hclip

/-- An episode of another length is cut, beside an episode that is added while the clip is cut. -/
def twoClips : List (WriterStep Nat (Nat × Nat)) :=
  [.add 8 50, .start 0, .examine 0, .torn 0 none, .add 9 100, .start 1, .examine 1, .ffmpeg 1, .ffmpeg 0, .verify 0, .verify 1,
    .finalize]

theorem clip_identity_two : ∃ s, (writerMachine plainTools false).run earlierSplit twoClips = some s ∧
    s.episodes.length = 2 ∧ ClipsMatch plainTools s := by
  have hrun : ∃ s, (writerMachine plainTools false).run earlierSplit twoClips = some s ∧
      s.finalized = true ∧ s.episodes.length = 2 := ⟨_, rfl, rfl, rfl⟩
  obtain ⟨s, hs, hfin, hlen⟩ := hrun
  have hmeets : (writerMachine plainTools false).Meets (OwnClips plainTools false) earlierSplit twoClips := by decide
  exact ⟨s, hs, hlen, clip_identity ⟨_, ⟨rfl, rfl, rfl⟩, Machine.path_of_run hs hmeets⟩ hfin⟩

end HumanoidLab
