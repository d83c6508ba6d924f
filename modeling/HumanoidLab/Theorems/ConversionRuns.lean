import HumanoidLab.Datasets.Production
import Mathlib.Tactic.Common

/-! Runs of the bulk conversion that fail or are killed anywhere. A run that reports no failure leaves every selected
    episode with an artifact of its own identity. An artifact is replaced by deleting the old one and renaming the new
    one; when one of these raises, the handler deletes the new one as well. -/

namespace HumanoidLab
open Filesystem Concurrency

variable {β : Type} (sha : EpisodeContent β → String)

/-- The hash that the manifest records is that of the action. -/
def completeArtifact (d : Folder EpisodeFile (EpisodeContent β)) : Bool :=
  match d.read .manifest, d.read .action with
  | some (.json m), some action => m.outputSha256 = some (sha action)
  | _, _ => false

/-- A complete artifact, made from what a run fixes. -/
def madeBy (run : Conversion) (episode : Nat) (d : Folder EpisodeFile (EpisodeContent β)) : Bool :=
  completeArtifact sha d &&
    match d.read .manifest with
    | some (.json m) =>
      m.source = some (run.source episode) && m.encoderSha256 = some run.encoderSha256 &&
        m.observationConfigSha256 = some run.configSha256 && m.codeBundleSha256 = some run.bundleSha256
    | _ => false

section
variable (fs : Tree EpisodeDir EpisodeFile (EpisodeContent β))

def CompleteAt (dir : EpisodeDir) : Prop := (fs dir).any (completeArtifact sha) = true

/-- Some complete artifact of an episode is present. -/
def Present (e : Nat) : Prop := CompleteAt sha fs (.target e) ∨ ∃ n, CompleteAt sha fs (.temporary e n)

def MadeAt (run : Conversion) (e : Nat) : Prop := (fs (.target e)).any (madeBy sha run e) = true

end

instance (fs : Tree EpisodeDir EpisodeFile (EpisodeContent β)) (dir : EpisodeDir) : Decidable (CompleteAt sha fs dir) :=
  inferInstanceAs (Decidable (_ = true))

/-- When the delete of the old artifact or the rename of the new one raises, the old one is still complete. -/
def SparesOld (s : Production β) (a : ConversionStep β) : Prop :=
  match s.running, a with
  | some (_, .clearing e _ _), .fail => CompleteAt sha s.fs (.target e)
  | some (_, .installing e _ _), .fail => CompleteAt sha s.fs (.target e)
  | _, _ => True

instance (s : Production β) (a : ConversionStep β) : Decidable (SparesOld sha s a) := by
  unfold SparesOld
  split <;> infer_instance

variable {sha} {s t : Production β} {a : ConversionStep β} {fs fs' : Tree EpisodeDir EpisodeFile (EpisodeContent β)}
  {dir : EpisodeDir} {d : Folder EpisodeFile (EpisodeContent β)} {run : Conversion} {e n : Nat}

/-! ### Folders -/

theorem madeBy_complete (h : madeBy sha run e d = true) : completeArtifact sha d = true := (Bool.and_eq_true_iff.mp h).1

theorem incomplete_of_manifest (h : ∀ m, d.read .manifest ≠ some (.json m)) : completeArtifact sha d = false := by
  unfold completeArtifact
  split
  · rename_i m _ hm _
    exact absurd hm (h m)
  · rfl

/-- A folder that has lost a file is no artifact. -/
theorem incomplete_unlink (file : EpisodeFile) : completeArtifact sha (d.unlink file) = false := by
  unfold completeArtifact
  cases file <;> simp

theorem CompleteAt.of_eq (h : CompleteAt sha fs dir) (heq : fs' dir = fs dir) : CompleteAt sha fs' dir := by
  rw [CompleteAt, heq]
  exact h

theorem not_completeAt (hd : d ∈ fs dir) (hm : ∀ m, d.read .manifest ≠ some (.json m)) : ¬CompleteAt sha fs dir := by
  have hfs : fs dir = some d := hd
  simp [CompleteAt, hfs, incomplete_of_manifest hm]

theorem completeAt_of_made (hd : d ∈ fs dir) (hm : madeBy sha run e d = true) : CompleteAt sha fs dir := by
  have hfs : fs dir = some d := hd
  simp [CompleteAt, hfs, madeBy_complete hm]

theorem madeBy_manifest (run : Conversion) (e : Nat) {action : β} (frames : Nat × Nat)
    (ha : d.read .action = some (.bytes action)) :
    madeBy sha run e (d.write .manifest (.json (run.manifest sha e action frames))) = true := by
  have haction : (d.write .manifest (.json (run.manifest sha e action frames))).read .action = some (.bytes action) :=
    (Folder.read_write_other (by decide)).trans ha
  simp only [madeBy, completeArtifact, Folder.read_write_self, haction]
  simp [Conversion.manifest]

theorem skips_made (h : skips sha run e fs = true) : MadeAt sha fs run e := by
  obtain ⟨-, h⟩ := Bool.and_eq_true_iff.mp h
  unfold MadeAt
  rw [Option.any_eq_true_iff_get] at h ⊢
  obtain ⟨hsome, h⟩ := h
  refine ⟨hsome, ?_⟩
  split at h
  · rename_i m hm
    simp only [compatible, Bool.and_eq_true, decide_eq_true_eq, Option.any_eq_true] at h
    obtain ⟨⟨⟨⟨⟨⟨-, hsource⟩, hencoder⟩, hconfig⟩, hbundle⟩, action, haction, hsha⟩, -⟩ := h
    simp [madeBy, completeArtifact, hm, haction, hsource, hencoder, hconfig, hbundle, hsha]
  · cases h

/-- A folder that changes matters for an episode only where it is complete, and one of its folders. -/
theorem Present.change (h : Present sha fs e) (hfs : ∀ dir', dir' ≠ dir → fs' dir' = fs dir')
    (hdir : CompleteAt sha fs dir → (dir = .target e ∨ ∃ n, dir = .temporary e n) → Present sha fs' e) : Present sha fs' e := by
  rcases h with h | ⟨n, h⟩
  · by_cases hd : EpisodeDir.target e = dir
    · exact hdir (hd ▸ h) (Or.inl hd.symm)
    · refine Or.inl ?_
      rw [CompleteAt, hfs _ hd]
      exact h
  · by_cases hd : EpisodeDir.temporary e n = dir
    · exact hdir (hd ▸ h) (Or.inr ⟨n, hd.symm⟩)
    · refine Or.inr ⟨n, ?_⟩
      rw [CompleteAt, hfs _ hd]
      exact h

/-! ### What a step does -/

/-- The episode and the temporary folder that a stage works with, unless it is deleting that folder. -/
def ConversionStage.builds : ConversionStage β → Option (Nat × Nat)
  | .writing e n _ | .signing e n _ _ _ | .clearing e n _ | .installing e n _ | .installed e n _ => some (e, n)
  | .selecting _ | .discarding _ _ _ => none

inductive ProductionMoves (sha : EpisodeContent β → String) (s : Production β) (a : ConversionStep β) : Production β → Prop
  | start (run : Conversion) (hr : s.running = none) :
      ProductionMoves sha s a { s with running := some (run, .selecting run.selection), failures := [], reported := none }
  | finish {run : Conversion} (hr : s.running = some (run, .selecting [])) :
      ProductionMoves sha s a { s with running := none, reported := if s.failures = [] then some run else none }
  | skip {run : Conversion} {e : Nat} {left : List Nat} (hr : s.running = some (run, .selecting (e :: left)))
      (hskip : skips sha run e s.fs = true) : ProductionMoves sha s a { s with running := some (run, .selecting left) }
  | mkdtemp {run : Conversion} {e n : Nat} {left : List Nat} (hr : s.running = some (run, .selecting (e :: left)))
      (hnew : s.fs (.temporary e n) = none) :
      ProductionMoves sha s a { s with fs := s.fs.make (.temporary e n), running := some (run, .writing e n left) }
  | tear {run : Conversion} {e n : Nat} {left : List Nat} {b : β} (hr : s.running = some (run, .writing e n left)) :
      ProductionMoves sha s a { s with fs := s.fs.edit (.temporary e n) (·.write .action (.bytes b)) }
  | savez {run : Conversion} {e n : Nat} {left : List Nat} {action : β} {frames : Nat × Nat}
      (hr : s.running = some (run, .writing e n left)) :
      ProductionMoves sha s a { s with
        fs := s.fs.edit (.temporary e n) (·.write .action (.bytes action))
        running := some (run, .signing e n action frames left) }
  | tearManifest {run : Conversion} {e n : Nat} {left : List Nat} {action b : β} {frames : Nat × Nat}
      (hr : s.running = some (run, .signing e n action frames left)) :
      ProductionMoves sha s a { s with fs := s.fs.edit (.temporary e n) (·.write .manifest (.bytes b)) }
  | sign {run : Conversion} {e n : Nat} {left : List Nat} {action : β} {frames : Nat × Nat}
      (hr : s.running = some (run, .signing e n action frames left)) :
      ProductionMoves sha s a { s with
        fs := s.fs.edit (.temporary e n) (·.write .manifest (.json (run.manifest sha e action frames)))
        running := some (run, .clearing e n left) }
  | clear {run : Conversion} {e n : Nat} {left : List Nat} {fs : Tree EpisodeDir EpisodeFile (EpisodeContent β)}
      (hr : s.running = some (run, .clearing e n left)) (hfs : ∀ dir, dir ≠ .target e → fs dir = s.fs dir) :
      ProductionMoves sha s a { s with fs := fs }
  | cleared {run : Conversion} {e n : Nat} {left : List Nat} (hr : s.running = some (run, .clearing e n left)) :
      ProductionMoves sha s a { s with running := some (run, .installing e n left) }
  | install {run : Conversion} {e n : Nat} {left : List Nat} (hr : s.running = some (run, .installing e n left)) :
      ProductionMoves sha s a { s with
        fs := s.fs.rename (.temporary e n) (.target e)
        running := some (run, .installed e n left) }
  | done {run : Conversion} {e n : Nat} {left : List Nat} (hr : s.running = some (run, .installed e n left)) :
      ProductionMoves sha s a { s with running := some (run, .selecting left) }
  | fail {run : Conversion} {e n : Nat} {left : List Nat} {stage : ConversionStage β} (hr : s.running = some (run, stage))
      (hbuilds : stage.builds = some (e, n)) (hleft : stage.left = e :: left) (ha : a = .fail) :
      ProductionMoves sha s a { s with running := some (run, .discarding e n left) }
  | discard {run : Conversion} {e n : Nat} {left : List Nat} {fs : Tree EpisodeDir EpisodeFile (EpisodeContent β)}
      (hr : s.running = some (run, .discarding e n left)) (hfs : ∀ dir, dir ≠ .temporary e n → fs dir = s.fs dir)
      (hnew : ¬CompleteAt sha fs (.temporary e n)) : ProductionMoves sha s a { s with fs := fs }
  | failed {run : Conversion} {e n : Nat} {left : List Nat} (hr : s.running = some (run, .discarding e n left)) :
      ProductionMoves sha s a { s with running := some (run, .selecting left), failures := e :: s.failures }
  | kill : ProductionMoves sha s a { s with running := none, reported := none }

theorem production_moves (hstep : s.step sha a = some t) : ProductionMoves sha s a t := by
  unfold Production.step at hstep
  split at hstep
  case h_1 run hr =>
    cases hstep
    exact .start run hr
  case h_2 hr =>
    cases hstep
    exact .finish hr
  case h_3 hr =>
    obtain ⟨hskip, ⟨⟩⟩ := Option.ite_none_right_eq_some.mp hstep
    exact .skip hr hskip
  case h_4 hr =>
    obtain ⟨hnew, ⟨⟩⟩ := Option.ite_none_right_eq_some.mp hstep
    exact .mkdtemp hr (Option.isNone_iff_eq_none.mp (Bool.and_eq_true_iff.mp hnew).2)
  case h_5 hr =>
    cases hstep
    exact .tear hr
  case h_6 hr =>
    cases hstep
    exact .savez hr
  case h_7 hr =>
    cases hstep
    exact .tearManifest hr
  case h_8 hr =>
    cases hstep
    exact .sign hr
  case h_9 hr =>
    cases hstep
    exact .clear hr fun dir hd => Tree.edit_other hd
  case h_10 hr =>
    cases hstep
    exact .clear hr fun dir hd => Tree.remove_other hd
  case h_11 hr =>
    obtain ⟨-, ⟨⟩⟩ := Option.ite_none_right_eq_some.mp hstep
    exact .cleared hr
  case h_12 hr =>
    obtain ⟨-, ⟨⟩⟩ := Option.ite_none_right_eq_some.mp hstep
    exact .install hr
  case h_13 hr =>
    cases hstep
    exact .done hr
  case h_19 hr =>
    cases hstep
    refine .discard hr (fun dir hd => Tree.edit_other hd) ?_
    rw [CompleteAt, Tree.edit_apply, if_pos rfl]
    cases s.fs _ <;> simp [incomplete_unlink]
  case h_20 hr =>
    cases hstep
    exact .discard hr (fun dir hd => Tree.remove_other hd) (by simp [CompleteAt, Tree.remove_apply])
  case h_21 hr =>
    cases hstep
    exact .failed hr
  case h_22 hr =>
    cases hstep
    exact .kill
  case h_23 => cases hstep
  all_goals
    rename_i hr
    cases hstep
    exact .fail hr rfl rfl rfl

/-! ### What a stage knows -/

/-- What is known of the folders at a stage. -/
def AtStage (sha : EpisodeContent β → String) (fs : Tree EpisodeDir EpisodeFile (EpisodeContent β)) (run : Conversion) :
    ConversionStage β → Prop
  | .writing e n _ => ∃ d ∈ fs (.temporary e n), d.read .manifest = none
  | .signing e n action _ _ => ∃ d ∈ fs (.temporary e n), d.read .action = some (.bytes action) ∧
      ∀ m, d.read .manifest ≠ some (.json m)
  | .clearing e n _ => ∃ d ∈ fs (.temporary e n), madeBy sha run e d = true
  | .installing e n _ => ∃ d ∈ fs (.temporary e n), madeBy sha run e d = true
  | .installed e n _ => MadeAt sha fs run e ∧ fs (.temporary e n) = none
  | .selecting _ | .discarding _ _ _ => True

def StageKnown (sha : EpisodeContent β → String) (s : Production β) : Prop :=
  ∀ run stage, s.running = some (run, stage) → AtStage sha s.fs run stage

theorem StageKnown.step (h : StageKnown sha s) (hm : ProductionMoves sha s a t) : StageKnown sha t := by
  intro run' stage' hr'
  cases hm with
  | start run hr =>
    cases hr'
    trivial
  | finish hr => cases hr'
  | skip hr hskip =>
    cases hr'
    trivial
  | mkdtemp hr hnew =>
    cases hr'
    exact ⟨[], by simp [Tree.make_apply, hnew], rfl⟩
  | tear hr =>
    cases hr.symm.trans hr'
    obtain ⟨d, hd, hm⟩ := h _ _ hr
    exact ⟨_, Tree.edit_self hd, (Folder.read_write_other (by decide)).trans hm⟩
  | savez hr =>
    cases hr'
    obtain ⟨d, hd, hm⟩ := h _ _ hr
    refine ⟨_, Tree.edit_self hd, Folder.read_write_self, fun m hm' => ?_⟩
    rw [Folder.read_write_other (by decide), hm] at hm'
    cases hm'
  | tearManifest hr =>
    cases hr.symm.trans hr'
    obtain ⟨d, hd, ha, hm⟩ := h _ _ hr
    refine ⟨_, Tree.edit_self hd, (Folder.read_write_other (by decide)).trans ha, fun m hm' => ?_⟩
    rw [Folder.read_write_self] at hm'
    cases hm'
  | sign hr =>
    cases hr'
    obtain ⟨d, hd, ha, hm⟩ := h _ _ hr
    exact ⟨_, Tree.edit_self hd, madeBy_manifest _ _ _ ha⟩
  | clear hr hfs =>
    cases hr.symm.trans hr'
    obtain ⟨d, hd, hm⟩ := h _ _ hr
    exact ⟨d, (hfs _ (by simp)).trans hd, hm⟩
  | cleared hr =>
    cases hr'
    obtain ⟨d, hd, hm⟩ := h _ _ hr
    exact ⟨d, hd, hm⟩
  | @install run e n left hr =>
    cases hr'
    obtain ⟨d, hd, hm⟩ := h _ _ hr
    have htarget : s.fs.rename (.temporary e n) (.target e) (.target e) = some d := by
      rw [Tree.rename_apply, if_pos rfl]
      exact hd
    refine ⟨?_, by simp [Tree.rename_apply]⟩
    show (s.fs.rename _ _ _).any _ = true
    rw [htarget]
    exact hm
  | done hr =>
    cases hr'
    trivial
  | fail hr hbuilds hleft ha =>
    cases hr'
    trivial
  | discard hr hfs hnew =>
    cases hr.symm.trans hr'
    trivial
  | failed hr =>
    cases hr'
    trivial
  | kill => cases hr'

/-! ### Artifacts stay present -/

/-- A temporary folder that is deleted is no artifact, or the old artifact is complete. -/
def Spared (sha : EpisodeContent β → String) (s : Production β) : Prop :=
  ∀ run e n left, s.running = some (run, .discarding e n left) → CompleteAt sha s.fs (.temporary e n) →
    CompleteAt sha s.fs (.target e)

/-- An action without a manifest is no artifact. -/
theorem StageKnown.unsigned (h : StageKnown sha s) {stage : ConversionStage β} (hr : s.running = some (run, stage)) {left : List Nat}
    (hstage : stage = .writing e n left ∨ ∃ action frames, stage = .signing e n action frames left) :
    ¬CompleteAt sha s.fs (.temporary e n) := by
  have hk := h _ _ hr
  rcases hstage with rfl | ⟨action, frames, rfl⟩
  · obtain ⟨d, hd, hm⟩ := hk
    exact not_completeAt hd (by simp [hm])
  · obtain ⟨d, hd, -, hm⟩ := hk
    exact not_completeAt hd hm

theorem spared_step (hk : StageKnown sha s) (ha : SparesOld sha s a) (hm : ProductionMoves sha s a t) : Spared sha t := by
  intro run' e' n' left' hr' hc
  cases hm with
  | @fail run e n left stage hr hbuilds hleft hfail =>
    subst hfail
    cases hr'
    have hstage := hk _ _ hr
    unfold SparesOld at ha
    rw [hr] at ha
    cases stage with
    | selecting => cases hbuilds
    | discarding => cases hbuilds
    | writing =>
      cases hbuilds
      exact absurd hc (hk.unsigned hr (Or.inl rfl))
    | signing =>
      cases hbuilds
      exact absurd hc (hk.unsigned hr (Or.inr ⟨_, _, rfl⟩))
    | clearing =>
      cases hbuilds
      exact ha
    | installing =>
      cases hbuilds
      exact ha
    | installed =>
      cases hbuilds
      rw [CompleteAt, hstage.2] at hc
      cases hc
  | discard hr hfs hnew =>
    cases hr.symm.trans hr'
    exact absurd hc hnew
  | start | finish | skip | mkdtemp | savez | sign | cleared | install | done | failed | kill => cases hr'
  | tear hr => cases hr.symm.trans hr'
  | tearManifest hr => cases hr.symm.trans hr'
  | clear hr => cases hr.symm.trans hr'

/-- What a step deletes, it has in another folder. -/
theorem Present.step (h : Present sha s.fs e) (hk : StageKnown sha s) (hs : Spared sha s) (hm : ProductionMoves sha s a t) :
    Present sha t.fs e := by
  cases hm with
  | start | finish | skip | cleared | done | fail | failed | kill => exact h
  | @mkdtemp run e' n left hr hnew =>
    have hkeep : ∀ dir, dir ≠ .temporary e' n → (s.fs.make (.temporary e' n)) dir = s.fs dir := fun dir hd => Tree.make_other hd
    refine h.change hkeep fun hc => ?_
    rw [CompleteAt, hnew] at hc
    cases hc
  | tear hr => exact h.change (fun dir hd => Tree.edit_other hd) fun hc => absurd hc (hk.unsigned hr (Or.inl rfl))
  | savez hr => exact h.change (fun dir hd => Tree.edit_other hd) fun hc => absurd hc (hk.unsigned hr (Or.inl rfl))
  | tearManifest hr =>
    exact h.change (fun dir hd => Tree.edit_other hd) fun hc => absurd hc (hk.unsigned hr (Or.inr ⟨_, _, rfl⟩))
  | sign hr => exact h.change (fun dir hd => Tree.edit_other hd) fun hc => absurd hc (hk.unsigned hr (Or.inr ⟨_, _, rfl⟩))
  | @clear run e' n left fs hr hfs =>
    obtain ⟨d, hd, hm⟩ := hk _ _ hr
    refine h.change hfs fun _ hdir => Or.inr ⟨n, ?_⟩
    obtain rfl : e' = e := by simpa using hdir
    exact (completeAt_of_made hd hm).of_eq (hfs _ (by simp))
  | @install run e' n left hr =>
    obtain ⟨d, hd, hm⟩ := hk _ _ hr
    have htarget : s.fs.rename (.temporary e' n) (.target e') (.target e') = s.fs (.temporary e' n) := by
      simp [Tree.rename_apply]
    by_cases he : e' = e
    · subst he
      exact Or.inl (completeAt_of_made (htarget.trans hd) hm)
    · have hother : ∀ {dir}, dir = .target e ∨ (∃ m, dir = .temporary e m) →
          s.fs.rename (.temporary e' n) (.target e') dir = s.fs dir := by
        rintro dir (rfl | ⟨m, rfl⟩) <;> simp [Tree.rename_apply, Ne.symm he]
      rcases h with h | ⟨m, h⟩
      · exact Or.inl (h.of_eq (hother (Or.inl rfl)))
      · exact Or.inr ⟨m, h.of_eq (hother (Or.inr ⟨m, rfl⟩))⟩
  | @discard run e' n left fs hr hfs hnew =>
    refine h.change hfs fun hc hdir => Or.inl ?_
    obtain rfl : e' = e := by simpa using hdir
    exact (hs _ _ _ _ hr hc).of_eq (hfs _ (by simp))

/-! ### A run that reports no failure -/

/-- The episodes that a run has settled: each has failed, or has an artifact of the run. -/
structure Settled (sha : EpisodeContent β → String) (s : Production β) : Prop where
  running : ∀ run stage, s.running = some (run, stage) → ∃ settled, run.selection = settled ++ stage.left ∧
    ∀ e ∈ settled, e ∈ s.failures ∨ MadeAt sha s.fs run e
  reported : ∀ run, s.reported = some run → s.running = none ∧ ∀ e ∈ run.selection, MadeAt sha s.fs run e

section
variable {stage stage' : ConversionStage β} {left : List Nat}

/-- A step at an episode that is not settled. -/
theorem Settled.keep (h : Settled sha s) (hr : s.running = some (run, stage)) (hleft : stage.left = e :: left)
    (hr' : t.running = some (run, stage')) (hleft' : stage'.left = stage.left) (hfailures : t.failures = s.failures)
    (hreported : t.reported = s.reported) (hfs : ∀ e', e' ≠ e → t.fs (.target e') = s.fs (.target e')) : Settled sha t where
  running run₁ stage₁ hr₁ := by
    cases hr'.symm.trans hr₁
    obtain ⟨settled, hsel, hs⟩ := h.running _ _ hr
    refine ⟨settled, hleft'.symm ▸ hsel, fun e' he' => ?_⟩
    have hnodup := run.nodup
    rw [hsel, hleft, List.nodup_append] at hnodup
    rw [hfailures, MadeAt, hfs e' (hnodup.2.2 e' he' e List.mem_cons_self)]
    exact hs e' he'
  reported run₁ hr₁ := by cases hr.symm.trans (h.reported run₁ (hreported ▸ hr₁)).1

/-- A step that settles its episode. -/
theorem Settled.settle (h : Settled sha s) (hr : s.running = some (run, stage)) (hleft : stage.left = e :: left)
    (hr' : t.running = some (run, .selecting left)) (hfs : t.fs = s.fs) (hfailures : s.failures ⊆ t.failures)
    (hreported : t.reported = s.reported) (he : e ∈ t.failures ∨ MadeAt sha s.fs run e) : Settled sha t where
  running run₁ stage₁ hr₁ := by
    cases hr'.symm.trans hr₁
    obtain ⟨settled, hsel, hs⟩ := h.running _ _ hr
    refine ⟨settled ++ [e], ?_, fun e' he' => ?_⟩
    · rw [hsel, hleft, List.append_assoc]
      rfl
    · rw [hfs]
      rcases List.mem_append.mp he' with he' | he'
      · exact (hs e' he').imp_left (hfailures ·)
      · rw [List.mem_singleton.mp he']
        exact he
  reported run₁ hr₁ := by cases hr.symm.trans (h.reported run₁ (hreported ▸ hr₁)).1

end

theorem Settled.step (h : Settled sha s) (hk : StageKnown sha s) (hm : ProductionMoves sha s a t) : Settled sha t := by
  cases hm with
  | start run hr =>
    refine ⟨fun run₁ stage₁ hr₁ => ?_, fun run₁ hr₁ => ?_⟩
    · cases hr₁
      exact ⟨[], rfl, by simp⟩
    · cases hr₁
  | @finish run hr =>
    refine ⟨fun run₁ stage₁ hr₁ => ?_, fun run₁ hr₁ => ⟨rfl, ?_⟩⟩
    · cases hr₁
    · obtain ⟨hnone, ⟨⟩⟩ := Option.ite_none_right_eq_some.mp hr₁
      obtain ⟨settled, hsel, hs⟩ := h.running _ _ hr
      obtain rfl : run.selection = settled := hsel.trans (List.append_nil _)
      intro e he
      exact (hs e he).resolve_left (by simp [hnone])
  | skip hr hskip => exact h.settle hr rfl rfl rfl (List.Subset.refl _) rfl (Or.inr (skips_made hskip))
  | @mkdtemp run e n left hr hnew =>
    exact h.keep hr rfl rfl rfl rfl rfl fun e' _ => Tree.make_other (show EpisodeDir.target e' ≠ .temporary e n by simp)
  | tear hr => exact h.keep hr rfl hr rfl rfl rfl fun _ _ => by simp [Tree.edit_apply]
  | savez hr => exact h.keep hr rfl rfl rfl rfl rfl fun _ _ => by simp [Tree.edit_apply]
  | tearManifest hr => exact h.keep hr rfl hr rfl rfl rfl fun _ _ => by simp [Tree.edit_apply]
  | sign hr => exact h.keep hr rfl rfl rfl rfl rfl fun _ _ => by simp [Tree.edit_apply]
  | clear hr hfs => exact h.keep hr rfl hr rfl rfl rfl fun e' he => hfs _ (by simpa using he)
  | cleared hr => exact h.keep hr rfl rfl rfl rfl rfl fun _ _ => rfl
  | install hr =>
    refine h.keep hr rfl rfl rfl rfl rfl fun e' he => ?_
    simp [Tree.rename_apply, he]
  | done hr => exact h.settle hr rfl rfl rfl (List.Subset.refl _) rfl (Or.inr (hk _ _ hr).1)
  | fail hr hbuilds hleft ha => exact h.keep hr hleft rfl hleft.symm rfl rfl fun _ _ => rfl
  | discard hr hfs hnew => exact h.keep hr rfl hr rfl rfl rfl fun _ _ => hfs _ (by simp)
  | failed hr => exact h.settle hr rfl rfl rfl (List.subset_cons_self _ _) rfl (Or.inl List.mem_cons_self)
  | kill =>
    refine ⟨fun run₁ stage₁ hr₁ => ?_, fun run₁ hr₁ => ?_⟩
    · cases hr₁
    · cases hr₁

/-! ### Every run -/

theorem settled_reach {C : Production β → ConversionStep β → Prop} (h : (productionMachine sha).Reach C s) :
    StageKnown sha s ∧ Settled sha s := by
  refine h.invariant (I := fun s => StageKnown sha s ∧ Settled sha s) ?_ ?_
  · rintro s ⟨hr, hreported⟩
    refine ⟨fun run stage h => ?_, fun run stage h => ?_, fun run h => ?_⟩
    · cases hr.symm.trans h
    · cases hr.symm.trans h
    · cases hreported.symm.trans h
  · intro s a t _ ⟨hk, hs⟩ _ hstep
    exact ⟨hk.step (production_moves hstep), hs.step hk (production_moves hstep)⟩

theorem spared_reach (h : (productionMachine sha).Reach (SparesOld sha) s) : Spared sha s := by
  refine h.invariant ?_ fun s a t hr _ ha hstep => spared_step (settled_reach hr).1 ha (production_moves hstep)
  rintro s ⟨hr, -⟩ run e n left h
  cases hr.symm.trans h

/-- In runs that fail only while the old artifact is complete, an episode that has a complete artifact keeps one. After
    any run that has reported no failure, every selected episode has an artifact of that run. -/
theorem conversion_runs (sha : EpisodeContent β → String) :
    (∀ s t e, (productionMachine sha).Reach (SparesOld sha) s → (productionMachine sha).Path (SparesOld sha) s t →
      Present sha s.fs e → Present sha t.fs e) ∧
    ∀ s run, (productionMachine sha).Reach Machine.Free s → s.reported = some run → ∀ e ∈ run.selection, MadeAt sha s.fs run e := by
  refine ⟨fun s t e h hpath hp => ?_, fun s run h hr => ((settled_reach h).2.reported run hr).2⟩
  refine hpath.keeps (I := fun s => Present sha s.fs e) hp fun t a u hpath hp _ hstep => ?_
  have hreach := h.path hpath
  exact hp.step (settled_reach hreach).1 (spared_reach hreach) (production_moves hstep)

/-! ### An artifact that is lost, and one that is replaced -/

def smallSha : EpisodeContent Nat → String
  | .bytes 0 => "zero"
  | .bytes _ => "more"
  | .json _ => "manifest"

/-- A run over one episode. -/
def smallRun (bundle : String) : Conversion where
  selection := [0]
  nodup := selectEpisodes_nodup (show selectEpisodes 1 ⟨none, []⟩ = some [0] from rfl)
  force := false
  source e := ⟨"collection", e, "data/chunk-000/file-000.parquet", "data", 0, 10⟩
  encoderSha256 := "encoder"
  configSha256 := "config"
  bundleSha256 := bundle

/-- The steps of a run up to its rename, where the old artifact is deleted when there is one. -/
def upToRename (bundle : String) (n : Nat) : List (ConversionStep Nat) :=
  [.start (smallRun bundle), .mkdtemp n, .savez n (10, 9), .next, .remove, .next]

def firstRun : List (ConversionStep Nat) := upToRename "old" 0 ++ [.next, .next, .finish]

def emptyOutput : Production Nat := { fs := fun _ => none }

/-- A run of a later converter whose rename raises. -/
def failedRun : List (ConversionStep Nat) := upToRename "new" 1 ++ [.fail, .remove, .next, .finish]

/-- The failed run leaves no folder of the episode. -/
theorem failedRun_folders : ∃ s, (productionMachine smallSha).run emptyOutput (firstRun ++ failedRun) = some s ∧
    s.fs (.target 0) = none ∧ ∀ n, s.fs (.temporary 0 n) = none := by
  refine ⟨_, rfl, by decide, fun n => ?_⟩
  show Tree.remove (EpisodeDir.temporary 0 1) (Tree.remove (EpisodeDir.target 0) (Tree.edit (EpisodeDir.temporary 0 1) _
    (Tree.edit (EpisodeDir.temporary 0 1) _ (Tree.make (EpisodeDir.temporary 0 1)
      (Tree.rename (EpisodeDir.temporary 0 0) (EpisodeDir.target 0) (Tree.remove (EpisodeDir.target 0)
        (Tree.edit (EpisodeDir.temporary 0 0) _ (Tree.edit (EpisodeDir.temporary 0 0) _
          (Tree.make (EpisodeDir.temporary 0 0) fun _ => none))))))))) (EpisodeDir.temporary 0 n) = none
  simp only [Tree.remove_apply, Tree.edit_apply, Tree.make_apply, Tree.rename_apply]
  split_ifs <;> simp_all

def afterFirstRun : Production Nat := ((productionMachine smallSha).run emptyOutput firstRun).getD emptyOutput

/-- The first run leaves an artifact, and the second none, in the folder of the episode or beside it. -/
theorem replaced_artifact_lost :
    (productionMachine smallSha).run emptyOutput firstRun = some afterFirstRun ∧ Present smallSha afterFirstRun.fs 0 ∧
    ∃ s, (productionMachine smallSha).run emptyOutput (firstRun ++ failedRun) = some s ∧ ¬Present smallSha s.fs 0 := by
  obtain ⟨s, hs, htarget, htemporary⟩ := failedRun_folders
  refine ⟨rfl, Or.inl (by decide), s, hs, ?_⟩
  rintro (h | ⟨n, h⟩)
  · rw [CompleteAt, htarget] at h
    cases h
  · rw [CompleteAt, htemporary] at h
    cases h

/-- A run of a later converter that fails before it deletes the old artifact. -/
def earlyFailure (n : Nat) : List (ConversionStep Nat) := (upToRename "new" n).take 3 ++ [.fail, .remove, .next, .finish]

/-- A later converter whose first run fails, whose second is killed while it deletes the old artifact, and whose third goes through. -/
def laterRuns : List (ConversionStep Nat) :=
  earlyFailure 1 ++ (upToRename "new" 2).take 4 ++ [.unlink .manifest, .kill] ++ upToRename "new" 3 ++ [.next, .next, .finish]

theorem conversion_runs_later : ∃ t, (productionMachine smallSha).run afterFirstRun laterRuns = some t ∧
    Present smallSha t.fs 0 ∧ ∀ e ∈ (smallRun "new").selection, MadeAt smallSha t.fs (smallRun "new") e := by
  have hs : (productionMachine smallSha).run emptyOutput firstRun = some afterFirstRun := rfl
  obtain ⟨t, ht, hreported⟩ : ∃ t, (productionMachine smallSha).run afterFirstRun laterRuns = some t ∧
      t.reported = some (smallRun "new") := ⟨_, rfl, rfl⟩
  have hfirst : (productionMachine smallSha).Path (SparesOld smallSha) emptyOutput afterFirstRun :=
    Machine.path_of_run hs (by decide)
  have hlater : (productionMachine smallSha).Path (SparesOld smallSha) afterFirstRun t := Machine.path_of_run ht (by decide)
  have hinit : (productionMachine smallSha).init emptyOutput := ⟨rfl, rfl⟩
  refine ⟨t, ht, (conversion_runs smallSha).1 _ t 0 ⟨_, hinit, hfirst⟩ hlater (Or.inl (by decide)), ?_⟩
  exact (conversion_runs smallSha).2 t _ ⟨_, hinit, (hfirst.trans hlater).mono fun _ _ _ => trivial⟩ hreported

end HumanoidLab
