import HumanoidLab.Bridge.BaseArtifact
import Mathlib.Tactic.Common

/-! The served base artifact over calls that fail or are killed anywhere. The served folder is absent or holds one
    complete artifact, and a swap that takes it away leaves it as the replaced one. A swap that finds only the
    replaced folder deletes it before it installs its own, so this is said of runs in which no such swap is stopped. -/

namespace HumanoidLab
open Filesystem Concurrency

variable {α : Type}

/-! ### Artifacts -/

/-- A folder has what a finished build wrote, and its record, with the fingerprints that were added since. -/
structure HasArtifact (b : BaseBuild α) (d : Folder BaseFile (BaseContent α)) : Prop where
  files : d.Holds b.files
  record : ∃ added : List Refreshed,
    d.read .provenance = some (.record (added.foldr Provenance.recordFingerprints b.record))

def Complete (finished : List (BaseBuild α)) (d : Folder BaseFile (BaseContent α)) : Prop := ∃ b ∈ finished, HasArtifact b d

variable {b : BaseBuild α} {d : Folder BaseFile (BaseContent α)} {finished : List (BaseBuild α)} {p : Provenance α}
  {c : BaseContent α}

theorem BaseBuild.file_ne {e : BaseFile × BaseContent α} (he : e ∈ b.files) : e.1 ≠ .provenance ∧ e.1 ≠ .partialProvenance := by
  unfold files at he
  simp only [List.mem_append, List.mem_cons, List.mem_map, List.not_mem_nil, or_false] at he
  rcases he with ((rfl | rfl) | ⟨c, -, rfl⟩) | rfl <;> simp

theorem BaseBuild.files_nodup (b : BaseBuild α) : (b.files.map (·.1)).Nodup := by
  unfold files
  cases b.pooledCache <;> simp

/-- The file that is written next is none of those that were written. -/
theorem written_ne {written left : List (BaseFile × BaseContent α)} {e : BaseFile × BaseContent α}
    (hb : b.files = written ++ e :: left) : ∀ w ∈ written, w.1 ≠ e.1 := by
  have hnodup := b.files_nodup
  rw [hb, List.map_append, List.nodup_append] at hnodup
  exact fun w hw => hnodup.2.2 w.1 (List.mem_map_of_mem hw) e.1 (by simp)

/-- The partial record is no file of an artifact. -/
theorem HasArtifact.congr {d' : Folder BaseFile (BaseContent α)} (h : HasArtifact b d)
    (hd : ∀ f, f ≠ .partialProvenance → d'.read f = d.read f) : HasArtifact b d' := by
  refine ⟨fun e he => ?_, ?_⟩
  · rw [hd e.1 (BaseBuild.file_ne he).2]
    exact h.files e he
  · rw [hd _ (by decide)]
    exact h.record

theorem HasArtifact.write_partial (h : HasArtifact b d) : HasArtifact b (d.write .partialProvenance c) :=
  h.congr fun _ hf => Folder.read_write_other hf

theorem HasArtifact.unlink_partial (h : HasArtifact b d) : HasArtifact b (d.unlink .partialProvenance) :=
  h.congr fun _ hf => Folder.read_unlink_other hf

theorem HasArtifact.refresh (h : HasArtifact b d) (hp : d.read .provenance = some (.record p)) (refreshed : Refreshed) :
    HasArtifact b ((d.write .provenance (.record (p.recordFingerprints refreshed))).unlink .partialProvenance) := by
  refine HasArtifact.unlink_partial ⟨h.files.write fun _ he => (BaseBuild.file_ne he).1, ?_⟩
  obtain ⟨added, hadded⟩ := h.record
  obtain rfl : p = _ := by simpa using hp.symm.trans hadded
  exact ⟨refreshed :: added, Folder.read_write_self⟩

/-- A build that has its files signs them. -/
theorem HasArtifact.sign (h : d.Holds b.files) :
    HasArtifact b ((d.write .provenance (.record b.record)).unlink .partialProvenance) :=
  HasArtifact.unlink_partial ⟨h.write fun _ he => (BaseBuild.file_ne he).1, [], Folder.read_write_self⟩

theorem Complete.mono (h : Complete finished d) : Complete (b :: finished) d := by
  obtain ⟨b', hb, ha⟩ := h
  exact ⟨b', List.mem_cons_of_mem _ hb, ha⟩

/-! ### The invariant -/

/-- No step stops a swap that found only the replaced folder. -/
def Uninterrupted (s : Materializer α) : BaseStep α → Prop
  | .kill | .fail => s.phase.lone = false
  | _ => True

instance (s : Materializer α) (a : BaseStep α) : Decidable (Uninterrupted s a) := by
  cases a <;> unfold Uninterrupted <;> infer_instance

/-- The temporary folder of the call holds a complete artifact. -/
def Built (s : Materializer α) : Prop := ∃ d ∈ s.fs (.temp s.pid), Complete s.finished d

/-- What is known at a phase of the call. -/
def AtPhase (s : Materializer α) : BasePhase α → Prop
  | .recording p => ∃ d ∈ s.fs .served, ∃ p' refreshed, d.read .provenance = some (.record p') ∧
      p = p'.recordFingerprints refreshed
  | .building b left => ∃ written, b.files = written ++ left ∧ ∃ d ∈ s.fs (.temp s.pid), d.Holds written
  | .signing b => ∃ d ∈ s.fs (.temp s.pid), d.Holds b.files
  | .clearing lone | .displacing lone =>
    Built s ∧ if lone = true then s.fs .served = none else s.fs .served = none → s.fs .replaced = none
  | .installing _ => Built s ∧ s.fs .served = none
  | .restoring => s.fs .served = none
  | .reclaiming => (s.fs .served).isSome = true
  | .idle | .checking | .cleaning _ | .discarding => True

/-- What covers the folders while calls run, as long as no swap that found only the replaced folder is stopped. -/
structure Covered (s : Materializer α) : Prop where
  served : ∀ d ∈ s.fs .served, Complete s.finished d
  replaced : s.fs .served = none → s.phase.lone = false → ∀ d ∈ s.fs .replaced, Complete s.finished d
  held : s.succeeded = true → s.fs .served = none → (s.fs .replaced).isSome = true ∨ s.phase.lone = true
  phase : AtPhase s s.phase

variable {s t : Materializer α} {dir : BaseDir} {file : BaseFile} {lone : Bool}

/-- The folder of the call is none of the two that the invariant speaks of. -/
theorem Covered.congr (h : Covered s) {phase : BasePhase α} (hfs : ∀ dir, (∀ pid, dir ≠ .temp pid) → t.fs dir = s.fs dir)
    (hfinished : t.finished = s.finished) (hlone : t.phase.lone = s.phase.lone) (hsucceeded : t.succeeded = s.succeeded)
    (hp : t.phase = phase) (hphase : AtPhase t phase) : Covered t := by
  have hserved : t.fs .served = s.fs .served := hfs _ (by simp)
  have hreplaced : t.fs .replaced = s.fs .replaced := hfs _ (by simp)
  refine ⟨fun d hd => ?_, fun hnone hl d hd => ?_, fun hs hnone => ?_, hp ▸ hphase⟩
  · exact hfinished ▸ h.served d (hserved ▸ hd)
  · exact hfinished ▸ h.replaced (hserved ▸ hnone) (hlone ▸ hl) d (hreplaced ▸ hd)
  · rw [hreplaced, hlone]
    exact h.held (hsucceeded ▸ hs) (hserved ▸ hnone)

/-- What is done to the replaced folder does not matter while an artifact is served. -/
theorem Covered.of_served {d : Folder BaseFile (BaseContent α)} {phase : BasePhase α} (hserved : t.fs .served = some d)
    (hd : Complete t.finished d) (hp : t.phase = phase) (hphase : AtPhase t phase) : Covered t where
  served d' hd' := by
    cases hserved.symm.trans hd'
    exact hd
  replaced hnone := by cases hserved.symm.trans hnone
  held _ hnone := by cases hserved.symm.trans hnone
  phase := hp ▸ hphase

theorem mem_edit {f : Folder BaseFile (BaseContent α) → Folder BaseFile (BaseContent α)} (hd : d ∈ s.fs dir) :
    f d ∈ (s.edit dir f).fs dir := by
  have : s.fs dir = some d := hd
  simp [Materializer.edit, Tree.edit_apply, this]

theorem edit_other {f : Folder BaseFile (BaseContent α) → Folder BaseFile (BaseContent α)} {dir' : BaseDir} (hne : dir' ≠ dir) :
    (s.edit dir f).fs dir' = s.fs dir' := by
  simp [Materializer.edit, Tree.edit_apply, hne]

/-- A recursive delete, of a file or of what is left. -/
theorem Covered.delete (h : Covered s) (hd : s.deletes dir = true) {fs : Tree BaseDir BaseFile (BaseContent α)}
    (hfs : ∀ dir', dir' ≠ dir → fs dir' = s.fs dir') (hnone : s.fs dir = none → fs dir = none) : Covered { s with fs := fs } := by
  have hphase := h.phase
  unfold Materializer.deletes at hd
  split at hd
  · rename_i hp
    exact h.congr (fun _ hd => hfs _ (hd _)) rfl rfl rfl hp trivial
  · rename_i lone hp
    rw [hp] at hphase
    obtain ⟨⟨d, hd, hc⟩, hlone⟩ := hphase
    have hbuilt : Built { s with fs := fs } := ⟨d, (hfs _ (by simp)).trans hd, hc⟩
    have hserved : fs .served = s.fs .served := hfs _ (by simp)
    cases lone with
    | true =>
      have hgone : fs .served = none := hserved.trans hlone
      refine ⟨fun d hd => ?_, fun _ hl => ?_, fun _ _ => Or.inr (congrArg _ hp), ?_⟩
      · cases hgone.symm.trans hd
      · rw [hp] at hl
        cases hl
      · rw [hp]
        exact ⟨hbuilt, hgone⟩
    | false =>
      cases hs : s.fs .served with
      | none =>
        have hr : s.fs .replaced = none := hlone hs
        refine h.congr (fun dir hd => ?_) rfl rfl rfl hp ⟨hbuilt, fun _ => hnone hr⟩
        by_cases hdir : dir = .replaced
        · rw [hdir]
          exact (hnone hr).trans hr.symm
        · exact hfs _ hdir
      | some d =>
        refine .of_served (hserved.trans hs) (h.served d hs) hp ⟨hbuilt, fun hgone => ?_⟩
        cases hs.symm.trans (hserved.symm.trans hgone)
  · rename_i hp
    rw [hp] at hphase
    obtain ⟨d, hs⟩ := Option.isSome_iff_exists.mp hphase
    have hserved : fs .served = some d := (hfs _ (by simp)).trans hs
    exact .of_served hserved (h.served d hs) hp (Option.isSome_of_mem hserved)
  · rename_i hp
    exact h.congr (fun _ hd => hfs _ (hd _)) rfl rfl rfl hp trivial
  · cases hd

theorem Covered.tear (h : Covered s) (hstep : s.tear c = some t) : Covered t := by
  have hphase := h.phase
  unfold Materializer.tear at hstep
  split at hstep
  · rename_i p hp
    cases hstep
    rw [hp] at hphase
    obtain ⟨d, hd, p', refreshed, hread, rfl⟩ := hphase
    obtain ⟨b, hb, ha⟩ := h.served d hd
    refine .of_served (mem_edit hd) ⟨b, hb, ha.write_partial⟩ hp ⟨_, mem_edit hd, p', refreshed, ?_, rfl⟩
    exact (Folder.read_write_other (by decide)).trans hread
  · rename_i b hp
    cases hstep
    rw [hp] at hphase
    obtain ⟨d, hd, hfiles⟩ := hphase
    refine h.congr (fun _ hd => edit_other (hd _)) rfl rfl rfl hp ⟨_, mem_edit hd, ?_⟩
    exact hfiles.write fun _ he => (BaseBuild.file_ne he).2
  · rename_i b e left hp
    cases hstep
    rw [hp] at hphase
    obtain ⟨written, hb, d, hd, hfiles⟩ := hphase
    refine h.congr (fun _ hd => edit_other (hd _)) rfl rfl rfl hp ⟨written, hb, _, mem_edit hd, ?_⟩
    exact hfiles.write (written_ne hb)
  · cases hstep

theorem Covered.advance (h : Covered s) (hstep : s.advance = some t) : Covered t := by
  have hphase := h.phase
  unfold Materializer.advance at hstep
  split at hstep
  · cases hstep
  · cases hstep
  · rename_i p hp
    cases hstep
    rw [hp] at hphase
    obtain ⟨d, hd, p', refreshed, hread, rfl⟩ := hphase
    obtain ⟨b, hb, ha⟩ := h.served d hd
    exact .of_served (mem_edit hd) ⟨b, hb, ha.refresh hread refreshed⟩ rfl trivial
  · rename_i b hp
    cases hstep
    exact h.congr (fun _ hd => Tree.make_apply.trans (if_neg (hd _))) rfl (by rw [hp]; rfl) rfl rfl
      ⟨[], rfl, _, Tree.make_apply.trans (if_pos rfl), Folder.Holds.nil⟩
  · rename_i b e left hp
    cases hstep
    rw [hp] at hphase
    obtain ⟨written, hb, d, hd, hfiles⟩ := hphase
    exact h.congr (fun _ hd => edit_other (hd _)) rfl (by rw [hp]; rfl) rfl rfl
      ⟨written ++ [e], by simp [hb], _, mem_edit hd, hfiles.snoc (written_ne hb)⟩
  · rename_i b hp
    cases hstep
    rw [hp] at hphase
    obtain ⟨written, hb, d, hd, hfiles⟩ := hphase
    rw [List.append_nil] at hb
    exact h.congr (fun _ _ => rfl) rfl (by rw [hp]; rfl) rfl rfl ⟨d, hd, hb ▸ hfiles⟩
  · -- The build is finished, and the swap begins.
    rename_i b hp
    cases hstep
    rw [hp] at hphase
    obtain ⟨d, hd, hfiles⟩ := hphase
    have hserved : (s.sign (.temp s.pid) b.record).fs .served = s.fs .served := edit_other (by simp)
    have hreplaced : (s.sign (.temp s.pid) b.record).fs .replaced = s.fs .replaced := edit_other (by simp)
    have hl : s.phase.lone = false := by rw [hp]; rfl
    refine ⟨fun d' hd' => (h.served d' (hserved ▸ hd')).mono, fun hnone _ d' hd' => ?_, fun hs hnone => Or.inl ?_, ?_, ?_⟩
    · exact (h.replaced (hserved ▸ hnone) hl d' (hreplaced ▸ hd')).mono
    · rw [hreplaced]
      exact (h.held hs (hserved ▸ hnone)).resolve_right (by rw [hl]; simp)
    · exact ⟨_, mem_edit hd, b, List.mem_cons_self, .sign hfiles⟩
    · dsimp only
      rw [hserved, hreplaced]
      split
      · rename_i hlone
        simpa using (Bool.and_eq_true_iff.mp hlone).1
      · rename_i hlone
        intro hnone
        simpa [hnone] using hlone
  · rename_i lone hp
    cases hstep
    rw [hp] at hphase
    exact h.congr (fun _ _ => rfl) rfl (by rw [hp]; rfl) rfl rfl hphase
  · rename_i lone hp
    rw [hp] at hphase
    obtain ⟨⟨d, hd, hc⟩, hlone⟩ := hphase
    split at hstep
    · rename_i hgone
      cases hstep
      exact h.congr (fun _ _ => rfl) rfl (by rw [hp]; rfl) rfl rfl ⟨⟨d, hd, hc⟩, Option.isNone_iff_eq_none.mp hgone⟩
    · rename_i hsome
      split at hstep
      · -- The served artifact becomes the replaced one.
        cases hstep
        have hserved : (s.fs.rename .served .replaced) .served = none := by simp [Tree.rename_apply]
        have hreplaced : (s.fs.rename .served .replaced) .replaced = s.fs .served := by simp [Tree.rename_apply]
        have htemp : (s.fs.rename .served .replaced) (.temp s.pid) = s.fs (.temp s.pid) := by simp [Tree.rename_apply]
        refine ⟨fun d' hd' => ?_, fun _ _ d' hd' => ?_, fun _ _ => Or.inl ?_, ⟨d, htemp ▸ hd, hc⟩, hserved⟩
        · cases hserved.symm.trans hd'
        · exact h.served d' (hreplaced ▸ hd')
        · exact (congrArg Option.isSome hreplaced).trans (by simpa [Option.isSome_iff_ne_none] using hsome)
      · cases hstep
  · rename_i lone hp
    rw [hp] at hphase
    obtain ⟨⟨d, hd, hc⟩, -⟩ := hphase
    split at hstep
    · cases hstep
      have hserved : (s.fs.rename (.temp s.pid) .served) .served = some d := by
        simpa [Tree.rename_apply] using hd
      exact .of_served hserved hc rfl (Option.isSome_of_mem hserved)
    · cases hstep
  · -- The replaced artifact is served again.
    rename_i hp
    rw [hp] at hphase
    split at hstep
    · cases hstep
      have hserved : (s.fs.rename .replaced .served) .served = s.fs .replaced := by simp [Tree.rename_apply]
      have hl : s.phase.lone = false := by rw [hp]; rfl
      have hreplaced : (s.fs.rename .replaced .served) .replaced = none := by simp [Tree.rename_apply]
      refine ⟨fun d hd => ?_, fun _ _ d hd => ?_, fun hs hnone => ?_, trivial⟩
      · exact h.replaced hphase hl d (hserved ▸ hd)
      · cases hreplaced.symm.trans hd
      · have := (h.held hs hphase).resolve_right (by rw [hl]; simp)
        rw [← hserved, show (s.fs.rename .replaced .served) .served = none from hnone] at this
        cases this
    · cases hstep
  · rename_i hp
    cases hstep
    rw [hp] at hphase
    obtain ⟨d, hd⟩ := Option.isSome_iff_exists.mp hphase
    exact .of_served hd (h.served d hd) rfl trivial
  · rename_i hp
    cases hstep
    exact h.congr (fun _ _ => rfl) rfl (by rw [hp]; rfl) rfl rfl trivial

theorem Covered.raise (h : Covered s) (hlone : s.phase.lone = false) (hstep : s.raise = some t) : Covered t := by
  have hphase := h.phase
  unfold Materializer.raise at hstep
  split at hstep
  · cases hstep
  · cases hstep
    exact h.congr (fun _ _ => rfl) rfl hlone.symm rfl rfl trivial
  · cases hstep
    exact h.congr (fun _ _ => rfl) rfl hlone.symm rfl rfl trivial
  · cases hstep
    exact h.congr (fun _ _ => rfl) rfl hlone.symm rfl rfl trivial
  · rename_i p hp
    cases hstep
    rw [hp] at hphase
    obtain ⟨d, hd, -⟩ := hphase
    obtain ⟨b, hb, ha⟩ := h.served d hd
    exact .of_served (mem_edit hd) ⟨b, hb, ha.unlink_partial⟩ rfl trivial
  · cases hstep
    exact h.congr (fun _ hd => edit_other (hd _)) rfl hlone.symm rfl rfl trivial
  · rename_i lone hp
    cases hstep
    rw [hp] at hphase
    split
    · exact h.congr (fun _ _ => rfl) rfl hlone.symm rfl rfl hphase.2
    · exact h.congr (fun _ _ => rfl) rfl hlone.symm rfl rfl trivial
  all_goals
    cases hstep
    exact h.congr (fun _ _ => rfl) rfl hlone.symm rfl rfl trivial

theorem existing_served (hp : s.existing = some p) : ∃ d ∈ s.fs .served, d.read .provenance = some (.record p) := by
  unfold Materializer.existing at hp
  split at hp
  · cases hp
  · rename_i d hd
    split at hp
    · rename_i hread
      cases hp
      exact ⟨d, hd, hread⟩
    · cases hp

theorem Covered.step (h : Covered s) {a : BaseStep α} (ha : Uninterrupted s a) (hstep : s.step a = some t) : Covered t := by
  cases a with
  | call pid =>
    simp only [Materializer.step] at hstep
    split at hstep
    · rename_i hp
      cases hstep
      exact h.congr (fun _ _ => rfl) rfl (by rw [hp]; rfl) rfl rfl trivial
    · cases hstep
  | reuse =>
    simp only [Materializer.step] at hstep
    split at hstep
    · rename_i he
      cases hstep
      obtain ⟨d, hd, -⟩ := existing_served he
      exact .of_served hd (h.served d hd) rfl trivial
    · cases hstep
  | refresh refreshed =>
    simp only [Materializer.step] at hstep
    split at hstep
    · rename_i p hp he
      cases hstep
      obtain ⟨d, hd, hread⟩ := existing_served he
      exact .of_served hd (h.served d hd) rfl ⟨d, hd, p, refreshed, hread, rfl⟩
    · cases hstep
  | rebuild b =>
    simp only [Materializer.step] at hstep
    split at hstep
    · rename_i hp
      cases hstep
      exact h.congr (fun _ _ => rfl) rfl (by rw [hp]; rfl) rfl rfl trivial
    · cases hstep
  | torn c => exact h.tear hstep
  | unlink dir file =>
    simp only [Materializer.step, Option.ite_none_right_eq_some] at hstep
    obtain ⟨hd, ⟨⟩⟩ := hstep
    exact h.delete hd (fun _ hne => edit_other hne) fun hnone => by simp [Tree.edit_apply, hnone]
  | remove dir =>
    simp only [Materializer.step, Option.ite_none_right_eq_some] at hstep
    obtain ⟨hd, ⟨⟩⟩ := hstep
    exact h.delete hd (fun _ hne => Tree.remove_apply.trans (if_neg hne)) fun _ => Tree.remove_apply.trans (if_pos rfl)
  | next => exact h.advance hstep
  | fail => exact h.raise ha hstep
  | kill =>
    simp only [Materializer.step] at hstep
    split at hstep
    · cases hstep
    · cases hstep
      exact h.congr (fun _ _ => rfl) rfl (show false = _ from Eq.symm ha) rfl rfl trivial

theorem covered_reach (h : (baseMachine α).Reach Uninterrupted s) : Covered s := by
  refine h.invariant ?_ fun s a t _ hs ha hstep => hs.step ha hstep
  rintro s ⟨hserved, hreplaced, hphase, hfinished, hsucceeded⟩
  refine ⟨fun d hd => ?_, fun _ _ d hd => ?_, fun hs => ?_, ?_⟩
  · cases hserved.symm.trans hd
  · cases hreplaced.symm.trans hd
  · cases hsucceeded.symm.trans hs
  · rw [hphase]
    trivial

/-- The served folder is there as long as nothing but its files and other folders change. -/
theorem edit_served {f : Folder BaseFile (BaseContent α) → Folder BaseFile (BaseContent α)} (hd : d ∈ s.fs .served) :
    (s.edit dir f).fs .served ≠ none := by
  have hs : s.fs .served = some d := hd
  simp only [Materializer.edit, Tree.edit_apply]
  split
  · rename_i hdir
    rw [← hdir, hs]
    simp
  · rw [hs]
    simp

theorem deletes_other (hd : s.deletes dir = true) : dir ≠ .served := by
  rintro rfl
  unfold Materializer.deletes at hd
  split at hd <;> simp_all

/-- A step takes the served folder away only by the first rename of a swap. -/
theorem served_taken {a : BaseStep α} (h : Covered s) (hstep : s.step a = some t) (hd : d ∈ s.fs .served)
    (hgone : t.fs .served = none) : t.fs .replaced = some d ∧ ∃ lone, t.phase = .installing lone := by
  have hs : s.fs .served = some d := hd
  have hne : s.fs .served ≠ none := by simp [hs]
  have hphase := h.phase
  cases a with
  | call pid =>
    simp only [Materializer.step] at hstep
    split at hstep <;> cases hstep
    exact absurd hgone hne
  | reuse =>
    simp only [Materializer.step] at hstep
    split at hstep <;> cases hstep
    exact absurd hgone hne
  | refresh refreshed =>
    simp only [Materializer.step] at hstep
    split at hstep <;> cases hstep
    exact absurd hgone hne
  | rebuild b =>
    simp only [Materializer.step] at hstep
    split at hstep <;> cases hstep
    exact absurd hgone hne
  | torn c =>
    simp only [Materializer.step, Materializer.tear] at hstep
    split at hstep <;> cases hstep
    all_goals exact absurd hgone (edit_served hd)
  | unlink dir file =>
    simp only [Materializer.step, Option.ite_none_right_eq_some] at hstep
    obtain ⟨-, ⟨⟩⟩ := hstep
    exact absurd hgone (edit_served hd)
  | remove dir =>
    simp only [Materializer.step, Option.ite_none_right_eq_some] at hstep
    obtain ⟨hdel, ⟨⟩⟩ := hstep
    exact absurd ((Tree.remove_apply.trans (if_neg (deletes_other hdel).symm)).symm.trans hgone) hne
  | next =>
    simp only [Materializer.step, Materializer.advance] at hstep
    split at hstep
    case h_9 lone hp =>
      split at hstep
      · rename_i hnone
        exact absurd (Option.isNone_iff_eq_none.mp hnone) hne
      · split at hstep <;> cases hstep
        exact ⟨by simp [Tree.rename_apply, hs], lone, rfl⟩
    case h_10 lone hp =>
      rw [hp] at hphase
      exact absurd hphase.2 hne
    case h_11 hp =>
      rw [hp] at hphase
      exact absurd hphase hne
    case h_1 => cases hstep
    case h_2 => cases hstep
    case h_4 b hp =>
      cases hstep
      have hother : BaseDir.served ≠ .temp s.pid := by simp
      exact absurd ((Tree.make_apply.trans (if_neg hother)).symm.trans hgone) hne
    all_goals
      cases hstep
      dsimp only [Materializer.sign] at hgone
    all_goals first
      | exact absurd hgone hne
      | exact absurd hgone (edit_served hd)
  | fail =>
    simp only [Materializer.step, Materializer.raise] at hstep
    split at hstep <;> cases hstep
    all_goals dsimp only at hgone
    all_goals first
      | exact absurd hgone hne
      | exact absurd hgone (edit_served hd)
  | kill =>
    simp only [Materializer.step] at hstep
    split at hstep <;> cases hstep
    exact absurd hgone hne

/-- At every point of a run in which no swap that found only the replaced folder is stopped, the served folder is
    absent or holds one complete artifact. Once a call has succeeded, an absent artifact is the replaced one, or the one
    that such a swap is about to install. The served folder is taken away by a swap alone, which leaves it replaced. -/
theorem base_artifact (h : (baseMachine α).Reach Uninterrupted s) :
    (∀ d ∈ s.fs .served, Complete s.finished d) ∧
    (s.succeeded = true → s.fs .served = none →
      (∃ d ∈ s.fs .replaced, Complete s.finished d) ∨ (s.phase.lone = true ∧ Built s)) ∧
    ∀ a t, s.step a = some t → ∀ d ∈ s.fs .served, t.fs .served = none →
      t.fs .replaced = some d ∧ ∃ lone, t.phase = .installing lone := by
  have hs := covered_reach h
  refine ⟨hs.served, fun hsucceeded hgone => ?_, fun a t hstep d hd hgone => served_taken hs hstep hd hgone⟩
  by_cases hlone : s.phase.lone = true
  · refine Or.inr ⟨hlone, ?_⟩
    have hphase := hs.phase
    cases hp : s.phase with
    | clearing l =>
      rw [hp] at hphase
      exact hphase.1
    | displacing l =>
      rw [hp] at hphase
      exact hphase.1
    | installing l =>
      rw [hp] at hphase
      exact hphase.1
    | _ =>
      rw [hp] at hlone
      cases hlone
  · have hl : s.phase.lone = false := by simpa using hlone
    obtain ⟨d, hd⟩ := Option.isSome_iff_exists.mp ((hs.held hsucceeded hgone).resolve_right hlone)
    exact Or.inl ⟨d, hd, hs.replaced hgone hl d hd⟩

/-! ### An artifact that is lost, and one that is kept -/

/-- A place where nothing is served. -/
def emptyPlace : Materializer Nat := { fs := fun _ => none }

def smallBuild (n : Nat) : BaseBuild Nat := ⟨n, n, none, n, ⟨n, [], none⟩⟩

/-- A call that succeeds, and one that is killed between the two renames of its swap. -/
def killedSwap : List (BaseStep Nat) :=
  [.call 1, .rebuild (smallBuild 1)] ++ List.replicate 10 .next ++ [.call 2, .rebuild (smallBuild 2)] ++
    List.replicate 8 .next ++ [.kill]

/-- A call whose second rename raises. -/
def failedSwap : List (BaseStep Nat) :=
  [.call 3, .rebuild (smallBuild 3), .remove (.temp 2)] ++ List.replicate 6 .next ++
    [.remove .replaced, .next, .next, .fail, .remove (.temp 3), .next]

/-- After the kill nothing is served, and after the call that follows none of the folders that the calls used is left. -/
theorem last_artifact_lost :
    (∃ s, (baseMachine Nat).run emptyPlace killedSwap = some s ∧ s.succeeded = true ∧ s.fs .served = none) ∧
    ∃ s, (baseMachine Nat).run emptyPlace (killedSwap ++ failedSwap) = some s ∧ s.succeeded = true ∧
      ∀ dir ∈ [BaseDir.served, .replaced, .temp 1, .temp 2, .temp 3], s.fs dir = none :=
  ⟨⟨_, rfl, rfl, rfl⟩, ⟨_, rfl, rfl, by decide⟩⟩

/-- The kill leaves the artifact of the first call as the replaced one. -/
theorem base_artifact_kept : ∃ s, (baseMachine Nat).run emptyPlace killedSwap = some s ∧ s.fs .served = none ∧
    ∃ d ∈ s.fs .replaced, Complete s.finished d := by
  obtain ⟨s, hs, hsucceeded, hserved, hphase⟩ : ∃ s, (baseMachine Nat).run emptyPlace killedSwap = some s ∧
      s.succeeded = true ∧ s.fs .served = none ∧ s.phase = .idle := ⟨_, rfl, rfl, rfl, rfl⟩
  have hreach : (baseMachine Nat).Reach Uninterrupted s :=
    ⟨emptyPlace, ⟨rfl, rfl, rfl, rfl, rfl⟩, Machine.path_of_run hs (by decide)⟩
  refine ⟨s, hs, hserved, ((base_artifact hreach).2.1 hsucceeded hserved).resolve_right fun h => ?_⟩
  rw [hphase] at h
  cases h.1

end HumanoidLab
