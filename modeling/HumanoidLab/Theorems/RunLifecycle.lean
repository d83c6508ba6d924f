import HumanoidLab.Theorems.RunSteps
import Mathlib.Algebra.GroupWithZero.Nat

/-! The life of a run. Its status in memory only moves forward, at most four runs are active, a cancelled run predicts at most
    one more chunk, and a restart leaves none active; but a kill between a terminal status and its save takes the status
    back. -/

namespace HumanoidLab
open Concurrency

variable {ι : Type} [DecidableEq ι] {s t : EvalServer ι} {a : EvalStep ι} {i : ι}

/-- The chunks of run `i` that a step predicts. -/
def EvalStep.chunks (i : ι) : EvalStep ι → Nat
  | .work j act => if j = i then act.chunks else 0
  | _ => 0

/-- Its saves succeed. -/
def EvalStep.saves : EvalStep ι → Bool
  | .createRun _ error | .admitPolicyRun _ error | .cancelRun _ error | .scan _ error => error.isNone
  | .work _ (.advance error) | .work _ (.note _ error) => error.isNone
  | _ => true

def SavesSucceed (_ : EvalServer ι) (a : EvalStep ι) : Prop := a.saves = true

instance (s : EvalServer ι) : DecidablePred (SavesSucceed s) := fun a => inferInstanceAs (Decidable (a.saves = true))

namespace EvalServer

/-- No ended run is killed whose manifest the restart scan would give another status. -/
def LosesNoOutcome (s : EvalServer ι) : EvalStep ι → Prop
  | .kill => ∀ i ∈ s.ids, ∀ r ∈ s.runs i, r.status.active = false → (s.disk i).map (·.settle.status) = some r.status
  | a => a.saves = true

instance (s : EvalServer ι) : DecidablePred s.LosesNoOutcome
  | .kill => inferInstanceAs (Decidable (∀ i ∈ s.ids, ∀ r ∈ s.runs i, r.status.active = false →
      (s.disk i).map (·.settle.status) = some r.status))
  | .createRun .. | .createPolicyRun .. | .snapshotRaises _ | .admitPolicyRun .. | .submit _ | .cancelRun .. | .listRuns
  | .getRun _ | .artifact _ | .take | .importRaises _ | .work .. | .close _ | .boot | .scan .. | .serve => decEq _ true

/-- A cancel of the run was accepted. -/
def Accepted (s : EvalServer ι) (i : ι) : Prop := ∃ r, s.runs i = some r ∧ r.cancelRequested = true

/-! ### One run -/

/-- What a step does to run `i`. -/
inductive RunStep (s : EvalServer ι) (a : EvalStep ι) (t : EvalServer ι) (i : ι) : Prop
  | other (runs : t.runs i = s.runs i) (disk : t.disk i = s.disk i) (quiet : a.chunks i = 0)
      (cancelled : i ∈ s.cancelled → i ∈ t.cancelled ∨ s.worker = some (i, .closing))
      (worker : ∀ pc, t.worker = some (i, pc) → s.worker = some (i, pc) ∨ (s.Waiting i ∧ pc = .entered))
      (phase : t.phase = .up → s.phase = .up ∨ ((s.disk i).isSome → (s.runs i).isSome))
  | created (r : EvalRun) (saved : Bool) (new : ¬s.Known i) (status : r.status = .queued) (plain : r.cancelRequested = false)
      (runs : t.runs i = some r) (disk : t.disk i = if saved then some r else s.disk i) (worker : t.worker = s.worker)
      (quiet : a.chunks i = 0)
  | requested (r : EvalRun) (saved : Bool) (before : s.runs i = some r) (policy : r.config.policy = true)
      (active : r.status.active = true) (runs : t.runs i = some { r with cancelRequested := true })
      (disk : t.disk i = if saved then some { r with cancelRequested := true } else s.disk i) (cancelled : i ∈ t.cancelled)
      (worker : t.worker = s.worker) (phase : s.phase = .up) (quiet : a.chunks i = 0)
  | worked (pc : WorkerAt) (act : WorkerAct) (r : EvalRun) (m : WorkerMove) (label : a = .work i act) (at' : s.worker = some (i, pc))
      (before : s.runs i = some r) (move : pc.move r (i ∈ s.cancelled) act = some m) (runs : t.runs i = some m.run)
      (disk : t.disk i = if m.saved then some m.run else s.disk i) (worker : t.worker = some (i, m.at'))
      (cancelled : t.cancelled = s.cancelled) (phase : t.phase = s.phase)
  | lost (runs : t.runs i = none) (disk : t.disk i = s.disk i) (worker : t.worker = none) (phase : t.phase = .down)
      (cause : a = .kill ∨ s.phase ≠ .up) (quiet : a.chunks i = 0)
  | settled (m : EvalRun) (before : s.runs i = none) (manifest : s.disk i = some m) (runs : t.runs i = some m.settle)
      (disk : t.disk i = some m.settle) (worker : t.worker = s.worker) (phase : t.phase = .scanning) (quiet : a.chunks i = 0)

theorem RunStep.unchanged (hruns : t.runs i = s.runs i) (hdisk : t.disk i = s.disk i) (hquiet : a.chunks i = 0)
    (hcancelled : t.cancelled = s.cancelled) (hworker : t.worker = s.worker)
    (hphase : t.phase = .up → s.phase = .up ∨ ((s.disk i).isSome → (s.runs i).isSome)) : RunStep s a t i :=
  .other hruns hdisk hquiet (fun hi => .inl (hcancelled ▸ hi)) (fun _ hw => .inl (hworker ▸ hw)) hphase

theorem setRun_runs_self (r : EvalRun) (saved : Bool) : (s.setRun i r saved).runs i = some r := Function.update_self ..

theorem setRun_runs_other {j : ι} (hji : i ≠ j) (r : EvalRun) (saved : Bool) : (s.setRun j r saved).runs i = s.runs i :=
  Function.update_of_ne hji _ _

theorem setRun_disk_self (r : EvalRun) (saved : Bool) :
    (s.setRun i r saved).disk i = if saved then some r else s.disk i := by
  cases saved with
  | false => rfl
  | true => exact Function.update_self ..

theorem setRun_disk_other {j : ι} (hji : i ≠ j) (r : EvalRun) (saved : Bool) : (s.setRun j r saved).disk i = s.disk i := by
  cases saved with
  | false => rfl
  | true => exact Function.update_of_ne hji _ _

/-- Every step does one of these to a run. -/
theorem Inv.step_run (h : Inv s) (hs : s.step a = some t) (i : ι) : RunStep s a t i := by
  cases a with
  | createRun j error =>
    obtain ⟨⟨hup, hdir, -⟩, hs⟩ := Option.ite_none_right_eq_some.mp hs
    obtain rfl := Option.some.inj hs
    by_cases hij : i = j
    · subst hij
      exact .created _ error.isNone (fun hknown => hdir hknown.1) rfl rfl (setRun_runs_self _ error.isNone)
          (setRun_disk_self _ error.isNone) rfl rfl
    · exact .unchanged (setRun_runs_other hij _ error.isNone) (setRun_disk_other hij _ error.isNone) rfl rfl rfl .inl
  | admitPolicyRun j error =>
    obtain ⟨config, hconfig, hs⟩ := Option.map_eq_some_iff.mp hs
    split at hs
    · subst hs
      by_cases hij : i = j
      · subst hij
        exact .created _ error.isNone (not_known_of_snapshot hconfig) rfl rfl (setRun_runs_self _ error.isNone)
          (setRun_disk_self _ error.isNone) rfl rfl
      · exact .unchanged (setRun_runs_other hij _ error.isNone) (setRun_disk_other hij _ error.isNone) rfl rfl rfl .inl
    · subst hs
      exact .unchanged rfl rfl rfl rfl rfl .inl
  | createPolicyRun j config =>
    obtain ⟨-, hs⟩ := Option.ite_none_right_eq_some.mp hs
    obtain rfl := Option.some.inj hs
    exact .unchanged rfl rfl rfl rfl rfl .inl
  | snapshotRaises j =>
    obtain ⟨config, -, rfl⟩ := Option.map_eq_some_iff.mp hs
    exact .unchanged rfl rfl rfl rfl rfl .inl
  | submit j =>
    obtain ⟨-, hs⟩ := Option.ite_none_right_eq_some.mp hs
    obtain rfl := Option.some.inj hs
    exact .unchanged rfl rfl rfl rfl rfl .inl
  | cancelRun j error =>
    obtain ⟨hup, hs⟩ := Option.ite_none_right_eq_some.mp hs
    obtain ⟨r, hr, hs⟩ := Option.map_eq_some_iff.mp hs
    split at hs
    · rename_i hcond
      subst hs
      by_cases hij : i = j
      · subst hij
        exact .requested r error.isNone hr hcond.1 hcond.2 (setRun_runs_self _ error.isNone) (setRun_disk_self _ error.isNone)
          (Finset.mem_insert_self i _) rfl hup rfl
      · exact .other (setRun_runs_other hij _ error.isNone) (setRun_disk_other hij _ error.isNone) rfl
          (fun hi => .inl (Finset.mem_insert_of_mem hi)) (fun _ hw => .inl hw) .inl
    · subst hs
      exact .unchanged rfl rfl rfl rfl rfl .inl
  | listRuns | getRun j | artifact j =>
    obtain ⟨-, hs⟩ := Option.ite_none_right_eq_some.mp hs
    obtain rfl := Option.some.inj hs
    exact .unchanged rfl rfl rfl rfl rfl .inl
  | take =>
    simp only [EvalServer.step] at hs
    split at hs
    · rename_i j rest hworker hqueue
      obtain rfl := Option.some.inj hs
      refine .other rfl rfl rfl .inl (fun pc hw => ?_) .inl
      cases hw
      exact .inr ⟨.inr (hqueue ▸ List.mem_cons_self), rfl⟩
    · cases hs
  | importRaises j =>
    obtain ⟨-, hs⟩ := Option.ite_none_right_eq_some.mp hs
    obtain rfl := Option.some.inj hs
    exact .other rfl rfl rfl .inl (fun pc hw => by cases hw) .inl
  | work j act =>
    simp only [EvalServer.step] at hs
    split at hs
    · rename_i k pc r hworker hr
      obtain ⟨rfl, hs⟩ := Option.ite_none_right_eq_some.mp hs
      obtain ⟨m, hm, rfl⟩ := Option.map_eq_some_iff.mp hs
      by_cases hij : i = k
      · subst hij
        exact .worked pc act r m rfl hworker hr hm (setRun_runs_self _ m.saved) (setRun_disk_self _ m.saved) rfl rfl rfl
      · refine .other (setRun_runs_other hij _ m.saved) (setRun_disk_other hij _ m.saved) (if_neg (Ne.symm hij)) .inl
          (fun pc' hw => ?_) .inl
        cases hw
        exact absurd rfl hij
    · cases hs
  | close j =>
    obtain ⟨hworker, hs⟩ := Option.ite_none_right_eq_some.mp hs
    obtain rfl := Option.some.inj hs
    refine .other rfl rfl rfl (fun hi => ?_) (fun pc hw => by cases hw) .inl
    by_cases hij : i = j
    · exact .inr (hij ▸ hworker)
    · exact .inl (Finset.mem_erase_of_ne_of_mem hij hi)
  | kill =>
    obtain rfl := Option.some.inj hs
    exact .lost rfl rfl rfl rfl (.inl rfl) rfl
  | boot =>
    obtain ⟨-, hs⟩ := Option.ite_none_right_eq_some.mp hs
    obtain rfl := Option.some.inj hs
    exact .unchanged rfl rfl rfl rfl rfl fun hphase => by cases hphase
  | scan j error =>
    obtain ⟨⟨hphase, habsent⟩, hs⟩ := Option.ite_none_right_eq_some.mp hs
    obtain ⟨m, hm, hs⟩ := Option.map_eq_some_iff.mp hs
    split at hs
    · subst hs
      exact .lost rfl rfl rfl rfl (.inr (by simp [hphase])) rfl
    · subst hs
      by_cases hij : i = j
      · subst hij
        refine .settled m habsent hm (setRun_runs_self _ m.status.active) ?_ rfl hphase rfl
        refine (setRun_disk_self _ m.status.active).trans ?_
        split
        · rfl
        · rename_i hactive
          rw [EvalRun.settle_of_inactive (by simpa using hactive)]
          exact hm
      · exact .unchanged (setRun_runs_other hij _ m.status.active) (setRun_disk_other hij _ m.status.active) rfl rfl rfl .inl
  | serve =>
    obtain ⟨⟨-, hall⟩, hs⟩ := Option.ite_none_right_eq_some.mp hs
    obtain rfl := Option.some.inj hs
    exact .unchanged rfl rfl rfl rfl rfl fun _ => .inr fun hi => hall i (h.disk_known i hi).1 hi

/-! ### Cancels and manifests -/

/-- What is known of run `i`, in memory and on disk. -/
structure Outcome (s : EvalServer ι) (i : ι) : Prop where
  honest : ∀ r, s.runs i = some r → r.cancelRequested = true → r.config.policy = true ∧ r.status ≠ .completed
  stored : ∀ m, s.disk i = some m → m.cancelRequested = true → m.config.policy = true ∧ m.status ≠ .completed
  pending : ∀ r, s.runs i = some r → r.cancelRequested = true → r.status.active = true → i ∈ s.cancelled
  manifest : s.phase = .up → ∀ m, s.disk i = some m → ∃ r, s.runs i = some r ∧
    (m.status.active = false → r.status = m.status ∧ ∀ pc, s.worker = some (i, pc) → pc = .closing)

theorem settle_honest {m : EvalRun} (h : m.cancelRequested = true → m.config.policy = true ∧ m.status ≠ .completed)
    (hm : m.settle.cancelRequested = true) : m.settle.config.policy = true ∧ m.settle.status ≠ .completed := by
  unfold EvalRun.settle at hm ⊢
  split at hm
  · split at hm
    · rename_i hactive hcancel
      rw [if_pos hactive, if_pos hcancel]
      exact ⟨(h hcancel).1, fun h => by cases h⟩
    · rename_i hcancel
      exact absurd hm hcancel
  · rename_i hactive
    rw [if_neg hactive]
    exact h hm

theorem not_move_closing {r : EvalRun} {c : Bool} {act : WorkerAct} {m : WorkerMove} :
    WorkerAt.closing.move r c act ≠ some m := by
  cases act <;> exact fun h => by cases h

/-- An act of the worker takes back nothing that a cancel or a manifest says. -/
theorem Outcome.worked (ho : Outcome s i) (h : Inv s) {pc : WorkerAt} {act : WorkerAct} {r : EvalRun} {m : WorkerMove}
    (hat : s.worker = some (i, pc)) (hr : s.runs i = some r) (hm : pc.move r (i ∈ s.cancelled) act = some m)
    (hruns : t.runs i = some m.run) (hdisk : t.disk i = if m.saved then some m.run else s.disk i)
    (hworker : t.worker = some (i, m.at')) (hcancelled : t.cancelled = s.cancelled) (hphase : t.phase = s.phase) :
    Outcome t i := by
  obtain ⟨r₀, hr₀, hfits⟩ := h.working i pc hat
  cases hr.symm.trans hr₀
  have hmoved := WorkerAt.move_moved hfits hm
  have hhonest : m.run.cancelRequested = true → m.run.config.policy = true ∧ m.run.status ≠ .completed := by
    intro hcancel
    rw [hmoved.cancelRequested] at hcancel
    obtain ⟨hpolicy, hne⟩ := ho.honest r hr hcancel
    rw [hmoved.config]
    refine ⟨hpolicy, ?_⟩
    rcases hmoved.status with heq | ⟨-, hne⟩ | ⟨rfl, hend⟩ | ⟨-, hend⟩
    · exact heq ▸ hne
    · exact hne
    · -- The last status is read off `CANCELLED`, which still has the run.
      have hmem := ho.pending r hr hcancel (by rw [show r.status = .running from hfits]; rfl)
      rw [hend, hpolicy, decide_eq_true hmem]
      exact fun h => by cases h
    · rw [hend]
      exact fun h => by cases h
  refine ⟨fun r' hr' => ?_, fun m' hm' => ?_, fun r' hr' hcancel hactive => ?_, fun hup m' hm' => ⟨m.run, hruns, fun hend => ?_⟩⟩
  · cases hruns.symm.trans hr'
    exact hhonest
  · rw [hdisk] at hm'
    split at hm'
    · cases hm'
      exact hhonest
    · exact ho.stored m' hm'
  · cases hruns.symm.trans hr'
    rw [hcancelled]
    exact ho.pending r hr (hmoved.cancelRequested ▸ hcancel) (hmoved.active hfits hactive)
  · rw [hdisk] at hm'
    split at hm'
    · rename_i hsaved
      cases hm'
      refine ⟨rfl, fun pc' hw => ?_⟩
      cases hworker.symm.trans hw
      exact hmoved.saved hsaved hend
    · obtain ⟨r₁, -, hclosed⟩ := ho.manifest (hphase ▸ hup) m' hm'
      obtain rfl := (hclosed hend).2 pc hat
      exact absurd hm not_move_closing

theorem Outcome.step (ho : Outcome s i) (h : Inv s) (hs : RunStep s a t i) : Outcome t i := by
  cases hs with
  | other hruns hdisk _ hcancelled hworker hphase =>
    refine ⟨fun r hr => ho.honest r (hruns ▸ hr), fun m hm => ho.stored m (hdisk ▸ hm), fun r hr hcancel hactive => ?_,
      fun hup m hm => ?_⟩
    · rw [hruns] at hr
      rcases hcancelled (ho.pending r hr hcancel hactive) with hi | hclosing
      · exact hi
      · obtain ⟨r₀, hr₀, hfits⟩ := h.working i _ hclosing
        cases hr.symm.trans hr₀
        cases hactive.symm.trans (show r.status.active = false from hfits)
    · rw [hdisk] at hm
      by_cases hup' : s.phase = .up
      · obtain ⟨r, hr, hclosed⟩ := ho.manifest hup' m hm
        refine ⟨r, hruns ▸ hr, fun hend => ⟨(hclosed hend).1, fun pc hw => ?_⟩⟩
        rcases hworker pc hw with hw | ⟨hwaiting, -⟩
        · exact (hclosed hend).2 pc hw
        · have hq := h.waiting i hwaiting
          rw [status, hr, Option.map_some, (hclosed hend).1] at hq
          rw [Option.some.inj hq] at hend
          cases hend
      · have hsome := ((hphase hup).resolve_left hup') (by simp [hm])
        obtain ⟨r, hr⟩ := Option.isSome_iff_exists.mp hsome
        obtain ⟨hend, hsaved⟩ := h.scanned hup' i r hr
        cases hm.symm.trans hsaved
        refine ⟨m, hruns ▸ hr, fun _ => ⟨rfl, fun pc hw => ?_⟩⟩
        have hidle := (h.idle hup').1
        rcases hworker pc hw with hw | ⟨hwaiting, -⟩
        · simpa [hidle] using mem_tickets_of_worker hw
        · simpa [hidle] using mem_tickets_of_waiting hwaiting
  | created r saved hnew hstatus hplain hruns hdisk hworker _ =>
    have hdisk' : ∀ m, t.disk i = some m → m = r := by
      intro m hm
      rw [hdisk] at hm
      split at hm
      · exact (Option.some.inj hm).symm
      · exact absurd (h.disk_known i (by simp [hm])) hnew
    refine ⟨fun r' hr' hcancel => ?_, fun m hm hcancel => ?_, fun r' hr' hcancel _ => ?_, fun _ m hm => ⟨r, hruns, fun hend => ?_⟩⟩
    · cases hruns.symm.trans hr'
      cases hplain.symm.trans hcancel
    · rw [hdisk' m hm] at hcancel
      cases hplain.symm.trans hcancel
    · cases hruns.symm.trans hr'
      cases hplain.symm.trans hcancel
    · rw [hdisk' m hm, hstatus] at hend
      cases hend
  | requested r saved hr hpolicy hactive hruns hdisk hcancelled hworker hphase _ =>
    have hne : r.status ≠ .completed := by
      intro heq
      rw [heq] at hactive
      cases hactive
    refine ⟨fun r' hr' _ => ?_, fun m hm => ?_, fun _ _ _ _ => hcancelled, fun _ m hm => ⟨_, hruns, fun hend => ?_⟩⟩
    · cases hruns.symm.trans hr'
      exact ⟨hpolicy, hne⟩
    · rw [hdisk] at hm
      split at hm
      · cases hm
        exact fun _ => ⟨hpolicy, hne⟩
      · exact ho.stored m hm
    · rw [hdisk] at hm
      split at hm
      · cases hm
        cases hactive.symm.trans hend
      · obtain ⟨r₀, hr₀, hclosed⟩ := ho.manifest hphase m hm
        cases hr.symm.trans hr₀
        rw [hworker]
        exact hclosed hend
  | worked pc act r m _ hat hr hm hruns hdisk hworker hcancelled hphase =>
    exact ho.worked h hat hr hm hruns hdisk hworker hcancelled hphase
  | lost hruns hdisk _ hphase _ _ =>
    refine ⟨fun r hr => ?_, fun m hm => ho.stored m (hdisk ▸ hm), fun r hr => ?_, fun hup => ?_⟩
    · cases hruns.symm.trans hr
    · cases hruns.symm.trans hr
    · cases hphase.symm.trans hup
  | settled m _ hm hruns hdisk _ hphase _ =>
    refine ⟨fun r hr => ?_, fun m' hm' => ?_, fun r hr _ hactive => ?_, fun hup => ?_⟩
    · cases hruns.symm.trans hr
      exact settle_honest (ho.stored m hm)
    · cases hdisk.symm.trans hm'
      exact settle_honest (ho.stored m hm)
    · cases hruns.symm.trans hr
      cases m.settle_inactive.symm.trans hactive
    · cases hphase.symm.trans hup

theorem outcome_reach {C : EvalServer ι → EvalStep ι → Prop} (h : (evalMachine ι).Reach C s) (i : ι) : Outcome s i := by
  refine h.invariant (I := fun s => Outcome s i) (fun s hs => ?_) fun s a t hr hs _ hstep => ?_
  · subst hs
    refine ⟨fun r hr => ?_, fun m hm => ?_, fun r hr => ?_, fun hup => ?_⟩
    · cases hr
    · cases hm
    · cases hr
    · cases hup
  · have hinv := inv_reach hr
    exact hs.step hinv (hinv.step_run hstep i)

/-! ### The status of a run -/

theorem not_raised {r : EvalRun} {c : Bool} {pc : WorkerAt} {m : WorkerMove} {error : String}
    (hm : pc.advance r c none = some m) : m.at' ≠ .raised error := by
  intro hat
  cases pc with
  | entered =>
    obtain rfl := Option.some.inj hm
    simp only [WorkerMove.quiet] at hat
    split at hat <;> cases hat
  | starting =>
    obtain rfl := Option.some.inj hm
    simp only [WorkerMove.save] at hat
    split at hat <;> cases hat
  | variant rest =>
    cases rest with
    | nil =>
      obtain rfl := Option.some.inj hm
      cases hat
    | cons model rest =>
      obtain rfl := Option.some.inj hm
      simp only [WorkerMove.quiet] at hat
      split at hat <;> cases hat
  | chunk model rest done =>
    simp only [WorkerAt.advance] at hm
    split at hm
    · obtain rfl := Option.some.inj hm
      cases hat
    · obtain rfl := Option.some.inj hm
      simp only [WorkerMove.quiet] at hat
      split at hat <;> cases hat
  | predicting model rest done => cases hm
  | closing => cases hm
  | _ =>
    obtain rfl := Option.some.inj hm
    cases hat

omit [DecidableEq ι] in
/-- Where saves succeed, an exception comes while the run is running. -/
theorem raised_running {r : EvalRun} {c : Bool} {act : WorkerAct} {pc : WorkerAt} {m : WorkerMove} {error : String}
    (hsaves : (EvalStep.work i act).saves = true) (hm : pc.move r c act = some m) (hat : m.at' = .raised error) :
    pc.body = true ∧ m.run.status = r.status := by
  cases act with
  | advance e =>
    obtain rfl : e = none := Option.isNone_iff_eq_none.mp hsaves
    exact absurd hat (not_raised hm)
  | predict =>
    cases pc with
    | predicting model rest done =>
      obtain rfl := Option.some.inj hm
      cases hat
    | _ => cases hm
  | note stage e =>
    obtain rfl : e = none := Option.isNone_iff_eq_none.mp hsaves
    obtain ⟨hbody, hm⟩ := Option.ite_none_right_eq_some.mp hm
    obtain rfl := Option.some.inj hm
    obtain rfl : pc = .raised error := hat
    cases hbody
  | raises e =>
    obtain ⟨hbody, hm⟩ := Option.ite_none_right_eq_some.mp hm
    obtain rfl := Option.some.inj hm
    exact ⟨hbody, rfl⟩

/-- The handler of an exception finds the run active. -/
def Calm (s : EvalServer ι) (i : ι) : Prop := ∀ error, s.worker = some (i, .raised error) → s.isActive i = true

theorem calm_reach (h : (evalMachine ι).Reach SavesSucceed s) (i : ι) : Calm s i := by
  refine h.invariant (I := fun s => Calm s i) (fun s hs => ?_) fun s a t hr hs hsaves hstep => ?_
  · subst hs
    exact fun error hw => by cases hw
  · have hinv := inv_reach hr
    intro error hw
    cases hinv.step_run hstep i with
    | other hruns _ _ _ hworker _ =>
      rcases hworker _ hw with hw | ⟨-, hpc⟩
      · rw [isActive, status, hruns]
        exact hs error hw
      · cases hpc
    | created r saved hnew _ _ _ _ hworker _ =>
      have hticket := mem_tickets_of_worker (hworker ▸ hw)
      exact absurd (hinv.runs_known i (hinv.runs_of_ticket hticket)) hnew
    | requested r saved _ _ hactive hruns _ _ _ _ _ => exact isActive_iff.mpr ⟨_, hruns, hactive⟩
    | worked pc act r m hlabel hat hr hm hruns _ hworker _ _ =>
      subst hlabel
      obtain ⟨r₀, hr₀, hfits⟩ := hinv.working i pc hat
      cases hr.symm.trans hr₀
      have hraised : m.at' = .raised error := (Prod.mk.inj (Option.some.inj (hworker.symm.trans hw))).2
      obtain ⟨hbody, hstatus⟩ := raised_running hsaves hm hraised
      refine isActive_iff.mpr ⟨m.run, hruns, ?_⟩
      rw [hstatus, (WorkerAt.body_fits hbody).mp hfits]
      rfl
    | lost _ _ hworker _ _ _ => cases hworker.symm.trans hw
    | settled m habsent _ _ _ hworker _ _ =>
      obtain ⟨r, hr, -⟩ := hinv.working i _ (hworker ▸ hw)
      cases habsent.symm.trans hr

/-- The run had status `u` once: its status follows from `u`, and so does the one that a restart gives its manifest. -/
structure Since (i : ι) (u : RunStatus) (s : EvalServer ι) : Prop where
  known : s.Known i
  memory : ∀ r, s.runs i = some r → u.mayBecome r.status
  manifest : s.runs i = none → ∀ m, s.disk i = some m → u.mayBecome m.settle.status

theorem Known.dropped {j : ι} {config : RunConfig} (hi : s.Known i) (hj : s.snapshots j = some config) :
    Known { s with directories := s.directories.erase j, snapshots := Function.update s.snapshots j none } i := by
  have hij : i ≠ j := by
    rintro rfl
    cases hi.2.symm.trans hj
  exact ⟨Finset.mem_erase_of_ne_of_mem hij hi.1, (Function.update_of_ne hij _ _).trans hi.2⟩

/-- A known run stays known. -/
theorem Known.step (hi : s.Known i) (hs : s.step a = some t) : t.Known i := by
  cases a with
  | createRun j error =>
    obtain ⟨-, hs⟩ := Option.ite_none_right_eq_some.mp hs
    obtain rfl := Option.some.inj hs
    exact ⟨Finset.mem_insert_of_mem hi.1, hi.2⟩
  | createPolicyRun j config =>
    obtain ⟨⟨-, hdir, -⟩, hs⟩ := Option.ite_none_right_eq_some.mp hs
    obtain rfl := Option.some.inj hs
    have hij : i ≠ j := fun heq => hdir (heq ▸ hi.1)
    exact ⟨Finset.mem_insert_of_mem hi.1, (Function.update_of_ne hij _ _).trans hi.2⟩
  | snapshotRaises j =>
    obtain ⟨config, hconfig, rfl⟩ := Option.map_eq_some_iff.mp hs
    exact hi.dropped hconfig
  | admitPolicyRun j error =>
    obtain ⟨config, hconfig, hs⟩ := Option.map_eq_some_iff.mp hs
    split at hs
    · subst hs
      exact ⟨hi.1, (hi.dropped hconfig).2⟩
    · subst hs
      exact hi.dropped hconfig
  | submit j | importRaises j | close j | boot | serve | listRuns | getRun j | artifact j =>
    obtain ⟨-, hs⟩ := Option.ite_none_right_eq_some.mp hs
    obtain rfl := Option.some.inj hs
    exact hi
  | cancelRun j error =>
    obtain ⟨-, hs⟩ := Option.ite_none_right_eq_some.mp hs
    obtain ⟨r, -, hs⟩ := Option.map_eq_some_iff.mp hs
    split at hs <;> (subst hs; exact hi)
  | take =>
    simp only [EvalServer.step] at hs
    split at hs
    · obtain rfl := Option.some.inj hs
      exact hi
    · cases hs
  | work j act =>
    simp only [EvalServer.step] at hs
    split at hs
    · obtain ⟨-, hs⟩ := Option.ite_none_right_eq_some.mp hs
      obtain ⟨m, -, rfl⟩ := Option.map_eq_some_iff.mp hs
      exact hi
    · cases hs
  | kill =>
    obtain rfl := Option.some.inj hs
    exact ⟨hi.1, rfl⟩
  | scan j error =>
    obtain ⟨-, hs⟩ := Option.ite_none_right_eq_some.mp hs
    obtain ⟨m, -, hs⟩ := Option.map_eq_some_iff.mp hs
    split at hs
    · subst hs
      exact ⟨hi.1, rfl⟩
    · subst hs
      exact hi

theorem Since.step {u : RunStatus} (hsince : Since i u s) (h : Inv s) (hs : s.step a = some t)
    (hcalm : ∀ act, a = .work i act → Calm s i)
    (hkill : a = .kill → ∀ r, s.runs i = some r → r.status.active = false → (s.disk i).map (·.settle.status) = some r.status) :
    Since i u t := by
  refine ⟨hsince.known.step hs, fun r' hr' => ?_, fun hnone m hm => ?_⟩
  · cases h.step_run hs i with
    | other hruns _ _ _ _ _ => exact hsince.memory r' (hruns ▸ hr')
    | created r saved hnew _ _ _ _ _ _ => exact absurd hsince.known hnew
    | requested r saved hr _ _ hruns _ _ _ _ _ =>
      cases hruns.symm.trans hr'
      exact hsince.memory r hr
    | worked pc act r m hlabel hat hr hm hruns _ _ _ _ =>
      obtain ⟨r₀, hr₀, hfits⟩ := h.working i pc hat
      cases hr.symm.trans hr₀
      cases hruns.symm.trans hr'
      refine (hsince.memory r hr).trans ((WorkerAt.move_moved hfits hm).mayBecome hfits fun error hraised => ?_)
      obtain ⟨r₁, hr₁, hactive⟩ := isActive_iff.mp (hcalm act hlabel error (hraised ▸ hat))
      cases hr.symm.trans hr₁
      exact hactive
    | lost hruns _ _ _ _ _ => cases hruns.symm.trans hr'
    | settled m habsent hm hruns _ _ _ _ =>
      cases hruns.symm.trans hr'
      exact hsince.manifest habsent m hm
  · cases h.step_run hs i with
    | other hruns hdisk _ _ _ _ => exact hsince.manifest (hruns ▸ hnone) m (hdisk ▸ hm)
    | created r saved _ _ _ hruns _ _ _ => cases hruns.symm.trans hnone
    | requested r saved _ _ _ hruns _ _ _ _ _ => cases hruns.symm.trans hnone
    | worked pc act r m' _ _ _ _ hruns _ _ _ _ => cases hruns.symm.trans hnone
    | lost _ hdisk _ _ hcause _ =>
      rw [hdisk] at hm
      cases hr : s.runs i with
      | none => exact hsince.manifest hr m hm
      | some r =>
        refine (hsince.memory r hr).trans ?_
        cases hactive : r.status.active with
        | true => exact RunStatus.mayBecome_of_active hactive m.settle_inactive
        | false =>
          -- An ended run: the guard of a kill, or a run that was scanned before.
          rcases hcause with hkilled | hphase
          · have hsettled := hkill hkilled r hr hactive
            rw [hm] at hsettled
            exact .inl (Option.some.inj hsettled).symm
          · cases hm.symm.trans (h.scanned hphase i r hr).2
            rw [EvalRun.settle_of_inactive hactive]
            exact .inl rfl
    | settled m' _ _ hruns _ _ _ _ => cases hruns.symm.trans hnone

/-! ### A cancelled run -/

/-- The run is cancelled, or over: it does not go on. -/
structure Doomed (i : ι) (s : EvalServer ι) : Prop where
  known : s.Known i
  memory : ∀ r, s.runs i = some r → (r.cancelRequested = true ∨ r.status.active = false) ∧ r.status ≠ .completed
  manifest : ∀ m, s.disk i = some m → m.status ≠ .completed

/-- The chunks that the worker still predicts for the run. -/
def ahead (s : EvalServer ι) (i : ι) : Nat := s.worker.elim 0 fun w => if w.1 = i then w.2.ahead else 0

theorem ahead_le {n : Nat} (h : ∀ pc, s.worker = some (i, pc) → pc.ahead ≤ n) : s.ahead i ≤ n := by
  unfold ahead
  cases hw : s.worker with
  | none => exact Nat.zero_le n
  | some w =>
    show (if w.1 = i then w.2.ahead else 0) ≤ n
    split
    · rename_i hi
      exact h w.2 (hi ▸ hw)
    · exact Nat.zero_le n

theorem ahead_at {pc : WorkerAt} (h : s.worker = some (i, pc)) : s.ahead i = pc.ahead := by
  unfold ahead
  rw [h]
  exact if_pos rfl

theorem ahead_le_one (s : EvalServer ι) (i : ι) : s.ahead i ≤ 1 := by
  refine ahead_le fun pc _ => ?_
  cases pc <;> simp [WorkerAt.ahead]

theorem settle_ne_completed {m : EvalRun} (h : m.status ≠ .completed) : m.settle.status ≠ .completed := by
  unfold EvalRun.settle
  split
  · split <;> exact fun h => by cases h
  · exact h

/-- A step of a run that does not go on uses up what the worker still predicts. -/
theorem Doomed.step (hd : Doomed i s) (h : Inv s) (ho : Outcome s i) (hs : s.step a = some t) :
    Doomed i t ∧ t.ahead i + a.chunks i ≤ s.ahead i := by
  have hknown := hd.known.step hs
  cases h.step_run hs i with
  | other hruns hdisk hquiet _ hworker _ =>
    refine ⟨⟨hknown, fun r hr => hd.memory r (hruns ▸ hr), fun m hm => hd.manifest m (hdisk ▸ hm)⟩, ?_⟩
    rw [hquiet]
    refine ahead_le fun pc hw => ?_
    rcases hworker pc hw with hw | ⟨-, rfl⟩
    · exact (ahead_at hw).ge
    · exact Nat.zero_le _
  | created r saved hnew _ _ _ _ _ _ => exact absurd hd.known hnew
  | requested r saved hr _ hactive hruns hdisk _ hworker _ hquiet =>
    have hne := (hd.memory r hr).2
    refine ⟨⟨hknown, fun r' hr' => ?_, fun m hm => ?_⟩, ?_⟩
    · cases hruns.symm.trans hr'
      exact ⟨.inl rfl, hne⟩
    · rw [hdisk] at hm
      split at hm
      · cases hm
        exact hne
      · exact hd.manifest m hm
    · rw [hquiet]
      exact ahead_le fun pc hw => (ahead_at (hworker ▸ hw)).ge
  | worked pc act r m hlabel hat hr hm hruns hdisk hworker _ _ =>
    obtain ⟨r₀, hr₀, hfits⟩ := h.working i pc hat
    cases hr.symm.trans hr₀
    have hmoved := WorkerAt.move_moved hfits hm
    obtain ⟨hcancel, hne⟩ := hd.memory r hr
    have hover : r.cancelRequested = true ∧ r.status.active = true ∨ r.status.active = false := by
      cases hactive : r.status.active with
      | true => exact .inl ⟨hcancel.resolve_right (by simp [hactive]), rfl⟩
      | false => exact .inr rfl
    have hcancelled : decide (i ∈ s.cancelled) = true ∨ r.status.active = false :=
      hover.imp_left fun hover => decide_eq_true (ho.pending r hr hover.1 hover.2)
    have hend : m.run.status ≠ .completed := by
      rcases hmoved.status with heq | ⟨-, hne'⟩ | ⟨rfl, hend⟩ | ⟨-, hend⟩
      · exact heq ▸ hne
      · exact hne'
      · have hrun : r.status = .running := hfits
        rcases hover with ⟨hcancel, -⟩ | hover
        · rw [hend, (ho.honest r hr hcancel).1, hcancelled.resolve_right (by rw [hrun]; exact Bool.noConfusion)]
          exact fun h => by cases h
        · rw [hrun] at hover
          cases hover
      · rw [hend]
        exact fun h => by cases h
    refine ⟨⟨hknown, fun r' hr' => ?_, fun m' hm' => ?_⟩, ?_⟩
    · cases hruns.symm.trans hr'
      refine ⟨?_, hend⟩
      rw [hmoved.cancelRequested]
      rcases hover with ⟨hcancel, -⟩ | hover
      · exact .inl hcancel
      · right
        by_contra hactive
        cases hover.symm.trans (hmoved.active hfits (by simpa using hactive))
    · rw [hdisk] at hm'
      split at hm'
      · cases hm'
        exact hend
      · exact hd.manifest m' hm'
    · rw [ahead_at hworker, ahead_at hat, hlabel]
      simpa [EvalStep.chunks] using hmoved.ahead hcancelled
  | lost hruns hdisk hworker _ _ hquiet =>
    refine ⟨⟨hknown, fun r hr => ?_, fun m hm => hd.manifest m (hdisk ▸ hm)⟩, ?_⟩
    · cases hruns.symm.trans hr
    · rw [hquiet]
      refine ahead_le fun pc hw => ?_
      cases hworker.symm.trans hw
  | settled m _ hm hruns hdisk hworker _ hquiet =>
    have hne := settle_ne_completed (hd.manifest m hm)
    refine ⟨⟨hknown, fun r hr => ?_, fun m' hm' => ?_⟩, ?_⟩
    · cases hruns.symm.trans hr
      exact ⟨.inr m.settle_inactive, hne⟩
    · cases hdisk.symm.trans hm'
      exact hne
    · rw [hquiet]
      exact ahead_le fun pc hw => (ahead_at (hworker ▸ hw)).ge

theorem doomed_run {C : EvalServer ι → EvalStep ι → Prop} {as : List (EvalStep ι)} (h : (evalMachine ι).Reach C s) (hd : Doomed i s)
    (hm : (evalMachine ι).Meets C s as) (hr : (evalMachine ι).run s as = some t) :
    Doomed i t ∧ (as.map (EvalStep.chunks i)).sum ≤ s.ahead i := by
  induction as generalizing s with
  | nil =>
    obtain rfl := Option.some.inj hr
    exact ⟨hd, Nat.zero_le _⟩
  | cons a as ih =>
    rw [Machine.run_cons, Option.bind_eq_some_iff] at hr
    obtain ⟨u, hu, hr⟩ := hr
    obtain ⟨ha, hm⟩ := (Machine.meets_cons hu).mp hm
    obtain ⟨hd', hle⟩ := hd.step (inv_reach h) (outcome_reach h i) hu
    obtain ⟨hdt, hsum⟩ := ih (h.step ha hu) hd' hm hr
    refine ⟨hdt, ?_⟩
    rw [List.map_cons, List.sum_cons]
    omega

theorem doomed_of_accepted {C : EvalServer ι → EvalStep ι → Prop} (h : (evalMachine ι).Reach C s) (ha : s.Accepted i) : Doomed i s := by
  obtain ⟨r, hr, hcancel⟩ := ha
  have hinv := inv_reach h
  have ho := outcome_reach h i
  refine ⟨hinv.runs_known i (by simp [hr]), fun r' hr' => ?_, fun m hm hend => ?_⟩
  · cases hr.symm.trans hr'
    exact ⟨.inl hcancel, (ho.honest r hr hcancel).2⟩
  · have hstatus : r.status = .completed := by
      by_cases hup : s.phase = .up
      · obtain ⟨r₀, hr₀, hclosed⟩ := ho.manifest hup m hm
        cases hr.symm.trans hr₀
        rw [(hclosed (by rw [hend]; rfl)).1, hend]
      · cases hm.symm.trans (hinv.scanned hup i r hr).2
        exact hend
    exact (ho.honest r hr hcancel).2 hstatus

omit [DecidableEq ι] in
theorem LosesNoOutcome.saves (h : s.LosesNoOutcome a) : SavesSucceed s a := by
  cases a with
  | kill => rfl
  | _ => exact h

theorem Since.path {u : RunStatus} (h : (evalMachine ι).Reach SavesSucceed s) (hp : (evalMachine ι).Path LosesNoOutcome s t)
    (hi : s.status i = some u) : Since i u t := by
  obtain ⟨r, hr, rfl⟩ := Option.map_eq_some_iff.mp hi
  refine hp.keeps (I := Since i r.status) ⟨(inv_reach h).runs_known i (by simp [hr]), fun r' hr' => ?_, fun hnone => ?_⟩
    fun t a v hp' hsince ha hstep => ?_
  · cases hr.symm.trans hr'
    exact .inl rfl
  · cases hr.symm.trans hnone
  · have hreach : (evalMachine ι).Reach SavesSucceed t := h.path (hp'.mono fun _ _ => LosesNoOutcome.saves)
    refine hsince.step (inv_reach hreach) hstep (fun _ _ => calm_reach hreach i) fun hkill r' hr' hend => ?_
    subst hkill
    exact ha i (((inv_reach hreach).ids i).mpr (by simp [hr'])) r' hr' hend

/-- In every run whose saves succeed: the bound on active runs, the restart, the statuses of a run between any two states
    that no losing kill separates, and what follows an accepted cancel. -/
theorem run_lifecycle (h : (evalMachine ι).Reach SavesSucceed s) :
    s.activeCount ≤ maxActive ∧
    (∀ t, s.step .serve = some t → ∀ i, t.isActive i = false) ∧
    (∀ t, (evalMachine ι).Path LosesNoOutcome s t → ∀ i u v, s.status i = some u → t.status i = some v → u.mayBecome v) ∧
    ∀ i as t, s.Accepted i → (evalMachine ι).Meets SavesSucceed s as → (evalMachine ι).run s as = some t →
      (as.map (EvalStep.chunks i)).sum ≤ 1 ∧ t.status i ≠ some .completed := by
  have hinv := inv_reach h
  refine ⟨hinv.slots, fun t hs i => ?_, fun t hp i u v hu hv => ?_, fun i as t ha hm hr => ?_⟩
  · obtain ⟨⟨hphase, -⟩, hs⟩ := Option.ite_none_right_eq_some.mp hs
    obtain rfl := Option.some.inj hs
    by_contra hactive
    obtain ⟨r, hr, hactive⟩ := isActive_iff.mp (by simpa using hactive)
    cases hactive.symm.trans (hinv.scanned (by simp [hphase]) i r hr).1
  · obtain ⟨r, hr, rfl⟩ := Option.map_eq_some_iff.mp hv
    exact (Since.path h hp hu).memory r hr
  · obtain ⟨hd, hsum⟩ := doomed_run h (doomed_of_accepted h ha) hm hr
    refine ⟨hsum.trans (s.ahead_le_one i), fun hend => ?_⟩
    obtain ⟨r, hr, hstatus⟩ := Option.map_eq_some_iff.mp hend
    exact (hd.memory r hr).2 hstatus

end EvalServer

/-! ### A run that was completed and one that is cancelled, before a restart -/

/-- The next statement of the worker at run 0. -/
def next : EvalStep Nat := .work 0 (.advance none)

/-- A round trip, up to its status `completed`, and a restart. -/
def roundtrip : List (EvalStep Nat) := [.boot, .serve, .createRun 0 none, .submit 0, .take, next, next, next, next]
def restarted : List (EvalStep Nat) := [.kill, .boot, .scan 0 none, .serve]

/-- The restart fails the run that was completed. -/
theorem completed_fails : ∃ s t, (evalMachine Nat).run {} roundtrip = some s ∧ (evalMachine Nat).run s restarted = some t ∧
    (roundtrip ++ restarted).all EvalStep.saves = true ∧ s.status 0 = some .completed ∧ t.status 0 = some .failed :=
  ⟨_, _, rfl, rfl, rfl, rfl, rfl⟩

/-- A dream of two models, up to a cancel during its first chunk, and the rest of it with a restart. -/
def dream : List (EvalStep Nat) :=
  [.boot, .serve, .createPolicyRun 0 (.policyDream [.base, .ft] 3), .admitPolicyRun 0 none, .submit 0, .take, next, next, next,
    next, next, next, .cancelRun 0 none]
def dreamEnds : List (EvalStep Nat) :=
  [.work 0 .predict, next, next, next, next, next, next, .close 0, .kill, .boot, .scan 0 none, .serve]

def dreaming : EvalServer Nat := ((evalMachine Nat).run {} dream).getD {}

theorem run_lifecycle_dream : ∃ t, (evalMachine Nat).run {} dream = some dreaming ∧ (evalMachine Nat).run dreaming dreamEnds = some t ∧
    dreaming.activeCount ≤ EvalServer.maxActive ∧ RunStatus.running.mayBecome .cancelled ∧ t.status 0 = some .cancelled ∧
    (dreamEnds.map (EvalStep.chunks 0)).sum ≤ 1 := by
  have hends : ∃ t, (evalMachine Nat).run dreaming dreamEnds = some t ∧ t.status 0 = some .cancelled := ⟨_, rfl, rfl⟩
  obtain ⟨t, ht, hcancelled⟩ := hends
  have hdream : (evalMachine Nat).run {} dream = some dreaming := rfl
  have hreach : (evalMachine Nat).Reach SavesSucceed dreaming := ⟨{}, rfl, Machine.path_of_run hdream (by decide)⟩
  have hpath : (evalMachine Nat).Path EvalServer.LosesNoOutcome dreaming t := Machine.path_of_run ht (by decide)
  obtain ⟨hslots, -, hstatus, hcancel⟩ := EvalServer.run_lifecycle hreach
  have haccepted : dreaming.Accepted 0 := ⟨_, rfl, rfl⟩
  exact ⟨t, rfl, ht, hslots, hstatus t hpath 0 _ _ rfl hcancelled, hcancelled,
    (hcancel 0 dreamEnds t haccepted (by decide) ht).1⟩

end HumanoidLab
