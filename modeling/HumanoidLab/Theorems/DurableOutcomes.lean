import HumanoidLab.Theorems.RunLifecycle

/-! What clients are shown of a run that has ended. Once a client has been shown how a run ended, it is shown the same from
    then on, unless the server is killed before that status is saved, its save raises, or the manifest is read first. -/

namespace HumanoidLab
open Concurrency

variable {ι : Type} [DecidableEq ι] {s s' t t' : EvalServer ι} {a b : EvalStep ι} {i : ι}

namespace EvalServer

/-- The status that the response to a request shows of run `i`. -/
def shown (s : EvalServer ι) (i : ι) : EvalStep ι → Option RunStatus
  | .listRuns => s.status i
  | .getRun j => if j = i then s.status i else none
  | .cancelRun j error => if j = i then (s.runs i).bind fun r =>
      if r.config.policy ∧ (r.status.active → error = none) then some r.status else none
    else none
  -- The manifest is among the files that are served.
  | .artifact j => if j = i then (s.disk i).map (·.status) else none
  | .createRun j error => if j = i ∧ error = none then some .queued else none
  | .admitPolicyRun j error => if j = i ∧ error = none ∧ s.activeCount < maxActive then some .queued else none
  | _ => none

/-- The step loses nothing of how run `i` has ended: a kill finds it in the manifest, the handler of an exception does not
    find an ended run, and the manifest is not read before it is saved. -/
def KeepsOutcome (i : ι) (s : EvalServer ι) : EvalStep ι → Prop
  | .kill => ∀ r ∈ s.runs i, r.status.active = false → (s.disk i).map (·.settle.status) = some r.status
  | .work j _ => j = i → s.Calm i
  | .artifact j => j = i → ∀ r ∈ s.runs i, r.status.active = false → (s.disk i).map (·.status) = some r.status
  | _ => True

/-- What is shown is in memory, except that a manifest may be behind, and that a new run is queued. -/
theorem status_of_shown (ho : Outcome s i) (hstep : s.step a = some t) {u : RunStatus} (hu : s.shown i a = some u) :
    s.status i = some u ∨
    (a = .artifact i ∧ ∃ m r, s.disk i = some m ∧ m.status = u ∧ s.runs i = some r ∧ (u.active = false → r.status = u)) ∨
    (¬s.Known i ∧ u = .queued) := by
  cases a with
  | listRuns => exact .inl hu
  | getRun j => exact .inl (Option.ite_none_right_eq_some.mp hu).2
  | cancelRun j error =>
    obtain ⟨-, hu⟩ := Option.ite_none_right_eq_some.mp hu
    obtain ⟨r, hr, hu⟩ := Option.bind_eq_some_iff.mp hu
    obtain ⟨-, hu⟩ := Option.ite_none_right_eq_some.mp hu
    left
    rw [status, hr]
    exact hu
  | artifact j =>
    obtain ⟨rfl, hu⟩ := Option.ite_none_right_eq_some.mp hu
    obtain ⟨m, hm, rfl⟩ := Option.map_eq_some_iff.mp hu
    obtain ⟨hup, -⟩ := Option.ite_none_right_eq_some.mp hstep
    obtain ⟨r, hr, hclosed⟩ := ho.manifest hup m hm
    exact .inr (.inl ⟨rfl, m, r, hm, rfl, hr, fun hend => (hclosed hend).1⟩)
  | createRun j error =>
    obtain ⟨⟨rfl, -⟩, hqueued⟩ := Option.ite_none_right_eq_some.mp hu
    obtain ⟨⟨-, hdir, -⟩, -⟩ := Option.ite_none_right_eq_some.mp hstep
    exact .inr (.inr ⟨fun hknown => hdir hknown.1, (Option.some.inj hqueued).symm⟩)
  | admitPolicyRun j error =>
    obtain ⟨⟨rfl, -⟩, hqueued⟩ := Option.ite_none_right_eq_some.mp hu
    obtain ⟨config, hconfig, -⟩ := Option.map_eq_some_iff.mp hstep
    exact .inr (.inr ⟨not_known_of_snapshot hconfig, (Option.some.inj hqueued).symm⟩)
  | createPolicyRun j config | snapshotRaises j | submit j | take | importRaises j | work j act | close j | kill | boot
    | scan j error | serve => cases hu

/-- A run that has ended and was shown so. -/
theorem since_of_shown (h : (evalMachine ι).Reach Machine.Free s) (hstep : s.step a = some t) {u : RunStatus}
    (hu : s.shown i a = some u) (hend : u.active = false) : Since i u s ∧ s.status i = some u := by
  have hinv := inv_reach h
  have hstatus : s.status i = some u := by
    rcases status_of_shown (outcome_reach h i) hstep hu with hstatus | ⟨-, m, r, -, -, hr, hclosed⟩ | ⟨-, rfl⟩
    · exact hstatus
    · rw [status, hr, Option.map_some, hclosed hend]
    · cases hend
  obtain ⟨r, hr, rfl⟩ := Option.map_eq_some_iff.mp hstatus
  refine ⟨⟨hinv.runs_known i (by simp [hr]), fun r' hr' => ?_, fun hnone => ?_⟩, hstatus⟩
  · cases hr.symm.trans hr'
    exact .inl rfl
  · cases hr.symm.trans hnone

theorem Since.step_kept {u : RunStatus} (hsince : Since i u s) (h : Inv s) (hs : s.step a = some t) (hkeep : s.KeepsOutcome i a) :
    Since i u t := by
  refine hsince.step h hs (fun act hact => ?_) fun hkill r hr hend => ?_
  · subst hact
    exact hkeep rfl
  · subst hkill
    exact hkeep r hr hend

/-- From the step that shows a client how run `i` has ended, in every run whose further steps keep the outcome, every
    status that is shown of it is that one. -/
theorem durable_outcomes (h : (evalMachine ι).Reach Machine.Free s) (ha : s.step a = some s') {u v : RunStatus}
    (hu : s.shown i a = some u) (hend : u.active = false) (hp : (evalMachine ι).Path (KeepsOutcome i) s' t)
    (hb : t.step b = some t') (hkeep : t.KeepsOutcome i b) (hv : t.shown i b = some v) : v = u := by
  obtain ⟨hsince, -⟩ := since_of_shown h ha hu hend
  have hshowing : Since i u s' := by
    refine hsince.step (inv_reach h) ha (fun act hact => ?_) fun hkill => ?_
    · subst hact
      cases hu
    · subst hkill
      cases hu
  have hreach : ∀ t, (evalMachine ι).Path (KeepsOutcome i) s' t → (evalMachine ι).Reach Machine.Free t := fun t hp =>
    (h.step trivial ha).path (hp.mono fun _ _ _ => trivial)
  have hsince' : Since i u t := hp.keeps hshowing fun t a t' hp' hsince hkeep hstep =>
    hsince.step_kept (inv_reach (hreach t hp')) hstep hkeep
  have hstays : ∀ r, t.runs i = some r → r.status = u := fun r hr => RunStatus.eq_of_mayBecome hend (hsince'.memory r hr)
  rcases status_of_shown (outcome_reach (hreach t hp) i) hb hv with
    hstatus | ⟨rfl, m, r, hm, rfl, hr, -⟩ | ⟨hnew, -⟩
  · obtain ⟨r, hr, rfl⟩ := Option.map_eq_some_iff.mp hstatus
    exact hstays r hr
  · have hread := hkeep rfl r hr (hstays r hr ▸ hend)
    rw [hm] at hread
    exact (Option.some.inj hread).trans (hstays r hr)
  · exact absurd hsince'.known hnew

end EvalServer

/-! ### A run that is shown completed, and one that is shown cancelled, before a restart -/

/-- A client is shown the round trip completed, and after the restart failed. -/
theorem completed_shown_failed : ∃ s t, (evalMachine Nat).run {} roundtrip = some s ∧ (s.step .listRuns).isSome = true ∧
    s.shown 0 .listRuns = some .completed ∧ (evalMachine Nat).run s restarted = some t ∧ (t.step .listRuns).isSome = true ∧
    t.shown 0 .listRuns = some .failed := ⟨_, _, rfl, rfl, rfl, rfl, rfl, rfl⟩

-- Without a kill: the save of the status raises.
example : ∃ s t, (evalMachine Nat).run {} roundtrip = some s ∧ s.shown 0 .listRuns = some .completed ∧
    (evalMachine Nat).run s [.work 0 (.advance (some "No space left on device")), next] = some t ∧
    t.shown 0 .listRuns = some .failed := ⟨_, _, rfl, rfl, rfl, rfl⟩

/-- The dream after its worker has left it. -/
def dreamt : EvalServer Nat := ((evalMachine Nat).run {} (dream ++ dreamEnds.take 8)).getD {}

theorem durable_outcomes_dream : ∃ t v, dreamt.shown 0 .listRuns = some .cancelled ∧ (evalMachine Nat).run dreamt restarted = some t ∧
    t.shown 0 (.artifact 0) = some v ∧ v = .cancelled := by
  have hrestart : ∃ t t' v, (evalMachine Nat).run dreamt restarted = some t ∧ t.step (.artifact 0) = some t' ∧
      t.shown 0 (.artifact 0) = some v ∧ ∀ r ∈ t.runs 0, (t.disk 0).map (·.status) = some r.status :=
    ⟨_, _, _, rfl, rfl, rfl, by decide⟩
  obtain ⟨t, t', v, ht, hb, hv, hsaved⟩ := hrestart
  have hreach : (evalMachine Nat).Reach Machine.Free dreamt :=
    ⟨{}, rfl, Machine.path_of_run (show (evalMachine Nat).run {} (dream ++ dreamEnds.take 8) = some dreamt from rfl)
      (Machine.meets_free _ _)⟩
  have hkill : ∀ r ∈ dreamt.runs 0, r.status.active = false → (dreamt.disk 0).map (·.settle.status) = some r.status := by decide
  have hpath : (evalMachine Nat).Path (EvalServer.KeepsOutcome 0) dreamt t :=
    Machine.path_of_run ht ⟨hkill, trivial, trivial, trivial, trivial⟩
  exact ⟨t, v, rfl, ht, hv, EvalServer.durable_outcomes hreach (show dreamt.step .listRuns = some dreamt from rfl) rfl rfl hpath hb
    (fun _ r hr _ => hsaved r hr) hv⟩

end HumanoidLab
