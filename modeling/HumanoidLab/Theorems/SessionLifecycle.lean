import HumanoidLab.Theorems.SessionSteps

/-! The lifecycle of a session over every interleaving of calls and streaming threads: RUNNING is
    recorded for the latest start and only while no call has withdrawn it, and ERROR is left by a reset
    or by a new policy. A call that withdraws a start sets the stop event, and a streaming thread looks
    at it before it records RUNNING: the law holds of the runs in which nothing falls between the two,
    and in which a start clears no stop event that was set for it. -/

namespace HumanoidLab
open Concurrency

/-- The generation of the latest start that was accepted. -/
def latestStart : List Event → Option Nat
  | [] => none
  | .accepted g :: _ => some g
  | _ :: es => latestStart es

/-- What was recorded since the latest start was accepted. -/
def sinceStart : List Event → List Event
  | [] => []
  | .accepted _ :: _ => []
  | e :: es => e :: sinceStart es

/-- Since the latest start was accepted, a call that withdraws it was made and has returned. -/
def Withdrawn (log : List Event) : Prop :=
  ∃ i r, r.withdraws = true ∧ [Event.ret i r, Event.call i r].Sublist (sinceStart log)

/-- The law of a step of thread `i`. -/
structure Lawful (p : Pool (Guarded World) (Place Point Section)) (i : Nat)
    (q : Pool (Guarded World) (Place Point Section)) : Prop where
  /-- RUNNING is entered on behalf of the latest start, and no call has withdrawn it. -/
  entered : q.shared.data.session.state = .running → p.shared.data.session.state = .running ∨
    ∃ g, p.threads i = .inside (.loop g .announce) ∧ latestStart p.shared.data.log = some g ∧
      ¬Withdrawn p.shared.data.log
  /-- ERROR is left through `reset` or `adopt_policy`. -/
  left : p.shared.data.session.state = .error → q.shared.data.session.state = .error ∨
    (∃ e, p.threads i = .inside (.resetClear e)) ∨ ∃ info, p.threads i = .inside (.adoptPolicy info)

/-- The latest start is the one that the session is at. -/
def Live (w : World) : Prop := latestStart w.log = some w.session.generation

/-- What thread `i` steps past without a race: `start` clears the stop event while every call that
    withdraws the start has yet to set it and nothing has recorded an error; `_is_current` answers yes
    while no `mark_error` that has recorded an error has yet to set it; and no `mark_error` takes its
    block, and no call that withdraws the start returns, between that answer and the record of RUNNING. -/
def Unraced (p : Pool (Guarded World) (Place Point Section)) (a : Nat × Choice) : Prop :=
  let w := p.shared.data
  match p.threads a.1 with
  | .at (.startStop _) => Live w → w.session.state ≠ .error ∧ ¬Withdrawn w.log ∧
      ∀ j r, r.withdraws = true → .call j r ∈ sinceStart w.log → beforeSet (p.threads j) = true
  | .inside (.loop g (.current .connected)) => w.session.isCurrent g = true →
      ¬(w.session.state = .error ∧ ∃ j, marking (p.threads j) = true)
  | .inside (.markError _) => ∀ j, admitted w.session.generation (p.threads j) = false
  | .at (.done r _) => r.withdraws = true → .call a.1 r ∈ sinceStart w.log →
      ∀ j, admitted w.session.generation (p.threads j) = false
  | _ => True

/-! ### What the record says of the session -/

section
variable {i : Nat} {pl pl' : Place Point Section} {w w' : World}

/-- A start of the current generation is the latest one. -/
def Known (w : World) (g : Nat) : Prop :=
  g ≤ w.session.generation ∧ (g = w.session.generation → latestStart w.log = some g)

/-- How a step changes the record: not at all, by an event that is no start, or by an accepted start. -/
theorem Moves.record (h : Moves i pl w pl' w') :
    (latestStart w'.log = latestStart w.log ∧ w'.session.generation = w.session.generation ∧
      (sinceStart w'.log = sinceStart w.log ∨ (∃ r, sinceStart w'.log = .call i r :: sinceStart w.log ∧ pl' = r.entry.place) ∨
        (∃ r res, sinceStart w'.log = .ret i r :: sinceStart w.log ∧ pl = .at (.done r res)) ∨
        sinceStart w'.log = .ended :: sinceStart w.log)) ∨
    (w'.session.generation = w.session.generation + 1 ∧ (w'.log = w.log ∨
      w'.log = .accepted (w.session.generation + 1) :: w.log ∧ w'.session.state ≠ .error)) := by
  cases h with
  | quiet same log =>
    obtain ⟨-, -, -, hg⟩ := Session.lifecycle_eq same
    exact Or.inl ⟨by rw [log], hg, Or.inl (by rw [log])⟩
  | called r at_ goes same log =>
    obtain ⟨-, -, -, hg⟩ := Session.lifecycle_eq same
    exact Or.inl ⟨by rw [log]; rfl, hg, Or.inr (Or.inl ⟨r, by rw [log]; rfl, goes⟩)⟩
  | returned r res at_ goes same log =>
    obtain ⟨-, -, -, hg⟩ := Session.lifecycle_eq same
    exact Or.inl ⟨by rw [log]; rfl, hg, Or.inr (Or.inr (Or.inl ⟨r, res, by rw [log]; rfl, at_⟩))⟩
  | accepted at_ settled state session log => exact Or.inr ⟨by rw [session]; rfl, Or.inr ⟨log, by rw [session]; exact state.2⟩⟩
  | stopFinish r at_ session log =>
    exact Or.inl ⟨by rw [log]; rfl, by rw [session]; rfl, Or.inr (Or.inr (Or.inr (by rw [log]; rfl)))⟩
  | resetClear e at_ session log => exact Or.inr ⟨by rw [session]; rfl, Or.inl log⟩
  | markError m at_ session log =>
    exact Or.inl ⟨by rw [log]; rfl, by rw [session]; rfl, Or.inr (Or.inr (Or.inr (by rw [log]; rfl)))⟩
  | adoptPolicy info at_ session log =>
    exact Or.inl ⟨by rw [log], by rw [session]; rfl, Or.inl (by rw [log])⟩
  | announce g at_ current session log => exact Or.inl ⟨by rw [log], by rw [session]; rfl, Or.inl (by rw [log])⟩
  | fail g m at_ current session log =>
    exact Or.inl ⟨by rw [log]; rfl, by rw [session]; rfl, Or.inr (Or.inr (Or.inr (by rw [log]; rfl)))⟩

theorem Known.step {g : Nat} (hk : Known w g) (h : Moves i pl w pl' w') : Known w' g := by
  obtain ⟨hle, heq⟩ := hk
  rcases h.record with ⟨hl, hg, -⟩ | ⟨hg, -⟩
  · exact ⟨hg ▸ hle, fun h => hl ▸ heq (hg ▸ h)⟩
  · exact ⟨by omega, fun h => by omega⟩

/-- The block that records an error is that of `mark_error`, of `_fail` or of a reset whose scene reset failed. -/
theorem Moves.errs (h : Moves i pl w pl' w') (he : w'.session.state = .error) :
    w.session.state = .error ∨ (∃ m, pl = .inside (.markError m)) ∨ (∃ m, pl = .inside (.loop w.session.generation (.fail m))) ∨
      w'.session.generation = w.session.generation + 1 ∧ w'.log = w.log := by
  cases h with
  | quiet same _ => exact Or.inl ((Session.lifecycle_eq same).1 ▸ he)
  | called _ _ _ same _ => exact Or.inl ((Session.lifecycle_eq same).1 ▸ he)
  | returned _ _ _ _ same _ => exact Or.inl ((Session.lifecycle_eq same).1 ▸ he)
  | accepted _ _ _ session _ => exact Or.inl (by rwa [session] at he)
  | stopFinish _ _ session _ =>
    rw [session] at he
    simp only [Session.stopFinish] at he
    split at he
    · cases he
    · exact Or.inl he
  | resetClear e _ session log => exact Or.inr (Or.inr (Or.inr ⟨by rw [session]; rfl, log⟩))
  | markError m at_ _ _ => exact Or.inr (Or.inl ⟨m, at_⟩)
  | adoptPolicy info _ session _ =>
    rw [session] at he
    by_cases hr : w.session.state = .running <;> simp [Session.adoptPolicy, hr] at he
  | announce _ _ _ session _ =>
    rw [session] at he
    cases he
  | fail g m at_ current _ _ => exact Or.inr (Or.inr (Or.inl ⟨m, current ▸ at_⟩))

end

/-! ### One streaming thread a start -/

section
variable {i : Nat} {c : Choice} {p : Pool (Guarded World) (Place Point Section)} {r : Place Point Section × Guarded World}

/-- A start has one streaming thread, which waits to be started, or waits to run, or runs. -/
structure Sole (p : Pool (Guarded World) (Place Point Section)) : Prop where
  alone : ∀ i j g, loopOf (p.threads i) = some g → loopOf (p.threads j) = some g → i = j
  unspawned : ∀ i g, loopOf (p.threads i) = some g → g ∉ p.shared.data.spawned
  once : p.shared.data.spawned.Nodup
  known : ∀ i g, loopOf (p.threads i) = some g → Known p.shared.data g
  waiting : ∀ g ∈ p.shared.data.spawned, Known p.shared.data g
  latest : ∀ g, latestStart p.shared.data.log = some g → g ≤ p.shared.data.session.generation

theorem Sole.step (h : Sole p) (hr : sessionProgram.threads i (p.threads i) c p.shared = some r) : Sole (p.set i r) := by
  have hmoves := step_moves hr
  have hlatest : ∀ g, latestStart r.2.data.log = some g → g ≤ r.2.data.session.generation := by
    intro g hg
    rcases hmoves.record with ⟨hl, hgen, -⟩ | ⟨hgen, hl | ⟨hl, -⟩⟩
    · rw [hgen]
      exact h.latest g (hl ▸ hg)
    · have := h.latest g (hl ▸ hg)
      omega
    · rw [hl] at hg
      cases hg
      omega
  -- what the streaming threads of the new state are, seen from the old one
  have hof {j g : Nat} (hj : loopOf ((p.set i r).threads j) = some g) : j = i ∧ loopOf r.1 = some g ∨
      j ≠ i ∧ loopOf (p.threads j) = some g := by
    by_cases hij : j = i
    · subst hij
      rw [Pool.set_self] at hj
      exact Or.inl ⟨rfl, hj⟩
    · rw [Pool.set_other p r hij] at hj
      exact Or.inr ⟨hij, hj⟩
  cases step_keeping hr with
  | keeps own spawned =>
    have hold {j g : Nat} (hj : loopOf ((p.set i r).threads j) = some g) : loopOf (p.threads j) = some g := by
      rcases hof hj with ⟨rfl, hg⟩ | ⟨-, hg⟩
      · exact own g hg
      · exact hg
    refine ⟨fun j k g hj hk => h.alone j k g (hold hj) (hold hk), fun j g hj => ?_, ?_, fun j g hj => (h.known j g (hold hj)).step hmoves,
      fun g hg => ?_, hlatest⟩ <;> rw [Pool.set_shared] at * <;> rw [spawned] at *
    · exact h.unspawned j g (hold hj)
    · exact h.once
    · exact (h.waiting g hg).step hmoves
  | opens own session log spawned =>
    have hgen : r.2.data.session.generation = p.shared.data.session.generation + 1 := by rw [session]; rfl
    have hnew {j g : Nat} (hj : loopOf ((p.set i r).threads j) = some g) :
        j = i ∧ g = p.shared.data.session.generation + 1 ∨ loopOf (p.threads j) = some g ∧ g ≤ p.shared.data.session.generation := by
      rcases hof hj with ⟨rfl, hg⟩ | ⟨-, hg⟩
      · exact Or.inl ⟨rfl, Option.some.inj (hg.symm.trans own)⟩
      · exact Or.inr ⟨hg, (h.known j g hg).1⟩
    refine ⟨fun j k g hj hk => ?_, fun j g hj hg => ?_, by rw [Pool.set_shared, spawned]; exact h.once, fun j g hj => ?_,
      fun g hg => ?_, hlatest⟩
    · rcases hnew hj with ⟨rfl, hg⟩ | ⟨hj, hg⟩ <;> rcases hnew hk with ⟨rfl, hg'⟩ | ⟨hk, hg'⟩
      · rfl
      · omega
      · omega
      · exact h.alone j k g hj hk
    · rw [Pool.set_shared, spawned] at hg
      rcases hnew hj with ⟨-, rfl⟩ | ⟨hj, -⟩
      · have := (h.waiting _ hg).1
        omega
      · exact h.unspawned j g hj hg
    · rcases hnew hj with ⟨-, rfl⟩ | ⟨hj, -⟩
      · exact ⟨Nat.le_of_eq hgen.symm, fun _ => by rw [Pool.set_shared, log]; rfl⟩
      · exact (h.known j g hj).step hmoves
    · rw [Pool.set_shared, spawned] at hg
      exact (h.waiting g hg).step hmoves
  | gives g own goes spawned =>
    have hold {j k : Nat} (hj : loopOf ((p.set i r).threads j) = some k) : j ≠ i ∧ loopOf (p.threads j) = some k := by
      rcases hof hj with ⟨rfl, hg⟩ | hj
      · rw [goes] at hg
        cases hg
      · exact hj
    refine ⟨fun j k g' hj hk => h.alone j k g' (hold hj).2 (hold hk).2, fun j k hj hk => ?_, ?_,
      fun j k hj => (h.known j k (hold hj).2).step hmoves, fun k hk => ?_, hlatest⟩
    · rw [Pool.set_shared, spawned] at hk
      rcases List.mem_cons.mp hk with rfl | hk
      · exact (hold hj).1 (h.alone j i k (hold hj).2 own)
      · exact h.unspawned j k (hold hj).2 hk
    · rw [Pool.set_shared, spawned]
      exact List.nodup_cons.mpr ⟨h.unspawned i g own, h.once⟩
    · rw [Pool.set_shared, spawned] at hk
      rcases List.mem_cons.mp hk with rfl | hk
      · exact (h.known i k own).step hmoves
      · exact (h.waiting k hk).step hmoves
  | takes g mem own spawned =>
    have hnew {j k : Nat} (hj : loopOf ((p.set i r).threads j) = some k) : j = i ∧ k = g ∨ loopOf (p.threads j) = some k := by
      rcases hof hj with ⟨rfl, hg⟩ | ⟨-, hg⟩
      · exact Or.inl ⟨rfl, Option.some.inj (hg.symm.trans own)⟩
      · exact Or.inr hg
    refine ⟨fun j k g' hj hk => ?_, fun j k hj hk => ?_, by rw [Pool.set_shared, spawned]; exact h.once.erase g, fun j k hj => ?_,
      fun k hk => ?_, hlatest⟩
    · rcases hnew hj with ⟨rfl, rfl⟩ | hold <;> rcases hnew hk with ⟨rfl, heq⟩ | hold'
      · rfl
      · exact absurd mem (h.unspawned k _ hold')
      · exact absurd (heq ▸ mem) (h.unspawned j _ hold)
      · exact h.alone j k g' hold hold'
    · rw [Pool.set_shared, spawned] at hk
      rcases hnew hj with ⟨-, rfl⟩ | hj
      · exact h.once.not_mem_erase hk
      · exact h.unspawned j k hj (List.mem_of_mem_erase hk)
    · rcases hnew hj with ⟨-, rfl⟩ | hj
      · exact (h.waiting k mem).step hmoves
      · exact (h.known j k hj).step hmoves
    · rw [Pool.set_shared, spawned] at hk
      exact (h.waiting k (List.mem_of_mem_erase hk)).step hmoves

theorem sole_init : Sole sessionInit where
  alone _ _ _ h := by cases h
  unspawned _ _ h := by cases h
  once := List.nodup_nil
  known _ _ h := by cases h
  waiting _ h := by cases h
  latest _ h := by cases h

theorem sole_reach {C : Pool (Guarded World) (Place Point Section) → Nat × Choice → Prop} (h : sessionMachine.Reach C p) : Sole p := by
  refine h.invariant ?_ fun p a q _ hI _ hs => ?_
  · rintro _ rfl
    exact sole_init
  · obtain ⟨r, hr, rfl⟩ := Threads.step_eq_some.mp hs
    exact hI.step hr

/-- A thread that has yet to record RUNNING for the current generation is the streaming thread of the latest start. -/
theorem Sole.live (h : Sole p) {j : Nat} (hj : admitted p.shared.data.session.generation (p.threads j) = true) :
    loopOf (p.threads j) = some p.shared.data.session.generation ∧ Live p.shared.data := by
  have hof := loopOf_admitted hj
  exact ⟨hof, (h.known j _ hof).2 rfl⟩

/-! ### The stop event -/

/-- What the stop event says of the calls that withdraw the latest start, of an error, and to a thread that has looked at it. -/
structure Heeded (p : Pool (Guarded World) (Place Point Section)) : Prop where
  called : Live p.shared.data → ∀ j r, r.withdraws = true → .call j r ∈ sinceStart p.shared.data.log →
    beforeSet (p.threads j) = true ∨ p.shared.data.session.stopEvent = true
  withdrawn : Live p.shared.data → Withdrawn p.shared.data.log → p.shared.data.session.stopEvent = true
  error : Live p.shared.data → p.shared.data.session.state = .error → p.shared.data.session.stopEvent = true ∨
    (∃ j, marking (p.threads j) = true) ∨ ∃ j, failing p.shared.data.session.generation (p.threads j) = true
  passed : ∀ j, admitted p.shared.data.session.generation (p.threads j) = true →
    p.shared.data.session.state ≠ .error ∧ ¬Withdrawn p.shared.data.log

/-- The event that withdraws a start is the return of a call that was made since. -/
theorem withdrawn_cons {log log' : List Event} {e : Event} (hlog : sinceStart log' = e :: sinceStart log) (h : Withdrawn log') :
    Withdrawn log ∨ ∃ i r, r.withdraws = true ∧ e = .ret i r ∧ .call i r ∈ sinceStart log := by
  obtain ⟨i, r, hr, h⟩ := h
  rw [hlog] at h
  cases h with
  | cons _ h => exact Or.inl ⟨i, r, hr, h⟩
  | cons_cons _ h => exact Or.inr ⟨i, r, hr, rfl, List.singleton_sublist.mp h⟩

/-- After a step the latest start is the one of the session because it was accepted, or because it was and the step is in its record. -/
theorem Sole.live_step (h : Sole p) (hr : sessionProgram.threads i (p.threads i) c p.shared = some r) (hl : Live r.2.data) :
    (sinceStart r.2.data.log = [] ∧ r.2.data.session.state ≠ .error) ∨
      (Live p.shared.data ∧ r.2.data.session.generation = p.shared.data.session.generation ∧
        (sinceStart r.2.data.log = sinceStart p.shared.data.log ∨
          ∃ e, sinceStart r.2.data.log = e :: sinceStart p.shared.data.log ∧
            (∀ j q, e = .call j q → j = i ∧ r.1 = q.entry.place) ∧
            ∀ j q, e = .ret j q → j = i ∧ ∃ res, p.threads i = .at (.done q res))) := by
  rcases (step_moves hr).record with ⟨hlatest, hgen, hsince⟩ | ⟨hgen, hlog | ⟨hlog, hstate⟩⟩
  · refine Or.inr ⟨by rw [Live, ← hlatest, ← hgen]; exact hl, hgen, ?_⟩
    rcases hsince with hsince | ⟨q, hsince, hgoes⟩ | ⟨q, res, hsince, hat⟩ | hsince
    · exact Or.inl hsince
    · refine Or.inr ⟨_, hsince, fun j q' he => ?_, nofun⟩
      cases he
      exact ⟨rfl, hgoes⟩
    · refine Or.inr ⟨_, hsince, nofun, fun j q' he => ?_⟩
      cases he
      exact ⟨rfl, res, hat⟩
    · exact Or.inr ⟨_, hsince, nofun, nofun⟩
  · rw [Live, hlog, hgen] at hl
    have := h.latest _ hl
    omega
  · exact Or.inl ⟨by rw [hlog]; rfl, hstate⟩

/-- A step withdraws the latest start where it is the return of a call. -/
theorem withdrawn_of_since {w w' : World} (hsince : sinceStart w'.log = sinceStart w.log ∨
      ∃ e, sinceStart w'.log = e :: sinceStart w.log ∧ (∀ j q, e = .call j q → j = i ∧ r.1 = q.entry.place) ∧
        ∀ j q, e = .ret j q → j = i ∧ ∃ res, p.threads i = .at (.done q res)) (hw : Withdrawn w'.log) :
    Withdrawn w.log ∨ ∃ q res, q.withdraws = true ∧ p.threads i = .at (.done q res) ∧ .call i q ∈ sinceStart w.log := by
  rcases hsince with hsince | ⟨e, hsince, -, hreturned⟩
  · exact Or.inl (by rw [Withdrawn, ← hsince]; exact hw)
  · rcases withdrawn_cons hsince hw with hw | ⟨j, q, hq, he, hcall⟩
    · exact Or.inl hw
    · obtain ⟨rfl, res, hat⟩ := hreturned j q he
      exact Or.inr ⟨q, res, hq, hat, hcall⟩

theorem not_withdrawn_nil {log : List Event} (h : sinceStart log = []) : ¬Withdrawn log := by
  rintro ⟨_, _, -, hsub⟩
  rw [h] at hsub
  cases hsub

theorem Unraced.clears (hc : Unraced p (i, c)) (hfrees : frees (p.threads i) = true) : Live p.shared.data →
    p.shared.data.session.state ≠ .error ∧ ¬Withdrawn p.shared.data.log ∧
      ∀ j q, q.withdraws = true → .call j q ∈ sinceStart p.shared.data.log → beforeSet (p.threads j) = true := by
  obtain ⟨g, hat⟩ := frees_eq hfrees
  simpa only [Unraced, hat] using hc

section
variable (h : Heeded p) (hs : Sole p) (hc : Unraced p (i, c)) (hr : sessionProgram.threads i (p.threads i) c p.shared = some r)
include h hs hc hr

theorem Heeded.called_step (hl : Live r.2.data) (j : Nat) (q : Request) (hq : q.withdraws = true)
    (hcall : .call j q ∈ sinceStart r.2.data.log) :
    beforeSet ((p.set i r).threads j) = true ∨ r.2.data.session.stopEvent = true := by
  rcases hs.live_step hr hl with ⟨hnil, -⟩ | ⟨hlive, -, hsince⟩
  · rw [hnil] at hcall
    cases hcall
  have hold : .call j q ∈ sinceStart p.shared.data.log ∨ j = i ∧ r.1 = q.entry.place := by
    rcases hsince with hsince | ⟨e, hsince, hcalled, -⟩
    · exact Or.inl (hsince ▸ hcall)
    · rw [hsince] at hcall
      rcases List.mem_cons.mp hcall with he | hcall
      · exact Or.inr (hcalled j q he.symm)
      · exact Or.inl hcall
  rcases hold with hold | ⟨rfl, hentry⟩
  · by_cases hij : j = i
    · subst hij
      rw [Pool.set_self]
      by_cases hfrees : frees (p.threads j) = true
      · -- a thread that clears the stop event is in `start`
        have hbefore := (hc.clears hfrees hlive).2.2 j q hq hold
        obtain ⟨g, hat⟩ := frees_eq hfrees
        rw [hat] at hbefore
        cases hbefore
      · rcases h.called hlive j q hq hold with hbefore | hset
        · exact (step_spans hr).unset hbefore
        · exact Or.inr (stopEvent_kept hr hset (by simpa using hfrees))
    · rw [Pool.set_other p r hij]
      by_cases hfrees : frees (p.threads i) = true
      · exact Or.inl ((hc.clears hfrees hlive).2.2 j q hq hold)
      · exact (h.called hlive j q hq hold).imp_right fun hset => stopEvent_kept hr hset (by simpa using hfrees)
  · rw [Pool.set_self, hentry]
    cases q with
    | stop | reset | markError m => exact Or.inl rfl
    | _ => cases hq

theorem Heeded.withdrawn_step (hl : Live r.2.data) (hw : Withdrawn r.2.data.log) : r.2.data.session.stopEvent = true := by
  rcases hs.live_step hr hl with ⟨hnil, -⟩ | ⟨hlive, -, hsince⟩
  · exact absurd hw (not_withdrawn_nil hnil)
  rcases withdrawn_of_since hsince hw with hold | ⟨q, res, hq, hat, hcall⟩
  · refine stopEvent_kept hr (h.withdrawn hlive hold) ?_
    by_contra hfrees
    exact (hc.clears (by simpa using hfrees) hlive).2.1 hold
  · refine stopEvent_kept hr ((h.called hlive i q hq hcall).resolve_left ?_) (by rw [hat]; rfl)
    rw [hat]
    exact Bool.false_ne_true

theorem Heeded.error_step (hl : Live r.2.data) (he : r.2.data.session.state = .error) : r.2.data.session.stopEvent = true ∨
    (∃ j, marking ((p.set i r).threads j) = true) ∨
      ∃ j, failing r.2.data.session.generation ((p.set i r).threads j) = true := by
  rcases hs.live_step hr hl with ⟨-, hstate⟩ | ⟨hlive, hgen, -⟩
  · exact absurd he hstate
  rw [hgen]
  have hspans := step_spans hr
  rcases (step_moves hr).errs he with hold | ⟨m, hat⟩ | ⟨m, hat⟩ | ⟨hnext, -⟩
  · have hfrees : frees (p.threads i) = false := by
      by_contra hfrees
      exact (hc.clears (by simpa using hfrees) hlive).1 hold
    rcases h.error hlive hold with hset | ⟨j, hj⟩ | ⟨j, hj⟩
    · exact Or.inl (stopEvent_kept hr hset hfrees)
    · by_cases hij : j = i
      · subst hij
        rcases hspans.marked hj with hj | hset
        · exact Or.inr (Or.inl ⟨j, by rw [Pool.set_self]; exact hj⟩)
        · exact Or.inl hset
      · exact Or.inr (Or.inl ⟨j, by rw [Pool.set_other p r hij]; exact hj⟩)
    · by_cases hij : j = i
      · subst hij
        rcases hspans.failed _ hj with hj | hset
        · exact Or.inr (Or.inr ⟨j, by rw [Pool.set_self]; exact hj⟩)
        · exact Or.inl hset
      · exact Or.inr (Or.inr ⟨j, by rw [Pool.set_other p r hij]; exact hj⟩)
  · exact Or.inr (Or.inl ⟨i, by rw [Pool.set_self]; exact hspans.marks m hat⟩)
  · exact Or.inr (Or.inr ⟨i, by rw [Pool.set_self]; exact hspans.fails m hat⟩)
  · omega

theorem Heeded.passed_step (j : Nat) (hj : admitted r.2.data.session.generation ((p.set i r).threads j) = true) :
    r.2.data.session.state ≠ .error ∧ ¬Withdrawn r.2.data.log := by
  obtain ⟨-, hl⟩ := (hs.step hr).live hj
  rcases hs.live_step hr hl with ⟨hnil, hstate⟩ | ⟨hlive, hgen, hsince⟩
  · exact ⟨hstate, not_withdrawn_nil hnil⟩
  rw [hgen] at hj
  -- the thread has looked at the stop event before, or does so in this step
  have hfrom : admitted p.shared.data.session.generation (p.threads j) = true ∨
      p.threads i = .inside (.loop p.shared.data.session.generation (.current .connected)) ∧
        p.shared.data.session.isCurrent p.shared.data.session.generation = true := by
    by_cases hij : j = i
    · subst hij
      rw [Pool.set_self] at hj
      exact (step_spans hr).passed _ hj
    · rw [Pool.set_other p r hij] at hj
      exact Or.inl hj
  have hbefore : p.shared.data.session.state ≠ .error ∧ ¬Withdrawn p.shared.data.log := by
    rcases hfrom with hj | ⟨hat, hcurrent⟩
    · exact h.passed j hj
    · have hclear : p.shared.data.session.stopEvent = false := by simpa [Session.isCurrent] using hcurrent
      refine ⟨fun he => ?_, fun hw => ?_⟩
      · rcases h.error hlive he with hset | hmarking | ⟨k, hk⟩
        · rw [hclear] at hset
          cases hset
        · simp only [Unraced, hat] at hc
          exact hc hcurrent ⟨he, hmarking⟩
        · -- the streaming thread of the generation is the one that looks at the stop event
          obtain rfl : k = i := hs.alone k i _ (loopOf_failing hk) (by rw [hat]; rfl)
          rw [hat] at hk
          cases hk
      · have hset := h.withdrawn hlive hw
        rw [hclear] at hset
        cases hset
  refine ⟨fun he => ?_, fun hw => ?_⟩
  · rcases (step_moves hr).errs he with hold | ⟨m, hat⟩ | ⟨m, hat⟩ | ⟨hnext, -⟩
    · exact hbefore.1 hold
    · rcases hfrom with hj | ⟨hat', -⟩
      · simp only [Unraced, hat] at hc
        exact Bool.false_ne_true ((hc j).symm.trans hj)
      · rw [hat] at hat'
        cases hat'
    · rcases hfrom with hpassed | ⟨hat', -⟩
      · obtain rfl : j = i := hs.alone j i _ (loopOf_admitted hpassed) (by rw [hat]; rfl)
        rw [hat] at hpassed
        cases hpassed
      · rw [hat] at hat'
        cases hat'
    · omega
  · rcases withdrawn_of_since hsince hw with hold | ⟨q, res, hq, hat, hcall⟩
    · exact hbefore.2 hold
    · rcases hfrom with hj | ⟨hat', -⟩
      · simp only [Unraced, hat] at hc
        exact Bool.false_ne_true ((hc hq hcall j).symm.trans hj)
      · rw [hat] at hat'
        cases hat'

end

theorem heeded_init : Heeded sessionInit := by
  have hlive : ¬Live sessionInit.shared.data := by simp [Live, latestStart, sessionInit]
  exact ⟨fun hl => absurd hl hlive, fun hl => absurd hl hlive, fun hl => absurd hl hlive, nofun⟩

theorem heeded_reach (h : sessionMachine.Reach Unraced p) : Heeded p := by
  refine h.invariant ?_ fun p a q hp hI hc hs => ?_
  · rintro _ rfl
    exact heeded_init
  · obtain ⟨r, hr, rfl⟩ := Threads.step_eq_some.mp hs
    have hsole := sole_reach hp
    exact ⟨hI.called_step hsole hc hr, hI.withdrawn_step hsole hc hr, hI.error_step hsole hc hr, hI.passed_step hsole hc hr⟩

end

/-! ### The law -/

/-- Thread 0 starts the session, and thread 1 is its streaming thread, up to the lock before RUNNING. -/
def connecting : List (Nat × Choice) :=
  [(0, .call .start)] ++ List.replicate 9 (0, .go) ++
  [(1, .run 1), (1, .info ⟨"run", 36, 50, 25, 64, 1, "ego", (224, 224), (224, 224), true, false, some 1, "task"⟩)] ++
  List.replicate 9 (1, .go)

/-- Thread 2 marks an error and returns, and the streaming thread takes the lock. -/
def connectingFailed : List (Nat × Choice) :=
  connecting ++ [(2, .call (.markError "switch failed"))] ++ List.replicate 9 (2, .go) ++ [(1, .go)]

/-- No error is recorded, no call that withdraws the start has set the stop event, and none returns. -/
def undisturbed (p : Pool (Guarded World) (Place Point Section)) (a : Nat × Choice) : Bool :=
  match p.threads a.1 with
  | .at (.startStop _) => p.shared.data.session.state != .error && (sinceStart p.shared.data.log).all fun
    | .call j r => !r.withdraws || beforeSet (p.threads j)
    | .ret _ r => !r.withdraws
    | _ => true
  | .inside (.loop _ (.current .connected)) => p.shared.data.session.state != .error
  | .inside (.markError _) => false
  | .at (.done r _) => !r.withdraws
  | _ => true

theorem Unraced.of_undisturbed {p : Pool (Guarded World) (Place Point Section)} {a : Nat × Choice} (h : undisturbed p a = true) :
    Unraced p a := by
  unfold undisturbed at h
  unfold Unraced
  split at h
  · simp only [Bool.and_eq_true, bne_iff_ne, List.all_eq_true] at h
    refine fun _ => ⟨h.1, ?_, fun j r hr hcall => ?_⟩
    · rintro ⟨j, r, hr, hsub⟩
      have hret := h.2 _ (hsub.subset List.mem_cons_self)
      simp only [hr] at hret
      cases hret
    · have hbefore := h.2 _ hcall
      simpa only [hr, Bool.not_true, Bool.false_or] using hbefore
  · exact fun _ hraced => (bne_iff_ne.mp h) hraced.1
  · cases h
  · refine fun hr => ?_
    simp only [hr] at h
    cases h
  · trivial

/-- `stop` begins after the start was accepted, and takes no further step. -/
def connectingStop : List (Nat × Choice) := connecting.take 3 ++ [(2, .call .stop)] ++ connecting.drop 3

end HumanoidLab
