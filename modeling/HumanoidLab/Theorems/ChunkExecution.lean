import HumanoidLab.Bridge.OpenLoop

/-! The runs of the open-loop chunk controller. A prediction is asked for, read for, predicted and installed in turn, so that
    the chunks are executed one after another; once a prediction has failed, nothing asks for the next one. -/

namespace HumanoidLab
open Concurrency

variable {K Obs : Type} {h : Nat}

/-! ### Stages -/

/-- What the inference thread is about: nothing, a prediction that it has yet to read for, or one that it has read for. -/
inductive Phase
  | quiet
  | due
  | running
  deriving DecidableEq

/-- The rows of a chunk that was executed and then held for `n` steps. -/
def Chunk.held (c : Chunk K h) (n : Nat) : List (List K) := c.rows.take h ++ List.replicate n c.last

theorem Chunk.take_row (c : Chunk K h) {i j : Nat} (hi : i < h) (hj : i + 1 = j) :
    c.rows.take j = c.rows.take i ++ [c.row i hi] := by
  subst hj
  exact (List.take_append_getElem (hi.trans_le c.enough)).symm

namespace OpenLoopRun

variable {s t : OpenLoopRun Obs K h} {c : Chunk K h} {obs : Obs}

/-- A thread that waits or has been woken is about a prediction, unless it is to stop. -/
def phase (s : OpenLoopRun Obs K h) : Phase :=
  match s.point with
  | .top | .waiting => if s.controller.wake && !s.controller.stop then .due else .quiet
  | .woken | .cleared | .finished => if s.controller.stop then .quiet else .due
  | .reading => .due
  | .predicting _ | .succeeded _ | .failed _ => .running

/-- The chunk that the thread has yet to hand over. -/
def hand (s : OpenLoopRun Obs K h) : List (Chunk K h) :=
  match s.point with
  | .succeeded c => [c]
  | _ => []

/-- A thread that has cleared the event has no other request to find. -/
def Late (s : OpenLoopRun Obs K h) : Prop :=
  match s.point with
  | .top | .waiting | .woken => True
  | _ => s.controller.wake = true → s.controller.stop = true

/-- The requests that are open and the ones not read for, and the chunks that are predicted and not installed. -/
structure Tally (s : OpenLoopRun Obs K h) (opened unread : Nat) (ahead : List (Chunk K h)) : Prop where
  requests : s.requests.length + 1 = s.installed.length + opened
  reads : s.requests.length = s.reads.length + unread
  predicted : s.predicted = s.installed ++ ahead

structure Executing (s : OpenLoopRun Obs K h) : Prop where
  quiet : s.phase = .quiet
  idle : s.controller.inflight = false
  empty : s.controller.pending = none
  index : s.controller.index < h
  healthy : s.controller.inferenceError = none
  failures : s.failures = []
  kept : s.discarded = []
  tally : s.Tally 0 0 []

/-- The horizon is executed and a prediction is asked for. -/
structure Waiting (s : OpenLoopRun Obs K h) (phase : Phase) (pending : Option (Chunk K h)) : Prop where
  phase : s.phase = phase
  busy : s.controller.inflight = true
  pending : s.controller.pending = pending
  index : s.controller.index = h
  healthy : s.controller.inferenceError = none
  failures : s.failures = []

structure Stuck (s : OpenLoopRun Obs K h) : Prop where
  quiet : s.phase = .quiet
  idle : s.controller.inflight = false
  empty : s.controller.pending = none
  index : s.controller.index = h
  failures : s.failures ≠ []
  kept : s.discarded = []
  tally : s.Tally 1 0 []

/-- A chunk is executed, then a prediction is due, runs and is ready; it is lost when the controller is stopped, and the
    controller is stuck when it fails. -/
inductive Stage (s : OpenLoopRun Obs K h) : Prop
  | executing (here : s.Executing)
  | due (here : s.Waiting .due none) (kept : s.discarded = []) (tally : s.Tally 1 1 [])
  | running (here : s.Waiting .running none) (kept : s.discarded = []) (tally : s.Tally 1 0 s.hand)
  | ready (c : Chunk K h) (here : s.Waiting .quiet (some c)) (kept : s.discarded = []) (tally : s.Tally 1 0 [c])
  | lost (unread : Nat) (one : unread + s.discarded.length ≤ 1) (here : s.Waiting .quiet none) (stop : s.controller.stop = true)
      (tally : s.Tally 1 unread s.discarded)
  | stuck (here : s.Stuck)

/-- The rows that are emitted: each chunk that was replaced, held for some steps, and the chunk in execution as far as it is
    executed, held for some steps when it is executed whole. -/
def Executed (s : OpenLoopRun Obs K h) : Prop :=
  ∃ (past : List (Chunk K h × Nat)) (n : Nat), s.installed = past.map Prod.fst ++ [s.controller.chunk] ∧
    s.emitted = past.flatMap (fun p => p.1.held p.2) ++ s.controller.chunk.rows.take s.controller.index ++
      List.replicate n s.controller.chunk.last ∧
    s.controller.index ≤ h ∧ (s.controller.index < h → n = 0)

/-- A prediction reads an observation that is not older than the one of the step that asked for it. -/
structure History (s : OpenLoopRun Obs K h) : Prop where
  latest : s.observations.getLast? = some s.controller.latestObs
  asked : ∀ r ∈ s.requests, r < s.observations.length
  seen : ∀ u ∈ s.reads, s.observations[u.1]? = some u.2
  fresh : ∀ (k r : Nat) (u : Nat × Obs), s.requests[k]? = some r → s.reads[k]? = some u → r ≤ u.1

/-! ### What a step does -/

/-- A run that has installed its pending chunk. -/
def install (c : Chunk K h) (s : OpenLoopRun Obs K h) : OpenLoopRun Obs K h :=
  { s with
    controller := { s.controller with chunk := c, pending := none, index := 0, inflight := false }
    installed := s.installed ++ [c] }

/-- A step that is given an observation, with the controller that it leaves. -/
def stepped (obs : Obs) (c : OpenLoop Obs K h) (s : OpenLoopRun Obs K h) : OpenLoopRun Obs K h :=
  { s with controller := { c with latestObs := obs }, observations := s.observations ++ [obs] }

theorem step_report {e : String} (he : s.controller.inferenceError = some e) :
    s.step obs = { s.stepped obs { s.controller with inferenceError := none } with reported := s.reported ++ [e] } := by
  simp [step, OpenLoop.step, stepped, asks, he, Except.toOption]

/-- A step that finds a chunk goes on as if it had been installed. -/
theorem step_install (he : s.controller.inferenceError = none) (hp : s.controller.pending = some c) :
    s.step obs = (s.install c).step obs := by
  simp [step, OpenLoop.step, asks, install, OpenLoop.install, he, hp]

theorem step_hold (he : s.controller.inferenceError = none) (hp : s.controller.pending = none)
    (hi : s.controller.index = h) :
    s.step obs = { s.stepped obs s.controller with emitted := s.emitted ++ [s.controller.chunk.last] } := by
  simp [step, OpenLoop.step, stepped, asks, OpenLoop.install, OpenLoop.advance, he, hp, hi, Except.toOption]

theorem step_row (he : s.controller.inferenceError = none) (hp : s.controller.pending = none)
    (hi : s.controller.index + 1 < h) :
    s.step obs = { s.stepped obs { s.controller with index := s.controller.index + 1 } with
      emitted := s.emitted ++ [s.controller.chunk.row s.controller.index (Nat.lt_of_succ_lt hi)] } := by
  simp [step, OpenLoop.step, stepped, asks, OpenLoop.install, OpenLoop.advance, he, hp, Nat.lt_of_succ_lt hi, hi.ne,
    Except.toOption]

/-- The step that emits the last row of the horizon asks for a prediction. -/
theorem step_ask (he : s.controller.inferenceError = none) (hp : s.controller.pending = none)
    (hi : s.controller.index + 1 = h) (hf : s.controller.inflight = false) :
    s.step obs = { s.stepped obs { s.controller with index := h, inflight := true, wake := true } with
      emitted := s.emitted ++ [s.controller.chunk.row s.controller.index (Nat.lt_of_succ_le hi.le)]
      requests := s.requests ++ [s.observations.length] } := by
  simp [step, OpenLoop.step, stepped, asks, OpenLoop.install, OpenLoop.advance, he, hp, Nat.lt_of_succ_le hi.le, hi, hf,
    Except.toOption]

/-! ### Stages, step by step -/

/-- What a stage depends on, its phase and the error apart. -/
def core (s : OpenLoopRun Obs K h) :=
  (s.controller.inflight, s.controller.pending, s.controller.index, s.installed, s.predicted, s.discarded, s.failures,
    s.requests, s.reads, s.hand)

theorem Stage.frame (hs : s.Stage) (hcore : t.core = s.core) (hphase : t.phase = s.phase)
    (herror : s.controller.inferenceError = none → t.controller.inferenceError = none)
    (hstop : s.controller.stop = true → t.controller.stop = true) : t.Stage := by
  simp only [core, Prod.mk.injEq] at hcore
  obtain ⟨hinflight, hpending, hindex, hinstalled, hpredicted, hdiscarded, hfailures, hrequests, hreads, hhand⟩ := hcore
  have tally : ∀ {opened unread ahead}, s.Tally opened unread ahead → t.Tally opened unread ahead := by
    rintro opened unread ahead ⟨h₁, h₂, h₃⟩
    exact ⟨by rw [hrequests, hinstalled, h₁], by rw [hrequests, hreads, h₂], by rw [hpredicted, hinstalled, h₃]⟩
  have waiting : ∀ {phase pending}, s.Waiting phase pending → t.Waiting phase pending := by
    rintro phase pending ⟨h₁, h₂, h₃, h₄, h₅, h₆⟩
    exact ⟨hphase.trans h₁, hinflight.trans h₂, hpending.trans h₃, hindex.trans h₄, herror h₅, hfailures.trans h₆⟩
  cases hs with
  | executing here =>
    exact .executing ⟨hphase.trans here.quiet, hinflight.trans here.idle, hpending.trans here.empty, hindex.trans_lt here.index,
      herror here.healthy, hfailures.trans here.failures, hdiscarded.trans here.kept, tally here.tally⟩
  | due here kept t => exact .due (waiting here) (hdiscarded.trans kept) (tally t)
  | running here kept t => exact .running (waiting here) (hdiscarded.trans kept) (hhand ▸ tally t)
  | ready c here kept t => exact .ready c (waiting here) (hdiscarded.trans kept) (tally t)
  | lost unread one here stop t => exact .lost unread (hdiscarded ▸ one) (waiting here) (hstop stop) (hdiscarded ▸ tally t)
  | stuck here =>
    exact .stuck ⟨hphase.trans here.quiet, hinflight.trans here.idle, hpending.trans here.empty, hindex.trans here.index,
      hfailures ▸ here.failures, hdiscarded.trans here.kept, tally here.tally⟩

theorem Stage.of_due (hs : s.Stage) (hp : s.phase = .due) : s.Waiting .due none ∧ s.discarded = [] ∧ s.Tally 1 1 [] := by
  cases hs with
  | due here kept tally => exact ⟨here, kept, tally⟩
  | executing here => cases hp.symm.trans here.quiet
  | running here | ready _ here | lost _ _ here => cases hp.symm.trans here.phase
  | stuck here => cases hp.symm.trans here.quiet

theorem Stage.of_running (hs : s.Stage) (hp : s.phase = .running) :
    s.Waiting .running none ∧ s.discarded = [] ∧ s.Tally 1 0 s.hand := by
  cases hs with
  | running here kept tally => exact ⟨here, kept, tally⟩
  | executing here => cases hp.symm.trans here.quiet
  | due here | ready _ here | lost _ _ here => cases hp.symm.trans here.phase
  | stuck here => cases hp.symm.trans here.quiet

theorem Stage.of_pending (hs : s.Stage) (hp : s.controller.pending = some c) :
    s.Waiting .quiet (some c) ∧ s.discarded = [] ∧ s.Tally 1 0 [c] := by
  cases hs with
  | ready c' here kept tally =>
    obtain rfl := Option.some.inj (here.pending.symm.trans hp)
    exact ⟨here, kept, tally⟩
  | executing here => cases hp.symm.trans here.empty
  | due here | running here | lost _ _ here => cases hp.symm.trans here.pending
  | stuck here => cases hp.symm.trans here.empty

theorem Stage.of_index (hs : s.Stage) (hi : s.controller.index < h) : s.Executing := by
  cases hs with
  | executing here => exact here
  | due here | running here | ready _ here | lost _ _ here => exact absurd here.index hi.ne
  | stuck here => exact absurd here.index hi.ne

theorem Stage.install (hs : s.Stage) (hp : s.controller.pending = some c) : (s.install c).Executing := by
  obtain ⟨hw, hkept, htally⟩ := hs.of_pending hp
  exact ⟨hw.phase, rfl, rfl, c.positive, hw.healthy, hw.failures, hkept, by simp [OpenLoopRun.install, htally.requests],
    htally.reads, by simp [OpenLoopRun.install, htally.predicted]⟩

/-- What a step does: it reports a failure, or installs a chunk, or emits a row of the chunk. -/
inductive Stepped (obs : Obs) : OpenLoopRun Obs K h → OpenLoopRun Obs K h → Prop
  | report {s : OpenLoopRun Obs K h} (e : String) (failed : s.controller.inferenceError = some e) : Stepped obs s
      { s.stepped obs { s.controller with inferenceError := none } with reported := s.reported ++ [e] }
  | install {s t : OpenLoopRun Obs K h} (c : Chunk K h) (pending : s.controller.pending = some c) (index : s.controller.index = h)
      (next : Stepped obs (s.install c) t) : Stepped obs s t
  | hold {s : OpenLoopRun Obs K h} (index : s.controller.index = h) : Stepped obs s
      { s.stepped obs s.controller with emitted := s.emitted ++ [s.controller.chunk.last] }
  | row {s : OpenLoopRun Obs K h} (index : s.controller.index + 1 < h) : Stepped obs s
      { s.stepped obs { s.controller with index := s.controller.index + 1 } with
        emitted := s.emitted ++ [s.controller.chunk.row s.controller.index (Nat.lt_of_succ_lt index)] }
  | ask {s : OpenLoopRun Obs K h} (quiet : s.phase = .quiet) (index : s.controller.index + 1 = h) : Stepped obs s
      { s.stepped obs { s.controller with index := h, inflight := true, wake := true } with
        emitted := s.emitted ++ [s.controller.chunk.row s.controller.index (Nat.lt_of_succ_le index.le)]
        requests := s.requests ++ [s.observations.length] }

theorem Executing.stepped (hs : s.Executing) (obs : Obs) : Stepped obs s (s.step obs) := by
  rcases (Nat.succ_le_of_lt hs.index).lt_or_eq with hi | hi
  · exact step_row hs.healthy hs.empty hi ▸ .row hi
  · exact step_ask hs.healthy hs.empty hi hs.idle ▸ .ask hs.quiet hi

theorem Stage.stepped (hs : s.Stage) (obs : Obs) : Stepped obs s (s.step obs) := by
  cases hs with
  | executing here => exact here.stepped obs
  | due here | running here | lost _ _ here => exact step_hold here.healthy here.pending here.index ▸ .hold here.index
  | ready c here kept tally =>
    rw [step_install here.healthy here.pending]
    exact .install c here.pending here.index ((Stage.ready c here kept tally).install here.pending |>.stepped obs)
  | stuck here =>
    cases he : s.controller.inferenceError with
    | none => exact step_hold he here.empty here.index ▸ .hold here.index
    | some e => exact step_report he ▸ .report e he

/-- A quiet thread finds the wake-up, unless it is to stop. -/
theorem phase_wake (hs : s.phase = .quiet) (hpoint : t.point = s.point) (hstop : t.controller.stop = s.controller.stop)
    (hwake : t.controller.wake = true) : t.phase = if s.controller.stop then .quiet else .due := by
  unfold phase at hs ⊢
  rw [hpoint, hstop, hwake]
  cases hp : s.point <;> cases hc : s.controller.stop <;> simp_all

theorem Stepped.stage {obs : Obs} (ht : Stepped obs s t) (hs : s.Stage) : t.Stage := by
  induction ht with
  | report e he => exact hs.frame rfl rfl (fun _ => rfl) id
  | install c pending _ _ ih => exact ih (.executing (hs.install pending))
  | hold => exact hs.frame rfl rfl id id
  | row hi =>
    have hx := hs.of_index (Nat.lt_of_succ_lt hi)
    exact .executing ⟨hx.quiet, hx.idle, hx.empty, hi, hx.healthy, hx.failures, hx.kept, hx.tally.requests, hx.tally.reads,
      hx.tally.predicted⟩
  | @ask s quiet hi =>
    have hx := hs.of_index (Nat.lt_of_succ_le hi.le)
    have hphase := phase_wake (t := { s with controller := { s.controller with wake := true } }) quiet rfl rfl rfl
    have hrequests : (s.requests ++ [s.observations.length]).length + 1 = s.installed.length + 1 := by
      simp [hx.tally.requests]
    have hreads : (s.requests ++ [s.observations.length]).length = s.reads.length + 1 := by
      simp [hx.tally.reads]
    cases hstop : s.controller.stop with
    | true =>
      rw [hstop, if_pos rfl] at hphase
      refine .lost 1 (by simp [OpenLoopRun.stepped, hx.kept]) ⟨hphase, rfl, hx.empty, rfl, hx.healthy, hx.failures⟩ hstop
        ⟨hrequests, hreads, ?_⟩
      simpa [OpenLoopRun.stepped, hx.kept] using hx.tally.predicted
    | false =>
      rw [hstop, if_neg Bool.false_ne_true] at hphase
      exact .due ⟨hphase, rfl, hx.empty, rfl, hx.healthy, hx.failures⟩ hx.kept ⟨hrequests, hreads, hx.tally.predicted⟩

/-- What the thread does: it moves towards the observation, reads it, and hands over a chunk or a failure. -/
inductive Inferred (s : OpenLoopRun Obs K h) : OpenLoopRun Obs K h → Prop
  | move (point : InferencePoint Obs K h) (wake : Bool) (phase : s.phase ≠ .running)
      (same : ({ s with point := point, controller := { s.controller with wake := wake } } : OpenLoopRun Obs K h).phase = s.phase)
      (hands : ({ s with point := point, controller := { s.controller with wake := wake } } : OpenLoopRun Obs K h).hand = s.hand) :
      Inferred s { s with point := point, controller := { s.controller with wake := wake } }
  | read (here : s.point = .reading) : Inferred s { s with
      point := .predicting s.controller.latestObs
      reads := s.reads ++ [(s.observations.length - 1, s.controller.latestObs)] }
  | discard (c : Chunk K h) (here : s.point = .succeeded c) (stop : s.controller.stop = true) :
      Inferred s { s with point := .top, discarded := s.discarded ++ [c] }
  | offer (c : Chunk K h) (here : s.point = .succeeded c) (running : s.controller.stop = false) :
      Inferred s { s with point := .top, controller := { s.controller with pending := some c } }
  | fail (e : String) (here : s.point = .failed e) : Inferred s { s with
      controller := { s.controller with inflight := false, inferenceError := some e }
      point := .top
      failures := s.failures ++ [e] }

theorem infer_inferred (ht : s.infer = some t) : s.Inferred t := by
  unfold infer at ht
  cases hp : s.point with
  | top =>
    simp only [hp, Option.some.injEq] at ht
    subst ht
    refine .move _ s.controller.wake ?_ ?_ ?_
    all_goals cases hstop : s.controller.stop <;> cases hwake : s.controller.wake <;> simp [phase, hand, hp, hstop, hwake]
  | waiting =>
    simp only [hp, Option.ite_none_right_eq_some, Option.some.injEq] at ht
    obtain ⟨hwake, rfl⟩ := ht
    refine .move _ s.controller.wake ?_ ?_ ?_
    all_goals cases hstop : s.controller.stop <;> simp [phase, hand, hp, hstop, hwake]
  | woken =>
    simp only [hp, Option.some.injEq] at ht
    subst ht
    refine .move _ false ?_ ?_ ?_
    all_goals cases hstop : s.controller.stop <;> simp [phase, hand, hp, hstop]
  | cleared =>
    simp only [hp, Option.some.injEq] at ht
    subst ht
    refine .move _ s.controller.wake ?_ ?_ ?_
    all_goals cases hstop : s.controller.stop <;> simp [phase, hand, hp, hstop]
  | reading =>
    simp only [hp, Option.some.injEq] at ht
    exact ht ▸ .read hp
  | predicting obs => simp [hp] at ht
  | succeeded c =>
    simp only [hp] at ht
    split at ht
    · exact Option.some.inj ht ▸ .discard c hp ‹_›
    · exact Option.some.inj ht ▸ .offer c hp (Bool.eq_false_of_not_eq_true ‹_›)
  | failed e =>
    simp only [hp, Option.some.injEq] at ht
    exact ht ▸ .fail e hp
  | finished => simp [hp] at ht

/-- A thread that is back at its loop is quiet: it has no request to find. -/
theorem phase_back (hlate : s.controller.wake = true → s.controller.stop = true) :
    ({ s with point := .top } : OpenLoopRun Obs K h).phase = .quiet := by
  cases hw : s.controller.wake with
  | false => simp [phase, hw]
  | true => simp [phase, hlate hw]

theorem Stage.infer (hs : s.Stage) (hlate : s.Late) (ht : s.infer = some t) : t.Stage := by
  cases infer_inferred ht with
  | move point wake hr hsame hhands => exact hs.frame (by simpa [core] using hhands) hsame id id
  | read here =>
    obtain ⟨hw, hkept, htally⟩ := hs.of_due (by simp [phase, here])
    refine .running ⟨rfl, hw.busy, hw.pending, hw.index, hw.healthy, hw.failures⟩ hkept ⟨htally.requests, ?_, htally.predicted⟩
    simpa using htally.reads
  | discard c here stop =>
    obtain ⟨hw, hkept, htally⟩ := hs.of_running (by simp [phase, here])
    have hback := phase_back fun _ => stop
    refine .lost 0 (by simp [hkept]) ⟨hback, hw.busy, hw.pending, hw.index, hw.healthy, hw.failures⟩ stop
      ⟨htally.requests, htally.reads, ?_⟩
    simpa [hkept, hand, here] using htally.predicted
  | offer c here running =>
    obtain ⟨hw, hkept, htally⟩ := hs.of_running (by simp [phase, here])
    rw [Late, here] at hlate
    refine .ready c ⟨phase_back hlate, hw.busy, rfl, hw.index, hw.healthy, hw.failures⟩ hkept ⟨htally.requests, htally.reads, ?_⟩
    simpa [hand, here] using htally.predicted
  | fail e here =>
    obtain ⟨hw, hkept, htally⟩ := hs.of_running (by simp [phase, here])
    rw [Late, here] at hlate
    refine .stuck ⟨phase_back hlate, rfl, hw.pending, hw.index, by simp, hkept, ⟨htally.requests, htally.reads, ?_⟩⟩
    simpa [hand, here] using htally.predicted

theorem predict_ok {outcome : Prediction K} (ht : s.predict outcome = some t) : ∃ obs, s.point = .predicting obs ∧
    ((∃ c, s.controller.accept outcome = .ok c ∧ t = { s with point := .succeeded c, predicted := s.predicted ++ [c] }) ∨
      ∃ e, s.controller.accept outcome = .error e ∧ t = { s with point := .failed e }) := by
  unfold OpenLoopRun.predict at ht
  split at ht
  · rename_i obs here
    refine ⟨obs, here, ?_⟩
    split at ht
    · exact Or.inl ⟨_, ‹_›, (Option.some.inj ht).symm⟩
    · exact Or.inr ⟨_, ‹_›, (Option.some.inj ht).symm⟩
  · cases ht

theorem Stage.predict {outcome : Prediction K} (hs : s.Stage) (ht : s.predict outcome = some t) : t.Stage := by
  obtain ⟨obs, here, hcases⟩ := predict_ok ht
  obtain ⟨hw, hkept, htally⟩ := hs.of_running (by simp [phase, here])
  have hpredicted : s.predicted = s.installed := by simpa [hand, here] using htally.predicted
  rcases hcases with ⟨c, -, rfl⟩ | ⟨e, -, rfl⟩
  · refine .running ⟨rfl, hw.busy, hw.pending, hw.index, hw.healthy, hw.failures⟩ hkept ⟨htally.requests, htally.reads, ?_⟩
    simp [hand, hpredicted]
  · refine .running ⟨rfl, hw.busy, hw.pending, hw.index, hw.healthy, hw.failures⟩ hkept ⟨htally.requests, htally.reads, ?_⟩
    simp [hand, hpredicted]

/-- A controller that is stopped loses a prediction that is due, unless it is about to be read for. -/
theorem Stage.stop (hs : s.Stage) : Stage { s with controller := { s.controller with stop := true } } := by
  have hphase : ({ s with controller := { s.controller with stop := true } } : OpenLoopRun Obs K h).phase = s.phase ∨
      ({ s with controller := { s.controller with stop := true } } : OpenLoopRun Obs K h).phase = .quiet ∧ s.phase = .due := by
    cases hp : s.point <;> cases hstop : s.controller.stop <;> cases hwake : s.controller.wake <;>
      simp [phase, hp, hstop, hwake]
  rcases hphase with hsame | ⟨hquiet, hdue⟩
  · exact hs.frame rfl hsame id fun _ => rfl
  · obtain ⟨hw, hkept, htally⟩ := hs.of_due hdue
    refine .lost 1 (by simp [hkept]) ⟨hquiet, hw.busy, hw.pending, hw.index, hw.healthy, hw.failures⟩ rfl
      ⟨htally.requests, htally.reads, ?_⟩
    simpa [hkept] using htally.predicted

theorem Stage.stopWake (hs : s.Stage) (hstop : s.controller.stop = true) :
    Stage { s with controller := { s.controller with wake := true } } := by
  refine hs.frame rfl ?_ id id
  cases hp : s.point <;> simp [phase, hp, hstop]

/-! ### The order of the threads, the rows and the observations -/

theorem Stepped.late {obs : Obs} (ht : Stepped obs s t) (hlate : s.Late) : t.Late := by
  induction ht with
  | report | hold | row => exact hlate
  | install _ _ _ _ ih => exact ih hlate
  | @ask s quiet =>
    unfold Late stepped
    unfold phase at quiet
    cases hp : s.point <;> cases hstop : s.controller.stop <;> simp_all

theorem Late.infer (hlate : s.Late) (ht : s.infer = some t) : t.Late := by
  unfold OpenLoopRun.infer at ht
  unfold Late at hlate
  cases hp : s.point with
  | top =>
    simp only [hp, Option.some.injEq] at ht
    subst ht
    cases hstop : s.controller.stop <;> simp [Late, hstop]
  | waiting =>
    simp only [hp, Option.ite_none_right_eq_some, Option.some.injEq] at ht
    obtain ⟨-, rfl⟩ := ht
    trivial
  | woken =>
    simp only [hp, Option.some.injEq] at ht
    subst ht
    exact fun hwake => by cases hwake
  | cleared =>
    simp only [hp, Option.some.injEq] at ht hlate
    subst ht
    cases hstop : s.controller.stop <;> simp_all [Late]
  | reading =>
    simp only [hp, Option.some.injEq] at ht hlate
    subst ht
    exact hlate
  | predicting obs => simp [hp] at ht
  | succeeded c =>
    simp only [hp] at ht
    split at ht <;> exact Option.some.inj ht ▸ trivial
  | failed e =>
    simp only [hp, Option.some.injEq] at ht
    subst ht
    trivial
  | finished => simp [hp] at ht

theorem Stepped.executed {obs : Obs} (ht : Stepped obs s t) (hs : s.Executed) : t.Executed := by
  induction ht with
  | report e he => exact hs
  | @install s t c pending index _ ih =>
    obtain ⟨past, n, hinstalled, hemitted, -, -⟩ := hs
    refine ih ⟨past ++ [(s.controller.chunk, n)], 0, ?_, ?_, Nat.zero_le _, fun _ => rfl⟩
    · simp [OpenLoopRun.install, hinstalled]
    · simp [OpenLoopRun.install, hemitted, index, Chunk.held]
  | @hold s index =>
    obtain ⟨past, n, hinstalled, hemitted, hle, -⟩ := hs
    refine ⟨past, n + 1, hinstalled, ?_, hle, fun hlt => absurd index hlt.ne⟩
    simp [stepped, hemitted, List.replicate_succ']
  | @row s hi =>
    obtain ⟨past, n, hinstalled, hemitted, -, hn⟩ := hs
    obtain rfl := hn (Nat.lt_of_succ_lt hi)
    refine ⟨past, 0, hinstalled, ?_, hi.le, fun _ => rfl⟩
    simp [OpenLoopRun.stepped, hemitted, s.controller.chunk.take_row (Nat.lt_of_succ_lt hi) rfl]
  | @ask s quiet hi =>
    obtain ⟨past, n, hinstalled, hemitted, -, hn⟩ := hs
    obtain rfl := hn (Nat.lt_of_succ_le hi.le)
    refine ⟨past, 0, hinstalled, ?_, le_rfl, fun _ => rfl⟩
    simp [OpenLoopRun.stepped, hemitted, s.controller.chunk.take_row (Nat.lt_of_succ_le hi.le) hi]

theorem History.stepped (hs : s.History) (obs : Obs) (c : OpenLoop Obs K h) : (s.stepped obs c).History where
  latest := by simp [OpenLoopRun.stepped]
  asked r hr := by
    have hlt := hs.asked r hr
    simp only [OpenLoopRun.stepped, List.length_append, List.length_singleton]
    omega
  seen u hu := by
    obtain ⟨hlt, -⟩ := List.getElem?_eq_some_iff.mp (hs.seen u hu)
    simp only [OpenLoopRun.stepped, List.getElem?_append_left hlt]
    exact hs.seen u hu
  fresh := hs.fresh

theorem Stepped.history {obs : Obs} (ht : Stepped obs s t) (hs : s.History) (hreads : s.reads.length ≤ s.requests.length) :
    t.History := by
  induction ht with
  | @report s | @hold s | @row s =>
    obtain ⟨hlatest, hasked, hseen, hfresh⟩ := hs.stepped obs s.controller
    exact ⟨hlatest, hasked, hseen, hfresh⟩
  | install _ _ _ _ ih => exact ih ⟨hs.latest, hs.asked, hs.seen, hs.fresh⟩ hreads
  | @ask s =>
    obtain ⟨hlatest, hasked, hseen, hfresh⟩ := hs.stepped obs s.controller
    refine ⟨hlatest, ?_, hseen, fun k r u hr hu => ?_⟩
    · intro r hr
      rcases List.mem_append.mp hr with hr | hr
      · exact hasked r hr
      · rw [List.mem_singleton.mp hr]
        simp [OpenLoopRun.stepped]
    · -- The request is not read for yet.
      obtain ⟨hk, -⟩ := List.getElem?_eq_some_iff.mp hu
      rw [List.getElem?_append_left (hk.trans_le hreads)] at hr
      exact hfresh k r u hr hu

theorem History.infer (hs : s.Stage) (hhistory : s.History) (ht : s.infer = some t) : t.History := by
  cases infer_inferred ht with
  | move | discard | offer | fail => exact ⟨hhistory.latest, hhistory.asked, hhistory.seen, hhistory.fresh⟩
  | read here =>
    obtain ⟨-, -, htally⟩ := hs.of_due (by simp [phase, here])
    have hlatest := hhistory.latest
    rw [List.getLast?_eq_getElem?] at hlatest
    refine ⟨hhistory.latest, hhistory.asked, fun u hu => ?_, fun k r u hr hu => ?_⟩
    · rcases List.mem_append.mp hu with hu | hu
      · exact hhistory.seen u hu
      · rw [List.mem_singleton.mp hu]
        exact hlatest
    · rcases Nat.lt_or_ge k s.reads.length with hk | hk
      · rw [List.getElem?_append_left hk] at hu
        exact hhistory.fresh k r u hr hu
      · rw [List.getElem?_append_right hk] at hu
        obtain rfl := List.mem_singleton.mp (List.mem_of_getElem? hu)
        exact Nat.le_sub_one_of_lt (hhistory.asked r (List.mem_of_getElem? hr))

/-! ### Every run -/

/-- What every run keeps. -/
structure Kept (s : OpenLoopRun Obs K h) : Prop where
  stage : s.Stage
  late : s.Late
  executed : s.Executed
  history : s.History
  reported : s.reported ≠ [] → s.failures ≠ []

theorem Stage.reads_le (hs : s.Stage) : s.reads.length ≤ s.requests.length := by
  cases hs with
  | executing here => exact (Nat.le_add_right _ _).trans_eq here.tally.reads.symm
  | due _ _ tally | running _ _ tally | ready _ _ _ tally | lost _ _ _ _ tally =>
    exact (Nat.le_add_right _ _).trans_eq tally.reads.symm
  | stuck here => exact (Nat.le_add_right _ _).trans_eq here.tally.reads.symm

theorem Stage.of_error {e : String} (hs : s.Stage) (he : s.controller.inferenceError = some e) : s.Stuck := by
  cases hs with
  | stuck here => exact here
  | executing here => cases here.healthy.symm.trans he
  | due here | running here | ready _ here | lost _ _ here => cases here.healthy.symm.trans he

theorem Stage.of_failures (hs : s.Stage) (hf : s.failures ≠ []) : s.Stuck := by
  cases hs with
  | stuck here => exact here
  | executing here => exact absurd here.failures hf
  | due here | running here | ready _ here | lost _ _ here => exact absurd here.failures hf

theorem Stepped.reported {obs : Obs} (ht : Stepped obs s t) (hs : s.Stage) (hr : s.reported ≠ [] → s.failures ≠ []) :
    t.reported ≠ [] → t.failures ≠ [] := by
  induction ht with
  | report e he => exact fun _ => (hs.of_error he).failures
  | install c pending _ _ ih => exact ih (.executing (hs.install pending)) hr
  | hold | row | ask => exact hr

theorem start_ok {initialObs : Obs} {predicted : NdArray K} {executionHorizon : Int} {c : OpenLoop Obs K h}
    (hc : OpenLoop.start initialObs predicted executionHorizon = .ok ⟨h, c⟩) :
    c = { latestObs := c.latestObs, chunk := c.chunk } := by
  unfold OpenLoop.start at hc
  obtain ⟨rows, -, hc⟩ := Fallible.bind_ok hc
  split at hc
  · cases hc
    rfl
  · cases hc

theorem kept_init (hs : (openLoop Obs K h).init s) : s.Kept := by
  obtain ⟨obs, predicted, executionHorizon, c, hc, rfl⟩ := hs
  rw [start_ok hc]
  refine ⟨.executing ⟨rfl, rfl, rfl, c.chunk.positive, rfl, rfl, rfl, ⟨rfl, rfl, rfl⟩⟩, trivial, ?_, ?_, fun h => absurd rfl h⟩
  · exact ⟨[], 0, rfl, rfl, Nat.zero_le _, fun _ => rfl⟩
  · exact ⟨rfl, by simp [begun], by simp [begun], by simp [begun]⟩

theorem Kept.step {a : OpenLoopAct Obs K} (hs : s.Kept) (ht : (openLoop Obs K h).step s a = some t) : t.Kept := by
  obtain ⟨hstage, hlate, hexecuted, hhistory, hreported⟩ := hs
  cases a with
  | step obs =>
    obtain rfl := Option.some.inj ht
    have hstep := hstage.stepped obs
    exact ⟨hstep.stage hstage, hstep.late hlate, hstep.executed hexecuted, hstep.history hhistory hstage.reads_le,
      hstep.reported hstage hreported⟩
  | infer =>
    refine ⟨hstage.infer hlate ht, hlate.infer ht, ?_, hhistory.infer hstage ht, ?_⟩
    · cases infer_inferred ht <;> exact hexecuted
    · cases infer_inferred ht with
      | fail e => simp
      | move | read | discard | offer => exact hreported
  | predict outcome =>
    have hnext := hstage.predict ht
    obtain ⟨obs, here, hcases⟩ := predict_ok ht
    rw [Late, here] at hlate
    rcases hcases with ⟨c, -, rfl⟩ | ⟨e, -, rfl⟩
    · exact ⟨hnext, hlate, hexecuted, ⟨hhistory.latest, hhistory.asked, hhistory.seen, hhistory.fresh⟩, hreported⟩
    · exact ⟨hnext, hlate, hexecuted, ⟨hhistory.latest, hhistory.asked, hhistory.seen, hhistory.fresh⟩, hreported⟩
  | stop =>
    obtain rfl := Option.some.inj ht
    refine ⟨hstage.stop, ?_, hexecuted, ⟨hhistory.latest, hhistory.asked, hhistory.seen, hhistory.fresh⟩, hreported⟩
    unfold Late
    split <;> simp
  | stopWake =>
    obtain ⟨hstop, ht⟩ := Option.ite_none_right_eq_some.mp ht
    obtain rfl := Option.some.inj ht
    refine ⟨hstage.stopWake hstop, ?_, hexecuted, ⟨hhistory.latest, hhistory.asked, hhistory.seen, hhistory.fresh⟩, hreported⟩
    unfold Late
    split <;> simp [hstop]

theorem kept_reach {C : OpenLoopRun Obs K h → OpenLoopAct Obs K → Prop} (hs : (openLoop Obs K h).Reach C s) : s.Kept :=
  hs.invariant (fun _ => kept_init) fun _ _ _ _ hs _ => hs.step

/-! ### While predictions succeed -/

/-- A prediction that returns is of a chunk that is long enough. -/
def Succeeds (s : OpenLoopRun Obs K h) : OpenLoopAct Obs K → Prop
  | .predict outcome => ∃ c, s.controller.accept outcome = .ok c
  | _ => True

/-- No prediction has failed, and each step has emitted a row. -/
structure Healthy (s : OpenLoopRun Obs K h) : Prop where
  here : ∀ e, s.point ≠ .failed e
  error : s.controller.inferenceError = none
  failures : s.failures = []
  rows : s.emitted.length + 1 = s.observations.length

theorem Healthy.stepped {obs : Obs} (ht : Stepped obs s t) (hs : s.Healthy) : t.Healthy := by
  induction ht with
  | report e he => cases hs.error.symm.trans he
  | install _ _ _ _ ih => exact ih ⟨hs.here, hs.error, hs.failures, hs.rows⟩
  | hold | row | ask => exact ⟨hs.here, hs.error, hs.failures, by simp [OpenLoopRun.stepped, hs.rows]⟩

theorem healthy_reach (hs : (openLoop Obs K h).Reach Succeeds s) : s.Healthy := by
  refine hs.invariant ?_ fun s a t hr hs hc ht => ?_
  · rintro _ ⟨obs, predicted, executionHorizon, c, hc, rfl⟩
    rw [start_ok hc]
    exact ⟨fun _ here => (by cases here), rfl, rfl, rfl⟩
  · cases a with
    | step obs =>
      obtain rfl := Option.some.inj ht
      exact hs.stepped ((kept_reach hr).stage.stepped obs)
    | infer =>
      cases infer_inferred ht with
      | move point wake hr hsame =>
        refine ⟨fun e here => hr ?_, hs.error, hs.failures, hs.rows⟩
        rw [← hsame, phase, here]
      | read | discard | offer => exact ⟨fun _ here => (by cases here), hs.error, hs.failures, hs.rows⟩
      | fail e here => exact absurd here (hs.here e)
    | predict outcome =>
      obtain ⟨c, hc⟩ := hc
      obtain ⟨obs, here, ⟨c', -, rfl⟩ | ⟨e, he, rfl⟩⟩ := predict_ok ht
      · exact ⟨fun _ here => (by cases here), hs.error, hs.failures, hs.rows⟩
      · cases hc.symm.trans he
    | stop =>
      obtain rfl := Option.some.inj ht
      exact ⟨hs.here, hs.error, hs.failures, hs.rows⟩
    | stopWake =>
      obtain ⟨-, ht⟩ := Option.ite_none_right_eq_some.mp ht
      obtain rfl := Option.some.inj ht
      exact ⟨hs.here, hs.error, hs.failures, hs.rows⟩

theorem hand_quiet (hs : s.phase ≠ .running) : s.hand = [] := by
  unfold hand
  split
  · rename_i c here
    exact absurd (by simp [phase, here]) hs
  · rfl

/-- What is open and what is ahead, while nothing has failed. -/
theorem Stage.tally (hs : s.Stage) (hf : s.failures = []) : ∃ opened unread ahead, s.Tally opened unread ahead ∧ opened ≤ 1 ∧
    unread ≤ opened ∧ ahead.length ≤ 1 ∧ (s.controller.stop = false → ahead = s.controller.pending.toList ++ s.hand) ∧
    (s.controller.stop = false → unread ≠ 0 → s.phase = .due) := by
  cases hs with
  | executing here =>
    have hhand : s.hand = [] := hand_quiet (by simp [here.quiet])
    exact ⟨0, 0, [], here.tally, by simp, by simp, by simp, by simp [here.empty, hhand], by simp⟩
  | due here kept tally =>
    have hhand : s.hand = [] := hand_quiet (by simp [here.phase])
    exact ⟨1, 1, [], tally, by simp, by simp, by simp, by simp [here.pending, hhand], by simp [here.phase]⟩
  | running here kept tally =>
    refine ⟨1, 0, s.hand, tally, by simp, by simp, ?_, by simp [here.pending], by simp⟩
    unfold hand
    split <;> simp
  | ready c here kept tally =>
    have hhand : s.hand = [] := hand_quiet (by simp [here.phase])
    exact ⟨1, 0, [c], tally, by simp, by simp, by simp, by simp [here.pending, hhand], by simp⟩
  | lost unread one here stop tally =>
    exact ⟨1, unread, s.discarded, tally, by simp, by omega, by omega, by simp [stop], by simp [stop]⟩
  | stuck here => exact absurd hf here.failures

/-- While predictions succeed each step emits a row: chunk after chunk, in the order of the predictions, the rows of the
    horizon and the last of them until the next chunk is installed. One prediction is open at most, it is not lost unless the
    controller is stopped, and it reads an observation that is not older than the one of the step that asked for it. -/
theorem chunk_execution (hs : (openLoop Obs K h).Reach Succeeds s) :
    s.Executed ∧ s.emitted.length + 1 = s.observations.length ∧
      (∃ ahead, s.predicted = s.installed ++ ahead ∧ ahead.length ≤ 1 ∧
        (s.controller.stop = false → ahead = s.controller.pending.toList ++ s.hand)) ∧
      (s.requests.length ≤ s.installed.length ∧ s.reads.length ≤ s.requests.length ∧
        s.requests.length ≤ s.reads.length + 1 ∧ s.installed.length ≤ s.reads.length + 1) ∧
      (s.controller.stop = false → s.reads.length < s.requests.length → s.phase = .due) ∧
      ∀ (k : Nat) (u : Nat × Obs), s.reads[k]? = some u →
        s.observations[u.1]? = some u.2 ∧ ∃ r, s.requests[k]? = some r ∧ r ≤ u.1 := by
  have hkept := kept_reach hs
  have hhealthy := healthy_reach hs
  have hhistory := hkept.history
  obtain ⟨opened, unread, ahead, ⟨hrequests, hreads, hpredicted⟩, hopened, hunread, hahead, hplace, hdue⟩ :=
    hkept.stage.tally hhealthy.failures
  refine ⟨hkept.executed, hhealthy.rows, ⟨ahead, hpredicted, hahead, hplace⟩, ?_, ?_, ?_⟩
  · omega
  · exact fun hstop hlt => hdue hstop (by omega)
  · intro k u hu
    obtain ⟨hk, -⟩ := List.getElem?_eq_some_iff.mp hu
    have hr := List.getElem?_eq_getElem (hk.trans_le hkept.stage.reads_le)
    exact ⟨hhistory.seen u (List.mem_of_getElem? hu), _, hr, hhistory.fresh k _ u hr hu⟩

/-- A chunk of one column. -/
def column (values : List Int) : NdArray Int := ⟨[values.length, 1], values.map .fin, by simp⟩

/-- A controller of horizon two. -/
def smallLoop : OpenLoop Nat Int 2 where
  latestObs := 0
  chunk := ⟨[[0], [1], [2]], by decide, by decide⟩

theorem smallLoop_init : (openLoop Nat Int 2).init (begun smallLoop) := ⟨0, column [0, 1, 2], 2, smallLoop, rfl, rfl⟩

/-- The horizon is executed, and the thread reads an observation. -/
def smallActs : List (OpenLoopAct Nat Int) := [.step 1, .step 2, .infer, .infer, .infer, .infer, .step 3, .infer]

def successActs : List (OpenLoopAct Nat Int) :=
  smallActs ++ [.predict (.returned (column [100, 101])), .step 4, .infer, .step 5]

theorem successActs_run : ((openLoop Nat Int 2).run (begun smallLoop) successActs).map
    (fun s => (s.emitted, s.requests, s.reads)) = some ([[0], [1], [1], [1], [100]], [2], [(3, 3)]) := by
  decide

theorem chunk_execution_small : ∃ s : OpenLoopRun Nat Int 2, s.emitted = [[0], [1], [1], [1], [100]] ∧ s.requests = [2] ∧
    s.reads = [(3, 3)] ∧ s.Executed := by
  obtain ⟨s, hs, hseen⟩ := Option.map_eq_some_iff.mp successActs_run
  simp only [Prod.mk.injEq] at hseen
  refine ⟨s, hseen.1, hseen.2.1, hseen.2.2, (chunk_execution ⟨_, smallLoop_init, Machine.path_of_run hs ?_⟩).1⟩
  exact ⟨trivial, trivial, trivial, trivial, trivial, trivial, trivial, trivial, ⟨_, rfl⟩, trivial, trivial, trivial, trivial⟩

/-! ### Once a prediction has failed -/

/-- Some continuation asks for a prediction again. -/
def Recovers (s : OpenLoopRun Obs K h) : Prop :=
  ∃ t, (openLoop Obs K h).Path Machine.Free s t ∧ s.requests.length < t.requests.length

/-- Everything but the observations, the reports and the held rows has come to an end. -/
structure Ended (s t : OpenLoopRun Obs K h) : Prop where
  idle : t.controller.inflight = false ∧ t.controller.pending = none
  same : t.requests = s.requests ∧ t.predicted = s.predicted ∧ t.installed = s.installed
  held : t.controller.chunk = s.controller.chunk ∧ ∃ n, t.emitted = s.emitted ++ List.replicate n s.controller.chunk.last

theorem Stuck.ended (hs : s.Stuck) : Ended s s := ⟨⟨hs.idle, hs.empty⟩, ⟨rfl, rfl, rfl⟩, rfl, 0, by simp⟩

/-- A step of a controller that is stuck reports, or it emits the last row again. -/
theorem Stuck.step {a : OpenLoopAct Obs K} (hs : s.Stuck) (ht : (openLoop Obs K h).step s a = some t) :
    t.failures ≠ [] ∧ Ended s t := by
  cases a with
  | step obs =>
    have hstep := (Stage.stuck hs).stepped obs
    rw [show s.step obs = t from Option.some.inj ht] at hstep
    cases hstep with
    | report e he => exact ⟨hs.failures, ⟨hs.idle, hs.empty⟩, ⟨rfl, rfl, rfl⟩, rfl, 0, by simp [OpenLoopRun.stepped]⟩
    | hold => exact ⟨hs.failures, ⟨hs.idle, hs.empty⟩, ⟨rfl, rfl, rfl⟩, rfl, 1, rfl⟩
    | install c pending => cases hs.empty.symm.trans pending
    | row hi => exact absurd hs.index (Nat.lt_of_succ_lt hi).ne
    | ask _ hi => exact absurd hs.index (Nat.lt_of_succ_le hi.le).ne
  | infer =>
    have hquiet := hs.quiet
    cases infer_inferred ht with
    | move => exact ⟨hs.failures, ⟨hs.idle, hs.empty⟩, ⟨rfl, rfl, rfl⟩, rfl, 0, by simp⟩
    | read here | discard _ here | offer _ here | fail _ here => simp [phase, here] at hquiet
  | predict outcome =>
    have hquiet := hs.quiet
    obtain ⟨obs, here, -⟩ := predict_ok ht
    simp [phase, here] at hquiet
  | stop =>
    obtain rfl := Option.some.inj ht
    exact ⟨hs.failures, ⟨hs.idle, hs.empty⟩, ⟨rfl, rfl, rfl⟩, rfl, 0, by simp⟩
  | stopWake =>
    obtain ⟨-, ht⟩ := Option.ite_none_right_eq_some.mp ht
    obtain rfl := Option.some.inj ht
    exact ⟨hs.failures, ⟨hs.idle, hs.empty⟩, ⟨rfl, rfl, rfl⟩, rfl, 0, by simp⟩

theorem Stuck.path (hs : s.Stuck) (hkept : s.Kept) (ht : (openLoop Obs K h).Path Machine.Free s t) : Ended s t := by
  refine (ht.keeps (I := fun t => t.Kept ∧ t.failures ≠ [] ∧ Ended s t) ⟨hkept, hs.failures, hs.ended⟩ ?_).2.2
  rintro u a v - ⟨hu, hf, hidle, ⟨h₁, h₂, h₃⟩, hchunk, n, hn⟩ - hv
  obtain ⟨hfv, hidlev, ⟨h₁', h₂', h₃'⟩, hchunkv, m, hm⟩ := (hu.stage.of_failures hf).step hv
  refine ⟨hu.step hv, hfv, hidlev, ⟨h₁'.trans h₁, h₂'.trans h₂, h₃'.trans h₃⟩, hchunkv.trans hchunk, n + m, ?_⟩
  rw [hm, hn, hchunk, List.append_assoc, List.replicate_append_replicate]

theorem Stuck.not_recovers (hs : s.Stuck) (hkept : s.Kept) : ¬Recovers s := by
  rintro ⟨t, ht, hlt⟩
  exact absurd (congrArg List.length (hs.path hkept ht).same.1) hlt.ne'

/-- A controller that has reported a failure never asks for a prediction again: none is in flight, none is pending, and every
    step emits the last row. -/
theorem no_recovery (hs : (openLoop Obs K h).Reach Machine.Free s) (hr : s.reported ≠ []) :
    ¬Recovers s ∧ ∀ t, (openLoop Obs K h).Path Machine.Free s t → Ended s t := by
  have hkept := kept_reach hs
  have hstuck := hkept.stage.of_failures (hkept.reported hr)
  exact ⟨hstuck.not_recovers hkept, fun t => hstuck.path hkept⟩

def failingActs : List (OpenLoopAct Nat Int) := smallActs ++ [.predict (.raised "model failed"), .infer, .step 4]

theorem failing_run : ∃ s, (openLoop Nat Int 2).Reach Machine.Free s ∧ s.reported = ["model failed"] := by
  have hrun : ((openLoop Nat Int 2).run (begun smallLoop) failingActs).map (·.reported) = some ["model failed"] := by
    decide
  obtain ⟨s, hs, hreported⟩ := Option.map_eq_some_iff.mp hrun
  exact ⟨s, ⟨_, smallLoop_init, Machine.path_of_run hs (Machine.meets_free _ _)⟩, hreported⟩

theorem no_recovery_small : ∃ s : OpenLoopRun Nat Int 2, s.reported = ["model failed"] ∧ ¬Recovers s := by
  obtain ⟨s, hs, hr⟩ := failing_run
  exact ⟨s, hr, (no_recovery hs (by simp [hr])).1⟩

theorem recovery_missed : ¬∀ s : OpenLoopRun Nat Int 2, (openLoop Nat Int 2).Reach Machine.Free s → s.reported ≠ [] →
    Recovers s := by
  intro hclaim
  obtain ⟨s, hs, hr⟩ := failing_run
  have hkept := kept_reach hs
  have hreported : s.reported ≠ [] := by simp [hr]
  exact (hkept.stage.of_failures (hkept.reported hreported)).not_recovers hkept (hclaim s hs hreported)

end OpenLoopRun
end HumanoidLab
