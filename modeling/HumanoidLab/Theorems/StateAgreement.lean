import HumanoidLab.Theorems.BridgeCalls

/-! The two states that a PSI model has, the controller's and the session's. They agree outside the starts and the stops as long as a
    start runs beside no other call, the session moves on its own only while a start waits for it, and the controller comes to rest
    over no error of the session. -/

namespace HumanoidLab
open Concurrency

/-! ### The text of the calls -/

/-- The calls that end a start, other than by its own return. -/
def ModelCall.ends : ModelCall → Bool
  | .stop | .reset | .switch _ => true
  | _ => false

/-- A statement that changes nothing of a state. -/
def Statement.harmless : Statement → Bool
  | .active .status | .session .status | .report | .unmark | .release | .raise _ => true
  | _ => false

/-- A statement of a start, but for the status that it adopts. -/
def Statement.starts : Statement → Bool
  | .refuseSwitching | .refuseError | .active .start | .router _ | .session .start | .outside | .run => true
  | s => s.harmless

/-- A statement of a switch before its stop. -/
def Statement.opens : Statement → Bool
  | .lookup _ | .acquire _ | .mark _ | .previous _ => true
  | _ => false

/-- A statement of a stop, a reset or a switch that writes what `status` reads. -/
def Statement.writes : Statement → Bool
  | .halt | .ready | .fail _ | .select _ => true
  | _ => false

variable {s t : Statement} {rest todo : List Statement} {e : Exn}

theorem starts_of_harmless (h : s.harmless = true) : s.starts = true := by
  cases s with
  | active r => cases r <;> first | rfl | cases h
  | session q => cases q <;> first | rfl | cases h
  | _ => first | rfl | cases h

theorem unwind_harmless (h : ∀ a, .caught a ∉ rest) : ∀ t ∈ unwind e rest, t.harmless = true := by
  induction rest with
  | nil =>
    intro t ht
    obtain rfl := List.mem_singleton.mp ht
    rfl
  | cons s rest ih =>
    have hskip := ih fun a ha => h a (List.mem_cons_of_mem _ ha)
    cases s with
    | caught a => exact absurd List.mem_cons_self (h a)
    | unmark =>
      intro t ht
      simp only [unwind, List.mem_cons, List.not_mem_nil, or_false] at ht
      rcases ht with rfl | rfl | rfl <;> rfl
    | _ => exact hskip

theorem statusCode_harmless : ∀ t ∈ statusCode, t.harmless = true := by decide

theorem switchEnd_harmless : ∀ t ∈ switchEnd, t.harmless = true := by decide

theorem no_caught_of_starts (h : ∀ t ∈ rest, t.starts = true) (a : Attempt) : .caught a ∉ rest := by
  intro ha
  cases h _ ha

/-- What follows on the return of a call that a start has made. -/
theorem follow_starts {l : List Statement} (h : l = rest ∨ ∃ e, l = unwind e rest) (hrest : ∀ t ∈ rest, t.starts = true) :
    (∀ t ∈ l, t.starts = true) ∧ (.session .start ∈ l → .session .start ∈ rest) ∧ (.run ∈ l → .run ∈ rest) := by
  rcases h with rfl | ⟨e, rfl⟩
  · exact ⟨hrest, id, id⟩
  · have hharmless := unwind_harmless (e := e) (no_caught_of_starts hrest)
    exact ⟨fun t ht => starts_of_harmless (hharmless t ht), fun ht => (by cases hharmless _ ht), fun ht => (by cases hharmless _ ht)⟩

/-- What is left of a call that does nothing more to a state. -/
theorem own_harmless {b : Bridge} {m : Met} {k : Controller} (h : b.own s rest m = some (k, todo))
    (hs : ∀ t ∈ s :: rest, t.harmless = true) : ∀ t ∈ todo, t.harmless = true := by
  have hrest : ∀ t ∈ rest, t.harmless = true := fun t ht => hs t (List.mem_cons_of_mem _ ht)
  have hhead := hs s List.mem_cons_self
  cases s <;> cases m <;> simp only [Bridge.own, Option.some.injEq, Prod.mk.injEq, reduceCtorEq] at h <;>
    simp only [Statement.harmless, reduceCtorEq] at hhead
  case active r =>
    obtain ⟨-, rfl⟩ := h
    cases r with
    | status =>
      have hcode : ∀ t ∈ ActiveRead.status.code b.controller.selected.kind, t.harmless = true := by
        cases b.controller.selected.kind <;> decide
      exact fun t ht => (List.mem_append.mp ht).elim (hcode t) (hrest t)
    | _ => cases hhead
  case raise e' =>
    obtain ⟨-, rfl⟩ := h
    split
    · simp
    · exact unwind_harmless (no_caught_of_starts fun t ht => starts_of_harmless (hrest t ht))
  all_goals
    obtain ⟨-, rfl⟩ := h
    exact hrest

theorem active_starts {r : ActiveRead} (h : (Statement.active r).starts = true) (k : Kind) : (∀ t ∈ r.code k, t.starts = true) ∧
    (.session .start ∈ r.code k → k = .psi) ∧ (.run ∈ r.code k → k = .groot) := by
  cases r with
  | start | status => cases k <;> decide
  | _ => cases h

/-- What is left of a start: it goes on to a start of the session where a PSI model is selected, and to `RUNNING` at once where GR00T
    is. -/
theorem own_starts {b : Bridge} {m : Met} {k : Controller} (h : b.own s rest m = some (k, todo))
    (hs : ∀ t ∈ s :: rest, t.starts = true) : (∀ t ∈ todo, t.starts = true) ∧
    (.session .start ∈ todo → .session .start ∈ rest ∨ b.controller.selected.kind = .psi) ∧
    (.run ∈ todo → .run ∈ rest ∨ b.controller.selected.kind = .groot) := by
  have hrest : ∀ t ∈ rest, t.starts = true := fun t ht => hs t (List.mem_cons_of_mem _ ht)
  have hhead := hs s List.mem_cons_self
  have hsame : (∀ t ∈ rest, t.starts = true) ∧ (.session .start ∈ rest → .session .start ∈ rest ∨ b.controller.selected.kind = .psi) ∧
      (.run ∈ rest → .run ∈ rest ∨ b.controller.selected.kind = .groot) := ⟨hrest, Or.inl, Or.inl⟩
  have hunwind (e : Exn) : (∀ t ∈ unwind e rest, t.starts = true) ∧
      (.session .start ∈ unwind e rest → .session .start ∈ rest ∨ b.controller.selected.kind = .psi) ∧
      (.run ∈ unwind e rest → .run ∈ rest ∨ b.controller.selected.kind = .groot) := by
    have hharmless := unwind_harmless (e := e) (no_caught_of_starts hrest)
    exact ⟨fun t ht => starts_of_harmless (hharmless t ht), fun ht => (by cases hharmless _ ht), fun ht => (by cases hharmless _ ht)⟩
  cases s <;> cases m <;> simp only [Bridge.own, Option.some.injEq, Prod.mk.injEq, reduceCtorEq] at h <;>
    simp only [Statement.starts, Statement.harmless, reduceCtorEq] at hhead
  case active r =>
    obtain ⟨-, rfl⟩ := h
    obtain ⟨hcode, hpsi, hgroot⟩ := active_starts hhead b.controller.selected.kind
    refine ⟨fun t ht => ?_, fun ht => ?_, fun ht => ?_⟩
    · exact (List.mem_append.mp ht).elim (hcode t) (hrest t)
    · exact (List.mem_append.mp ht).symm.imp_right hpsi
    · exact (List.mem_append.mp ht).symm.imp_right hgroot
  case refuseSwitching | refuseError =>
    obtain ⟨-, rfl⟩ := h
    split
    · exact hunwind _
    · exact hsame
  case outside.raises e' =>
    obtain ⟨-, rfl⟩ := h
    exact hunwind e'
  case raise e' =>
    obtain ⟨-, rfl⟩ := h
    split
    · simp
    · exact hunwind e'
  all_goals
    obtain ⟨-, rfl⟩ := h
    exact hsame

theorem calm_of_harmless (h : s.harmless = true) : s.calm = true := by
  cases s with
  | active r => cases r <;> first | rfl | cases h
  | session q => cases q <;> first | rfl | cases h
  | _ => first | rfl | cases h

theorem calm_of_opens (h : s.opens = true) : s.calm = true := by cases s <;> first | rfl | cases h

/-! ### A start that waits -/

/-- A thread in a start of the session that was accepted, before it has read the status. -/
def waits : Place Point Section → Bool
  | .at (.startReady _) | .at (.startStop _) | .at (.startGate _) | .at (.startResume _) | .at (.startSpawn _) => true
  | .at (.startWait _) => true
  | .want (.startThread _) | .inside (.startThread _) => true
  | .want (.status .start) | .inside (.status .start) => true
  | _ => false

theorem request_of_waits {pl : Place Point Section} (h : waits pl = true) : request pl = some .start := by
  unfold waits at h
  split at h <;> first | rfl | cases h

/-- A start of the session comes to wait, and reads the status where its wait ends; or it is refused. -/
theorem start_step {i : Nat} {c : Choice} {pl : Place Point Section} {w : Guarded World} {x : Place Point Section × Guarded World}
    (h : sessionProgram.threads i pl c w = some x) (hpl : request pl = some .start) (hstop : stopRequest pl = none)
    (hdone : ∀ q res, pl ≠ .at (.done q res)) :
    waits x.1 = true ∨
    waits pl = true ∧ x.1 = .at (.done .start (.status w.data.session.status)) ∧ x.2.data.session = w.data.session ∨
    waits pl = false ∧ ∀ s, x.1 ≠ .at (.done .start (.status s)) := by
  rcases Locking.threads_cases h with ⟨p, n, d, rfl, hp, rfl⟩ | ⟨k, rfl, -, rfl⟩ | ⟨k, e, d, rfl, hb, rfl⟩
  · have hp : point i p c w.data = some (n, d) := hp
    cases p with
    | startReady g | startStop g | startGate g | startResume g | startSpawn g | startWait g =>
      cases c <;> simp only [point, reduceCtorEq] at hp
      obtain ⟨rfl, -⟩ := Prod.mk.inj (Option.some.inj hp)
      exact Or.inl rfl
    | done q res => exact absurd rfl (hdone q res)
    | stopGate q | stopHalt q | stopEvent q | stopJoin q => cases hstop
    | _ => cases hpl
  · cases k with
    | startThread g => exact Or.inl rfl
    | startCheck => exact Or.inr (Or.inr ⟨rfl, by simp⟩)
    | status q =>
      obtain rfl : q = .start := Option.some.inj hpl
      exact Or.inl rfl
    | stopFinish q => cases hstop
    | _ => cases hpl
  · have hb : body i k w.data = (e, d) := hb
    cases k with
    | startThread g =>
      obtain ⟨rfl, -⟩ := Prod.mk.inj hb
      exact Or.inl rfl
    | startCheck =>
      simp only [body] at hb
      split at hb
      · obtain ⟨rfl, -⟩ := Prod.mk.inj hb
        exact Or.inl rfl
      · split at hb <;> obtain ⟨rfl, -⟩ := Prod.mk.inj hb
        · exact Or.inr (Or.inr ⟨rfl, by simp [Exit.place, Next.place]⟩)
        · exact Or.inl rfl
    | status q =>
      obtain rfl : q = .start := Option.some.inj hpl
      obtain ⟨rfl, rfl⟩ := Prod.mk.inj hb
      exact Or.inr (Or.inl ⟨rfl, rfl, rfl⟩)
    | stopFinish q => cases hstop
    | _ => cases hpl

/-- The beginning of a call. -/
def BridgeStep.calls : BridgeStep → Bool
  | .call _ _ => true
  | _ => false

namespace Bridge

variable {b b' : Bridge} {a : BridgeStep} {i j k : Nat}

/-! ### The condition -/

/-- No start runs beside another call, those of `status` apart. -/
def alone (b : Bridge) : ModelCall → Prop
  | .status => True
  | .start => ∀ j, (b.caller j).call = none ∨ (b.caller j).call = some .status
  | _ => ∀ j, (b.caller j).call ≠ some .start

/-- The current streaming thread announces itself or fails. -/
def changes (b : Bridge) (a : BridgeStep) : Bool :=
  match b.block a with
  | some (.loop g .announce) | some (.loop g (.fail _)) => g == b.psi.generation
  | _ => false

/-- The controller becomes `IDLE` over a PSI model, or selects one. -/
def settles (b : Bridge) (a : BridgeStep) : Bool :=
  match b.taken a with
  | some .ready => b.controller.selected.kind == .psi
  | some (.select e) => e.kind == .psi
  | _ => false

/-- The steps that keep the two states together: a start begins beside no other call, and no other call beside a start; the session
    moves on its own only while a start waits for it; and the controller comes to rest over no error of the session. -/
structure Timely (b : Bridge) (a : BridgeStep) : Prop where
  alone : ∀ i c, a = .call i c → b.alone c
  changes : b.changes a = true → ∃ j, waits (b.session.threads j) = true
  settles : b.settles a = true → b.psi.state ≠ .error

/-! ### What holds of the calls -/

/-- The two states agree, in the terms of a model that is selected. -/
structure Agrees (b : Bridge) : Prop where
  running : b.psi.state = .running → b.controller.selected.kind = .psi ∧ b.controller.state = .running
  reported : b.controller.selected.kind = .psi → b.controller.state = .running → b.psi.state = .running
  error : b.controller.selected.kind = .psi → b.psi.state = .error → b.controller.state = .error ∧ b.controller.error.isSome = true

/-- A stop has stopped the session, and the controller does not show it yet. -/
def between (b : Bridge) (j : Nat) : Bool :=
  match (b.caller j).call, (b.caller j).todo with
  | some _, .halt :: _ => true
  | some _, .session .stop :: .halt :: _ => !beforeFinish (b.session.threads j)
  | _, _ => false

/-- They agree but for a stop that is on its way. -/
structure Rest (b : Bridge) : Prop where
  running : b.psi.state = .running → b.controller.selected.kind = .psi ∧ b.controller.state = .running
  reported : b.controller.selected.kind = .psi → b.controller.state = .running → b.psi.state = .running ∨ ∃ j, b.between j = true
  error : b.controller.selected.kind = .psi → b.psi.state = .error → b.controller.state = .error ∧ b.controller.error.isSome = true

/-- How far a start is. -/
inductive StartCourse (b : Bridge) (i : Nat) : Prop
  | quiet (agrees : Agrees b) (text : ∀ t ∈ (b.caller i).todo, t.starts = true)
      (psi : .session .start ∈ (b.caller i).todo → b.controller.selected.kind = .psi)
      (groot : .run ∈ (b.caller i).todo → b.controller.selected.kind = .groot)
      (waits : HumanoidLab.waits (b.session.threads i) = false)
      (read : ∀ s, b.session.threads i ≠ .at (.done .start (.status s)))
  | waiting (rest : List Statement) (todo : (b.caller i).todo = .session .start :: rest) (text : ∀ t ∈ rest, t.starts = true)
      (run : .run ∉ rest) (psi : b.controller.selected.kind = .psi) (waits : HumanoidLab.waits (b.session.threads i) = true)
  | read (rest : List Statement) (s : SessionStatus)
      (todo : (b.caller i).todo = .session .start :: rest ∧ b.session.threads i = .at (.done .start (.status s)) ∨
        (b.caller i).todo = .adopt s :: rest) (text : ∀ t ∈ rest, t.starts = true) (run : .run ∉ rest)
      (psi : b.controller.selected.kind = .psi) (state : s.state = b.psi.state)
      (error : b.psi.state = .error → s.error.isSome = true)

/-- How far a stop, a reset or a switch is. -/
inductive EndCourse (b : Bridge) (j : Nat) : Prop
  | opening (s : Statement) (todo : (b.caller j).todo = [s]) (opens : s.opens = true)
  | halting (rest : List Statement) (todo : (b.caller j).todo = .router .halt :: .active .stop :: .halt :: rest)
      (text : ∀ t ∈ rest, t.calm = true)
  | reading (rest : List Statement) (todo : (b.caller j).todo = .active .stop :: .halt :: rest) (text : ∀ t ∈ rest, t.calm = true)
  | ending (rest : List Statement) (todo : (b.caller j).todo = .session .stop :: .halt :: rest) (text : ∀ t ∈ rest, t.calm = true)
      (psi : beforeFinish (b.session.threads j) = true ∨ b.psi.state ≠ .running)
  | writing (rest : List Statement) (todo : (b.caller j).todo = .halt :: rest) (text : ∀ t ∈ rest, t.calm = true)
      (psi : b.psi.state ≠ .running)
  | past (text : ∀ t ∈ (b.caller j).todo, t.calm = true) (psi : b.psi.state ≠ .running) (state : b.controller.state ≠ .running)
  | harmless (text : ∀ t ∈ (b.caller j).todo, t.harmless = true)

/-- What holds in the runs whose steps are timely. -/
structure Agreeing (b : Bridge) : Prop where
  alone : ∀ i j, (b.caller i).call = some .start → j ≠ i → (b.caller j).call = none ∨ (b.caller j).call = some .status
  status : ∀ j, (b.caller j).call = some .status → ∀ t ∈ (b.caller j).todo, t.harmless = true
  start : ∀ i, (b.caller i).call = some .start → StartCourse b i
  ends : ∀ j c, (b.caller j).call = some c → c.ends = true → EndCourse b j
  rest : (∀ i, (b.caller i).call ≠ some .start) → Rest b
  message : b.psi.state = .error → b.psi.error.isSome = true

/-! ### What a step does to the two states -/

theorem StartCourse.head (h : StartCourse b i) (htodo : (b.caller i).todo = s :: rest) : s.starts = true ∨ ∃ st, s = .adopt st := by
  cases h with
  | quiet _ text _ _ _ _ => exact Or.inl (text s (by rw [htodo]; exact List.mem_cons_self))
  | waiting _ todo _ _ _ _ =>
    rw [htodo] at todo
    obtain ⟨rfl, -⟩ := List.cons.inj todo
    exact Or.inl rfl
  | read _ st todo _ _ _ _ _ =>
    rw [htodo] at todo
    rcases todo with ⟨todo, -⟩ | todo
    · obtain ⟨rfl, -⟩ := List.cons.inj todo
      exact Or.inl rfl
    · obtain ⟨rfl, -⟩ := List.cons.inj todo
      exact Or.inr ⟨st, rfl⟩

theorem EndCourse.head (h : EndCourse b j) (htodo : (b.caller j).todo = s :: rest) : s.calm = true := by
  cases h with
  | opening s' todo opens =>
    rw [htodo] at todo
    obtain ⟨rfl, -⟩ := List.cons.inj todo
    exact calm_of_opens opens
  | halting _ todo _ | reading _ todo _ | ending _ todo _ _ | writing _ todo _ _ =>
    rw [htodo] at todo
    obtain ⟨rfl, -⟩ := List.cons.inj todo
    rfl
  | past text _ _ => exact text s (by rw [htodo]; exact List.mem_cons_self)
  | harmless text => exact calm_of_harmless (text s (by rw [htodo]; exact List.mem_cons_self))

/-- The statement that a call has next, by what call it is. -/
theorem Agreeing.head (ha : Agreeing b) {c : ModelCall} (hcall : (b.caller i).call = some c) (htodo : (b.caller i).todo = s :: rest) :
    (c = .status ∧ s.harmless = true) ∨ (c = .start ∧ (s.starts = true ∨ ∃ st, s = .adopt st)) ∨ (c.ends = true ∧ s.calm = true) := by
  cases c with
  | status => exact Or.inl ⟨rfl, ha.status i hcall s (by rw [htodo]; exact List.mem_cons_self)⟩
  | start => exact Or.inr (Or.inl ⟨rfl, (ha.start i hcall).head htodo⟩)
  | _ => exact Or.inr (Or.inr ⟨rfl, (ha.ends i _ hcall rfl).head htodo⟩)

theorem Agreeing.starting (ha : Agreeing b) (hb : Sound b) (h : request (b.session.threads i) = some .start) :
    (b.caller i).call = some .start := by
  obtain ⟨c, rest, hcall, htodo⟩ := hb.calling h
  rcases ha.head hcall htodo with ⟨-, hs⟩ | ⟨rfl, -⟩ | ⟨-, hs⟩
  · cases hs
  · exact hcall
  · cases hs

theorem Agreeing.ending (ha : Agreeing b) (hb : Sound b) {q : Request} (h : request (b.session.threads i) = some q)
    (hq : (Statement.session q).starts = false) :
    ∃ c rest, (b.caller i).call = some c ∧ c.ends = true ∧ (b.caller i).todo = .session q :: rest := by
  obtain ⟨c, rest, hcall, htodo⟩ := hb.calling h
  rcases ha.head hcall htodo with ⟨-, hs⟩ | ⟨-, hs | ⟨st, hs⟩⟩ | ⟨hends, -⟩
  · rw [starts_of_harmless hs] at hq
    cases hq
  · rw [hs] at hq
    cases hq
  · cases hs
  · exact ⟨c, rest, hcall, hends, htodo⟩

/-- What a step does to the session's state. -/
inductive PsiStep (b : Bridge) (a : BridgeStep) (b' : Bridge) : Prop
  | same (state : b'.psi.state = b.psi.state)
  | stops (i : Nat) (ch : Choice) (c : ModelCall) (rest : List Statement) (step : a = .session i ch)
      (call : (b.caller i).call = some c) (ends : c.ends = true) (todo : (b.caller i).todo = .session .stop :: rest)
      (place : b.session.threads i = .inside (.stopFinish .stop)) (psi : b'.psi = b.psi.stopFinish)
  | adopts (c : ModelCall) (info : ServerInfo) (call : (b.caller a.actor).call = some c) (ends : c.ends = true)
      (psi : b'.psi = b.psi.adoptPolicy info)
  | moves (j : Nat) (waits : HumanoidLab.waits (b.session.threads j) = true)

theorem Agreeing.psi_step (ha : Agreeing b) (hb : Sound b) (hc : Timely b a) (h : Moves b a b') : PsiStep b a b' := by
  rcases h.inSession with ⟨hsame, -⟩ | ⟨i, ch, x, rfl, act, rfl⟩
  · exact .same (congrArg Session.state hsame)
  · have hpsi : Bridge.psi { b with session := b.session.set i x } = x.2.data.session := rfl
    cases hb.change act with
    | same same => exact .same (Session.lifecycle_eq same).1
    | accepted _ _ session =>
      refine .same ?_
      rw [hpsi, session]
      rfl
    | stopFinish q at_ session =>
      have hq : stopRequest (b.session.threads i) = some q := by rw [at_]; rfl
      have hrequest := request_of_stopRequest hq
      obtain rfl : q = .stop := by
        rcases hb.ends i q hq with rfl | rfl
        · rfl
        · obtain ⟨c, rest, -, htodo⟩ := hb.calling hrequest
          cases hb.driven i .reset (by rw [htodo]; exact List.mem_cons_self)
      obtain ⟨c, rest, hcall, hends, htodo⟩ := ha.ending hb hrequest rfl
      exact .stops i ch c rest rfl hcall hends htodo at_ session
    | adoptPolicy info at_ session =>
      have hrequest : request (b.session.threads i) = some (.adoptPolicy info) := by rw [at_]; rfl
      obtain ⟨c, rest, hcall, hends, -⟩ := ha.ending hb hrequest rfl
      exact .adopts c info hcall hends session
    | announce g at_ current _ | fail g _ at_ current _ =>
      obtain ⟨j, hj⟩ := hc.changes (by simp [Bridge.changes, block_session at_, current])
      exact .moves j hj

/-- What a step does to the controller's state. -/
theorem Moves.writes (h : Moves b a b') :
    (b'.controller.state = b.controller.state ∧ b'.controller.error = b.controller.error ∧
      b'.controller.selected = b.controller.selected) ∨
    ∃ c s rest, (b.caller a.actor).call = some c ∧ (b.caller a.actor).todo = s :: rest ∧ b.taken a = some s ∧
      Writes b.controller s b'.controller ∧ b'.psi = b.psi := by
  cases h with
  | own busy todo act => exact Or.inr ⟨_, _, _, busy, todo, taken_go todo, own_writes act, rfl⟩
  | _ => exact Or.inl ⟨rfl, rfl, rfl⟩

theorem message_step {pl : Place Point Section} {s s' : Session} (h : Change pl s s')
    (hs : s.state = .error → s.error.isSome = true) (herror : s'.state = .error) : s'.error.isSome = true := by
  cases h with
  | same same =>
    obtain ⟨hstate, herror', -⟩ := Session.lifecycle_eq same
    rw [herror']
    exact hs (hstate ▸ herror)
  | accepted _ state session =>
    subst session
    exact absurd herror state.2
  | stopFinish _ _ session =>
    subst session
    simp only [Session.stopFinish] at herror ⊢
    split at herror
    · cases herror
    · exact hs herror
  | adoptPolicy _ _ session =>
    subst session
    simp only [Session.adoptPolicy] at herror
    split at herror
    · cases herror
    · rename_i hrunning
      rw [herror] at hrunning
      simp at hrunning
  | announce _ _ _ session =>
    subst session
    cases herror
  | fail _ _ _ _ session =>
    subst session
    rfl

/-! ### Where no start is in progress -/

theorem Agreeing.no_waits (ha : Agreeing b) (hb : Sound b) (hno : ∀ i, (b.caller i).call ≠ some .start) (j : Nat) :
    waits (b.session.threads j) = false := by
  cases hwaits : waits (b.session.threads j) with
  | false => rfl
  | true => exact absurd (ha.starting hb (request_of_waits hwaits)) (hno j)

/-- The session comes neither to `RUNNING` nor to `ERROR`. -/
theorem Agreeing.psi_calm (ha : Agreeing b) (hb : Sound b) (hc : Timely b a) (h : Moves b a b')
    (hno : ∀ i, (b.caller i).call ≠ some .start) :
    (b'.psi.state = .running → b.psi.state = .running) ∧ (b'.psi.state = .error → b.psi.state = .error) := by
  cases ha.psi_step hb hc h with
  | same state => rw [state]; exact ⟨id, id⟩
  | stops _ _ _ _ _ _ _ _ _ psi =>
    rw [psi]
    refine ⟨fun hrunning => absurd hrunning (stopFinish_state b.psi), fun herror => ?_⟩
    simp only [Session.stopFinish] at herror
    split at herror
    · cases herror
    · exact herror
  | adopts _ info _ _ psi =>
    rw [psi]
    simp only [Session.adoptPolicy]
    split
    · simp
    · exact ⟨id, id⟩
  | moves j hwaits =>
    rw [ha.no_waits hb hno j] at hwaits
    cases hwaits

/-- What the controller writes is written by a stop, a reset or a switch. -/
theorem Agreeing.writes_calm (ha : Agreeing b) (h : Moves b a b') (hno : ∀ i, (b.caller i).call ≠ some .start) :
    (b'.controller.state = b.controller.state ∧ b'.controller.error = b.controller.error ∧
      b'.controller.selected = b.controller.selected) ∨
    ∃ c s rest, (b.caller a.actor).call = some c ∧ c.ends = true ∧ (b.caller a.actor).todo = s :: rest ∧ s.writes = true ∧
      b.taken a = some s ∧ Writes b.controller s b'.controller ∧ b'.psi = b.psi := by
  rcases h.writes with hsame | ⟨c, s, rest, hcall, htodo, htaken, hwrites, hpsi⟩
  · exact Or.inl hsame
  · rcases ha.head hcall htodo with ⟨-, hs⟩ | ⟨rfl, -⟩ | ⟨hends, hs⟩
    · generalize b'.controller = k at hwrites ⊢
      cases hwrites with
      | reads state error selected _ => exact Or.inl ⟨state, error, selected⟩
      | _ => cases hs
    · exact absurd hcall (hno _)
    · by_cases hkind : s.writes = true
      · exact Or.inr ⟨c, s, rest, hcall, hends, htodo, hkind, htaken, hwrites, hpsi⟩
      · generalize b'.controller = k at hwrites ⊢
        cases hwrites with
        | reads state error selected _ => exact Or.inl ⟨state, error, selected⟩
        | adopt _ | run => cases hs
        | _ => exact absurd rfl hkind

theorem halt_state (c : Controller) : c.halt.state ≠ .running := by
  simp only [Controller.halt]
  split
  · rename_i herror
    simp [herror]
  · simp

theorem Agreeing.state_calm (ha : Agreeing b) (h : Moves b a b') (hno : ∀ i, (b.caller i).call ≠ some .start)
    (hstate : b.controller.state ≠ .running) : b'.controller.state ≠ .running := by
  rcases ha.writes_calm h hno with ⟨hsame, -⟩ | ⟨c, s, rest, -, -, -, hs, -, hwrites, -⟩
  · rw [hsame]
    exact hstate
  · generalize b'.controller = k at hwrites ⊢
    cases hwrites with
    | adopt _ | run => cases hs
    | halt => exact halt_state _
    | ready => simp
    | fail text => simp
    | select e => exact hstate
    | reads state _ _ _ => rw [state]; exact hstate

theorem EndCourse.stay (h : EndCourse b j) (hcaller : b'.caller j = b.caller j)
    (hplace : b'.session.threads j = b.session.threads j) (hpsi : b.psi.state ≠ .running → b'.psi.state ≠ .running)
    (hstate : b.controller.state ≠ .running → b'.controller.state ≠ .running) : EndCourse b' j := by
  cases h with
  | opening s todo opens => exact .opening s (by rw [hcaller, todo]) opens
  | halting rest todo text => exact .halting rest (by rw [hcaller, todo]) text
  | reading rest todo text => exact .reading rest (by rw [hcaller, todo]) text
  | ending rest todo text psi => exact .ending rest (by rw [hcaller, todo]) text (by rw [hplace]; exact psi.imp_right hpsi)
  | writing rest todo text psi => exact .writing rest (by rw [hcaller, todo]) text (hpsi psi)
  | past text psi state => exact .past (by rw [hcaller]; exact text) (hpsi psi) (hstate state)
  | harmless text => exact .harmless (by rw [hcaller]; exact text)

/-- A switch before its stop. -/
theorem own_opens {m : Met} {x : Controller} (h : b.own s [] m = some (x, todo)) (hs : s.opens = true) :
    (∃ s', todo = [s'] ∧ s'.opens = true) ∨ (∀ t ∈ todo, t.harmless = true) ∨
    ∃ rest, todo = .router .halt :: .active .stop :: .halt :: rest ∧ ∀ t ∈ rest, t.calm = true := by
  have hunwind (e : Exn) : ∀ t ∈ unwind e [], t.harmless = true := unwind_harmless (by simp)
  cases s <;> cases m <;> simp only [Bridge.own, Option.some.injEq, Prod.mk.injEq, reduceCtorEq] at h <;> cases hs
  case lookup id =>
    obtain ⟨-, rfl⟩ := h
    split
    · exact Or.inr (Or.inl (hunwind _))
    · split
      · exact Or.inl ⟨_, rfl, rfl⟩
      · exact Or.inr (Or.inl (hunwind _))
  case acquire target =>
    split at h <;> obtain ⟨-, rfl⟩ := Prod.mk.inj (Option.some.inj h)
    · exact Or.inr (Or.inl (hunwind _))
    · exact Or.inl ⟨_, rfl, rfl⟩
  case mark target =>
    obtain ⟨-, rfl⟩ := h
    exact Or.inl ⟨_, rfl, rfl⟩
  case previous target =>
    obtain ⟨-, rfl⟩ := h
    split
    · refine Or.inr (Or.inr ⟨_, rfl, fun t ht => ?_⟩)
      have hmem : t ∈ changeCode target b.controller.selected ++ (switchEnd ++ []) :=
        List.mem_cons_of_mem _ (List.mem_cons_of_mem _ (List.mem_cons_of_mem _ ht))
      rcases List.mem_append.mp hmem with hcode | hend
      · exact changeCode_calm _ _ t hcode
      · exact switchEnd_calm t (by simpa using hend)
    · exact Or.inr (Or.inl fun t ht => switchEnd_harmless t (by simpa using ht))

/-- A call that does nothing more to a state does nothing to the end. -/
theorem Goes.harmless (h : Goes b k todo a b') (htodo : (b.caller k).todo = todo) (text : ∀ t ∈ todo, t.harmless = true) :
    ∀ t ∈ (b'.caller k).todo, t.harmless = true := by
  cases h with
  | returns => simp
  | callsRouter _ _ | router _ _ | routerReturns _ _ => cases text _ List.mem_cons_self
  | callsSession _ _ | session _ _ _ =>
    intro t ht
    exact text t (htodo ▸ ht)
  | @sessionReturns q rest res _ _ _ =>
    have hrest : ∀ t ∈ rest, t.harmless = true := fun t ht => text t (List.mem_cons_of_mem _ ht)
    have hq : q ≠ .start := by
      rintro rfl
      cases text _ List.mem_cons_self
    simp only [goto_self]
    cases res with
    | raised text' => exact unwind_harmless (no_caught_of_starts fun t ht => starts_of_harmless (hrest t ht))
    | status st => simpa only [Result.follow, if_neg hq] using hrest
    | _ => exact hrest
  | own _ act =>
    simp only [goto_self]
    exact own_harmless act text

theorem EndCourse.goes (hb : Sound b) (hrest : Rest b) (h : Goes b k todo a b') (htodo : (b.caller k).todo = todo)
    (hcourse : EndCourse b k) (hpsi : b.psi.state ≠ .running → b'.psi.state ≠ .running)
    (hstate : b.controller.state ≠ .running → b'.controller.state ≠ .running) : EndCourse b' k := by
  cases hcourse with
  | opening s hcode opens =>
    rw [← htodo, hcode] at h
    cases h with
    | own idle act =>
      rcases own_opens act opens with ⟨s', rfl, hs'⟩ | hharmless | ⟨rest, rfl, hcalm⟩
      · exact .opening s' (by simp [goto_self]) hs'
      · exact .harmless (by simpa [goto_self] using hharmless)
      · exact .halting rest (by simp [goto_self]) hcalm
    | _ => cases opens
  | halting rest hcode text =>
    rw [← htodo, hcode] at h
    cases h with
    | callsRouter _ _ | router _ _ => exact .halting rest hcode text
    | routerReturns done _ =>
      obtain rfl := hb.mute k _ .halt _ done rfl
      exact .reading rest (by simp [goto_self, RouterResult.follow]) text
    | own _ act => cases act
  | reading rest hcode text =>
    rw [← htodo, hcode] at h
    cases h with
    | @own _ _ m _ _ idle act =>
      cases m <;> simp only [Bridge.own, Option.some.injEq, Prod.mk.injEq, reduceCtorEq] at act
      obtain ⟨rfl, rfl⟩ := act
      cases hkind : b.controller.selected.kind with
      | psi =>
        refine .ending rest (by simp [goto_self, ActiveRead.code]) text (Or.inl ?_)
        simp [idle, beforeFinish]
      | groot =>
        refine .writing rest (by simp [goto_self, ActiveRead.code]) text fun hrunning => ?_
        have := (hrest.running hrunning).1
        rw [hkind] at this
        cases this
  | ending rest hcode text psi =>
    rw [← htodo, hcode] at h
    cases h with
    | callsSession _ act =>
      refine .ending rest hcode text (Or.inl ?_)
      simp [(session_call act).1, Request.entry, Next.place, beforeFinish]
    | session request act _ =>
      refine .ending rest hcode text ?_
      rcases psi with hbefore | hstopped
      · have hpl : b.session.threads k ≠ .at .idle := by
          intro hpl
          rw [hpl] at request
          cases request
        rcases (before_step act hpl).2 hbefore with hstill | ⟨q, hat⟩
        · exact Or.inl (by simpa using hstill)
        · rw [hat] at act
          obtain rfl := Option.some.inj act
          exact Or.inr (stopFinish_state b.psi)
      · exact Or.inr (hpsi hstopped)
    | @sessionReturns _ _ res _ done act =>
      obtain ⟨st, rfl⟩ := hb.stops k res done
      refine .writing rest (by simp [goto_self, Result.follow]) text (hpsi ?_)
      rcases psi with hbefore | hstopped
      · simp [done, beforeFinish] at hbefore
      · exact hstopped
    | own _ act => cases act
  | writing rest hcode text psi =>
    rw [← htodo, hcode] at h
    cases h with
    | @own _ _ m _ _ _ act =>
      cases m <;> simp only [Bridge.own, Option.some.injEq, Prod.mk.injEq, reduceCtorEq] at act
      obtain ⟨rfl, rfl⟩ := act
      exact .past (by simpa [goto_self] using text) psi (halt_state _)
  | past text psi state =>
    have hkept (l : List Statement) (hl : (b'.caller k).todo = l) (hcalm : ∀ t ∈ l, t.calm = true) : EndCourse b' k :=
      .past (by rw [hl]; exact hcalm) (hpsi psi) (hstate state)
    rw [htodo] at text
    have htail (s : Statement) (rest : List Statement) (h : todo = s :: rest) : ∀ t ∈ rest, t.calm = true :=
      fun t ht => text t (by rw [h]; exact List.mem_cons_of_mem _ ht)
    cases h with
    | returns => exact .harmless (by simp)
    | callsRouter _ _ | router _ _ | callsSession _ _ | session _ _ _ => exact hkept _ htodo text
    | @routerReturns q rest n res _ _ _ =>
      refine hkept (res.follow q rest) (by simp [goto_self]) fun t ht => ?_
      cases res with
      | raised text' => exact (unwind_calm ht).elim (htail _ _ rfl t) id
      | _ => exact htail _ _ rfl t ht
    | @sessionReturns q rest res _ _ _ =>
      refine hkept (res.follow q rest) (by simp [goto_self]) fun t ht => ?_
      cases res with
      | raised text' => exact (unwind_calm ht).elim (htail _ _ rfl t) id
      | status st =>
        have hq : q ≠ .start := by
          rintro rfl
          cases text _ List.mem_cons_self
        simp only [Result.follow, if_neg hq] at ht
        exact htail _ _ rfl t ht
      | _ => exact htail _ _ rfl t ht
    | @own s rest m _ todo' _ act =>
      refine hkept todo' (by simp [goto_self]) fun t ht => ?_
      have hs : s ≠ .active .start := by
        rintro rfl
        cases text _ List.mem_cons_self
      exact (own_calm act hs ht).elim (htail _ _ rfl t) id
  | harmless text => exact .harmless (h.harmless htodo (htodo ▸ text))

/-- What is written is written over a session that is not `RUNNING`, and by a controller that is not, but for the end of a stop. -/
theorem EndCourse.written (h : EndCourse b k) (htodo : (b.caller k).todo = s :: rest) (hs : s.writes = true) :
    b.psi.state ≠ .running ∧ (s = .halt ∨ b.controller.state ≠ .running) := by
  cases h with
  | opening s' todo opens =>
    rw [htodo] at todo
    obtain ⟨rfl, -⟩ := List.cons.inj todo
    cases s <;> simp_all [Statement.writes, Statement.opens]
  | halting _ todo _ | reading _ todo _ | ending _ todo _ _ =>
    rw [htodo] at todo
    obtain ⟨rfl, -⟩ := List.cons.inj todo
    cases hs
  | writing _ todo _ psi =>
    rw [htodo] at todo
    obtain ⟨rfl, -⟩ := List.cons.inj todo
    exact ⟨psi, Or.inl rfl⟩
  | past _ psi state => exact ⟨psi, Or.inr state⟩
  | harmless text =>
    have hharmless := text s (by rw [htodo]; exact List.mem_cons_self)
    cases s <;> simp_all [Statement.writes, Statement.harmless]

/-- A session that is `RUNNING` is stopped by a stop that has still to be written. -/
theorem EndCourse.stops (h : EndCourse b k) (htodo : (b.caller k).todo = .session .stop :: rest) (hpsi : b.psi.state = .running) :
    ∃ rest', (b.caller k).todo = .session .stop :: .halt :: rest' := by
  cases h with
  | ending rest' todo _ _ => exact ⟨rest', todo⟩
  | past _ psi _ => exact absurd hpsi psi
  | opening _ todo opens =>
    rw [htodo] at todo
    obtain ⟨rfl, -⟩ := List.cons.inj todo
    cases opens
  | halting _ todo _ | reading _ todo _ | writing _ todo _ _ =>
    rw [htodo] at todo
    cases todo
  | harmless text => cases text _ (by rw [htodo]; exact List.mem_cons_self)

theorem stopFinish_place {ch : Choice} {q : Request} {w : Guarded World} {x : Place Point Section × Guarded World}
    (h : sessionProgram.threads i (.inside (.stopFinish q)) ch w = some x) : beforeFinish x.1 = false := by
  obtain rfl := Option.some.inj h
  by_cases hq : q = .reset <;> simp [sessionProgram, body, Exit.place, Next.place, hq, beforeFinish]

theorem between_iff : b.between j = true ↔ (∃ c rest, (b.caller j).call = some c ∧ (b.caller j).todo = .halt :: rest) ∨
    ∃ c rest, (b.caller j).call = some c ∧ (b.caller j).todo = .session .stop :: .halt :: rest ∧
      beforeFinish (b.session.threads j) = false := by
  unfold between
  split <;> simp_all

/-- The end of a stop takes the controller out of `RUNNING`. -/
theorem Moves.halted (h : Moves b a b') (htaken : b.taken a = some .halt) : b'.controller.state ≠ .running := by
  obtain ⟨i, m, rest, rfl, htodo⟩ := taken_eq_some htaken
  cases h with
  | @own _ _ _ _ _ _ _ _ todo act =>
    rw [htodo] at todo
    obtain ⟨rfl, -⟩ := List.cons.inj todo
    cases m <;> simp only [Bridge.own, Option.some.injEq, Prod.mk.injEq, reduceCtorEq] at act
    obtain ⟨rfl, -⟩ := act
    exact halt_state _
  | returns _ todo | callsRouter _ todo _ _ | routerReturns _ todo _ _ | callsSession _ todo _ _ | sessionReturns _ todo _ _ =>
    rw [htodo] at todo
    cases todo

theorem Goes.between (hb : Sound b) (h : Goes b k todo a b') (htodo : (b.caller k).todo = todo) (hk : b.between k = true) :
    b'.between k = true ∨ b.taken a = some .halt := by
  rcases between_iff.mp hk with ⟨c, rest, hcall, hcode⟩ | ⟨c, rest, hcall, hcode, hplace⟩
  · rw [← htodo, hcode] at h
    cases h with
    | own _ _ => exact Or.inr (taken_go hcode)
  · rw [← htodo, hcode] at h
    cases h with
    | callsSession idle _ =>
      rw [idle] at hplace
      cases hplace
    | @session _ _ _ x request act goes =>
      refine Or.inl (between_iff.mpr (Or.inr ⟨c, rest, hcall, hcode, ?_⟩))
      cases hbefore : beforeFinish x.1 with
      | false => simpa using hbefore
      | true =>
        rcases beforeFinish_iff.mp hbefore with hidle | hstop
        · rw [hidle] at goes
          cases goes
        · obtain ⟨q, hq⟩ := Option.isSome_iff_exists.mp hstop
          rcases stopRequest_step act hq with hold | ⟨hidle, -⟩
          · rw [beforeFinish_iff.mpr (Or.inr (by rw [hold]; rfl))] at hplace
            cases hplace
          · rw [hidle] at request
            cases request
    | @sessionReturns _ _ res _ done _ =>
      obtain ⟨st, rfl⟩ := hb.stops k res done
      exact Or.inl (between_iff.mpr (Or.inl ⟨c, rest, by simp [goto_self, hcall], by simp [goto_self, Result.follow]⟩))
    | own _ act => cases act

/-- A stop that is on its way stays on it until it is written. -/
theorem between_step (hb : Sound b) (h : Moves b a b') (hj : b.between j = true) : b'.between j = true ∨ b.taken a = some .halt := by
  by_cases hja : j = a.actor
  · subst hja
    have hbusy : ∃ c, (b.caller a.actor).call = some c := by
      rcases between_iff.mp hj with ⟨c, -, hcall, -⟩ | ⟨c, -, hcall, -, -⟩ <;> exact ⟨c, hcall⟩
    obtain ⟨c, hcall⟩ := hbusy
    exact (hb.goes h hcall).between hb rfl hj
  · obtain ⟨hcaller, hplace, -⟩ := h.frame hja
    left
    unfold between at hj ⊢
    rw [hcaller, hplace]
    exact hj

/-- Where no start is in progress a step leaves the two states together, but for a stop that is on its way. -/
theorem Agreeing.rest_step (ha : Agreeing b) (hb : Sound b) (hc : Timely b a) (h : Moves b a b')
    (hno : ∀ i, (b.caller i).call ≠ some .start) : Rest b' := by
  have hrest := ha.rest hno
  obtain ⟨hrunning, herror⟩ := ha.psi_calm hb hc h hno
  refine ⟨fun hpsi => ?_, fun hselected hstate => ?_, fun hselected hpsi => ?_⟩
  · have hold := hrunning hpsi
    rcases ha.writes_calm h hno with ⟨hstate, -, hselected⟩ | ⟨c, s, rest, hcall, hends, htodo, hs, -, -, -⟩
    · rw [hstate, hselected]
      exact hrest.running hold
    · exact absurd hold ((ha.ends _ c hcall hends).written htodo hs).1
  · rcases ha.writes_calm h hno with ⟨hsame, -, hsel⟩ | ⟨c, s, rest, hcall, hends, htodo, hs, htaken, hwrites, -⟩
    · rw [hsel] at hselected
      rcases hrest.reported hselected (hsame ▸ hstate) with hpsi | ⟨j, hj⟩
      · cases ha.psi_step hb hc h with
        | same state => exact Or.inl (state.trans hpsi)
        | stops i ch c rest step hcall hends htodo hplace _ =>
          subst step
          right
          obtain ⟨rest', hcode⟩ := (ha.ends i c hcall hends).stops htodo hpsi
          refine ⟨i, between_iff.mpr (Or.inr ⟨c, rest', ?_⟩)⟩
          cases h with
          | session _ act =>
            rw [hplace] at act
            exact ⟨hcall, hcode, by simpa using stopFinish_place act⟩
        | adopts c info _ _ psi =>
          left
          rw [psi]
          simp [Session.adoptPolicy, hpsi]
        | moves j hwaits =>
          rw [ha.no_waits hb hno j] at hwaits
          cases hwaits
      · rcases between_step hb h hj with hkept | htaken
        · exact Or.inr ⟨j, hkept⟩
        · exact absurd hstate (h.halted htaken)
    · rcases ((ha.ends _ c hcall hends).written htodo hs).2 with rfl | hold
      · exact absurd hstate (h.halted htaken)
      · exact absurd hstate (ha.state_calm h hno hold)
  · have hold := herror hpsi
    rcases ha.writes_calm h hno with ⟨hstate, herr, hsel⟩ | ⟨c, s, rest, hcall, hends, htodo, hs, htaken, hwrites, -⟩
    · rw [hstate, herr]
      exact hrest.error (hsel ▸ hselected) hold
    · generalize b'.controller = k at hwrites hselected ⊢
      cases hwrites with
      | halt =>
        have hsel : b.controller.selected.kind = .psi := by
          simp only [Controller.halt] at hselected
          split at hselected <;> exact hselected
        obtain ⟨hst, herr⟩ := hrest.error hsel hold
        simpa [Controller.halt, hst] using herr
      | ready => exact absurd hold (hc.settles (by simpa [Bridge.settles, htaken, Controller.ready] using hselected))
      | fail text => exact ⟨rfl, rfl⟩
      | select e => exact absurd hold (hc.settles (by simpa [Bridge.settles, htaken] using hselected))
      | adopt _ | run => cases hs
      | reads state error selected _ =>
        rw [state, error]
        exact hrest.error (selected ▸ hselected) hold

/-! ### Where a start is in progress -/

theorem Agrees.alike (h : Agrees b) (hstate : b'.controller.state = b.controller.state) (herror : b'.controller.error = b.controller.error)
    (hselected : b'.controller.selected = b.controller.selected) (hpsi : b'.psi.state = b.psi.state) : Agrees b' := by
  refine ⟨?_, ?_, ?_⟩ <;> rw [hstate, hselected, hpsi]
  · exact h.running
  · exact h.reported
  · rw [herror]
    exact h.error

/-- A thread in a start or in the status of the session does not change its state. -/
theorem Sound.still (hb : Sound b) {c : Choice} {q : Request} {x : Place Point Section × Guarded World}
    (hrequest : request (b.session.threads i) = some q) (hq : (Statement.session q).starts = true)
    (act : sessionProgram.threads i (b.session.threads i) c b.session.shared = some x) : x.2.data.session.state = b.psi.state := by
  cases hb.change act with
  | same same => exact (Session.lifecycle_eq same).1
  | accepted _ _ session =>
    rw [session]
    rfl
  | stopFinish r at_ _ =>
    have hr : stopRequest (b.session.threads i) = some r := by rw [at_]; rfl
    obtain rfl : r = q := Option.some.inj ((request_of_stopRequest hr).symm.trans hrequest)
    rcases hb.ends i r hr with rfl | rfl <;> cases hq
  | adoptPolicy info at_ _ =>
    rw [at_] at hrequest
    obtain rfl := Option.some.inj hrequest
    cases hq
  | announce _ at_ _ _ | fail _ _ at_ _ _ =>
    rw [at_] at hrequest
    cases hrequest

theorem Sound.no_stop (hb : Sound b) {q : Request} (hrequest : request (b.session.threads i) = some q)
    (hq : (Statement.session q).starts = true) : stopRequest (b.session.threads i) = none := by
  cases hr : stopRequest (b.session.threads i) with
  | none => rfl
  | some r =>
    obtain rfl : r = q := Option.some.inj ((request_of_stopRequest hr).symm.trans hrequest)
    rcases hb.ends i r hr with rfl | rfl <;> cases hq

theorem done_step {c : Choice} {q : Request} {res : Result} {w : Guarded World} {x : Place Point Section × Guarded World}
    (h : sessionProgram.threads i (.at (.done q res)) c w = some x) : x.1 = .at .idle := by
  cases c <;> cases h
  rfl

/-- A step of another thread leaves a start where it is. -/
theorem StartCourse.stay (hb : Sound b) (h : StartCourse b i) (hcall : (b.caller i).call = some .start)
    (hcaller : b'.caller i = b.caller i) (hplace : b'.session.threads i = b.session.threads i)
    (hstate : b'.controller.state = b.controller.state) (herror : b'.controller.error = b.controller.error)
    (hselected : b'.controller.selected = b.controller.selected)
    (hpsi : waits (b.session.threads i) = false → b'.psi.state = b.psi.state) : StartCourse b' i := by
  cases h with
  | quiet agrees text psi groot hwaits read =>
    refine .quiet (agrees.alike hstate herror hselected (hpsi hwaits)) ?_ ?_ ?_ ?_ ?_
    · rwa [hcaller]
    · rwa [hcaller, hselected]
    · rwa [hcaller, hselected]
    · rwa [hplace]
    · rwa [hplace]
  | waiting rest todo text run psi hwaits =>
    exact .waiting rest (by rw [hcaller, todo]) text run (by rw [hselected, psi]) (by rw [hplace, hwaits])
  | read rest s todo text run psi state error =>
    have hnot : waits (b.session.threads i) = false := by
      rcases todo with ⟨-, hdone⟩ | hadopt
      · rw [hdone]
        rfl
      · rw [(hb.seated i).idle hcall (by simp [hadopt])]
        rfl
    refine .read rest s (by rwa [hcaller, hplace]) text run (by rw [hselected, psi]) ?_ ?_ <;> rw [hpsi hnot]
    · exact state
    · exact error

/-- A thread that goes on in its call has not returned from it. -/
theorem not_done {c : Choice} {q : Request} {x : Place Point Section × Guarded World}
    (act : sessionProgram.threads i (b.session.threads i) c b.session.shared = some x) (goes : request x.1 = some q) (r : Request)
    (res : Result) : b.session.threads i ≠ .at (.done r res) := by
  intro hdone
  rw [hdone] at act
  rw [done_step act] at goes
  cases goes

theorem routerFollow_cases (q : RouterCall PortMessage) (rest : List Statement) (res : RouterResult) :
    res.follow q rest = rest ∨ ∃ e, res.follow q rest = unwind e rest := by
  cases res with
  | raised text => exact Or.inr ⟨_, rfl⟩
  | _ => exact Or.inl rfl

theorem follow_cases {q : Request} (rest : List Statement) (res : Result) (h : q = .start → ∀ s, res ≠ .status s) :
    res.follow q rest = rest ∨ ∃ e, res.follow q rest = unwind e rest := by
  cases res with
  | raised text => exact Or.inr ⟨_, rfl⟩
  | status st =>
    have hq : q ≠ .start := fun hq => h hq st rfl
    exact Or.inl (if_neg hq)
  | _ => exact Or.inl rfl

/-- A start that goes on: its own steps take it from agreement over the wait to the status that it adopts, and back to agreement. -/
theorem StartCourse.goes (hb : Sound b) (hmessage : b.psi.state = .error → b.psi.error.isSome = true) (h : Goes b k todo a b')
    (htodo : (b.caller k).todo = todo) (hcourse : StartCourse b k) :
    (todo = [] → Agrees b') ∧ (todo ≠ [] → StartCourse b' k) := by
  cases hcourse with
  | quiet agrees text psi groot hwaits read =>
    rw [htodo] at text psi groot
    cases h with
    | returns => exact ⟨fun _ => agrees.alike rfl rfl rfl rfl, fun hne => absurd rfl hne⟩
    | callsRouter _ _ | router _ _ =>
      refine ⟨fun hnil => (by cases hnil), fun _ => ?_⟩
      refine .quiet (agrees.alike rfl rfl rfl rfl) ?_ ?_ ?_ hwaits read <;> rw [show (Bridge.caller _ k).todo = _ from htodo]
      · exact text
      · exact psi
      · exact groot
    | @routerReturns q rest n res _ _ _ =>
      refine ⟨fun hnil => (by cases hnil), fun _ => ?_⟩
      obtain ⟨hstarts, hsession, hrun⟩ := follow_starts (routerFollow_cases q rest res) fun t ht => text t (List.mem_cons_of_mem _ ht)
      refine .quiet (agrees.alike rfl rfl rfl rfl) ?_ ?_ ?_ hwaits read <;> rw [goto_self]
      · exact hstarts
      · exact fun ht => psi (List.mem_cons_of_mem _ (hsession ht))
      · exact fun ht => groot (List.mem_cons_of_mem _ (hrun ht))
    | @callsSession q rest x _ act =>
      obtain ⟨hplace, hsession⟩ := session_call act
      refine ⟨fun hnil => (by cases hnil), fun _ => ?_⟩
      have hquiet : waits x.1 = false ∧ ∀ s, x.1 ≠ .at (.done .start (.status s)) := by
        rw [hplace]
        cases q with
        | status | start => exact ⟨rfl, by simp [Request.entry, Next.place]⟩
        | _ => cases text _ List.mem_cons_self
      refine .quiet (agrees.alike rfl rfl rfl (congrArg Session.state hsession)) ?_ ?_ ?_ (by simpa using hquiet.1)
        (by simpa using hquiet.2) <;> rw [show (Bridge.caller _ k).todo = _ from htodo]
      · exact text
      · exact psi
      · exact groot
    | @session q rest _ x hrequest act goes =>
      refine ⟨fun hnil => (by cases hnil), fun _ => ?_⟩
      have hq := text _ List.mem_cons_self
      have hstill := hb.still hrequest hq act
      have hrest : ∀ t ∈ rest, t.starts = true := fun t ht => text t (List.mem_cons_of_mem _ ht)
      have hquiet (hw : waits x.1 = false) (hr : ∀ s, x.1 ≠ .at (.done .start (.status s))) :
          StartCourse { b with session := b.session.set k x } k := by
        refine .quiet (agrees.alike rfl rfl rfl hstill) ?_ ?_ ?_ (by simpa using hw) (by simpa using hr) <;>
          rw [show (Bridge.caller _ k).todo = _ from htodo]
        · exact text
        · exact psi
        · exact groot
      by_cases hstart : q = .start
      · subst hstart
        have hpsi := psi List.mem_cons_self
        rcases start_step act hrequest (hb.no_stop hrequest hq) (not_done act goes) with hw | ⟨hw, -⟩ | ⟨-, hr⟩
        · refine .waiting rest htodo hrest (fun hrun => ?_) hpsi (by simpa using hw)
          have hgroot := groot (List.mem_cons_of_mem _ hrun)
          rw [hpsi] at hgroot
          cases hgroot
        · rw [hwaits] at hw
          cases hw
        · cases hw : waits x.1 with
          | false => exact hquiet hw hr
          | true =>
            refine .waiting rest htodo hrest (fun hrun => ?_) hpsi (by simpa using hw)
            have hgroot := groot (List.mem_cons_of_mem _ hrun)
            rw [hpsi] at hgroot
            cases hgroot
      · have hother : request x.1 ≠ some .start := fun h => hstart (Option.some.inj (goes.symm.trans h))
        refine hquiet ?_ fun s hs => hother (by rw [hs]; rfl)
        cases hw : waits x.1 with
        | false => rfl
        | true => exact absurd (request_of_waits hw) hother
    | @sessionReturns q rest res _ done act =>
      refine ⟨fun hnil => (by cases hnil), fun _ => ?_⟩
      have hres : q = .start → ∀ s, res ≠ .status s := by
        rintro rfl s rfl
        exact read s done
      obtain ⟨hstarts, hsession, hrun⟩ := follow_starts (follow_cases rest res hres) fun t ht => text t (List.mem_cons_of_mem _ ht)
      obtain ⟨hplace, hsame⟩ := session_return act
      refine .quiet (agrees.alike rfl rfl rfl (congrArg Session.state hsame)) ?_ ?_ ?_ ?_ ?_
      · rw [goto_self]
        exact hstarts
      · rw [goto_self]
        exact fun ht => psi (List.mem_cons_of_mem _ (hsession ht))
      · rw [goto_self]
        exact fun ht => groot (List.mem_cons_of_mem _ (hrun ht))
      · simp [hplace, waits]
      · simp [hplace]
    | @own s rest m x l idle act =>
      refine ⟨fun hnil => (by cases hnil), fun _ => ?_⟩
      obtain ⟨hstarts, hsession, hrun⟩ := own_starts act text
      have hselected : x.selected = b.controller.selected := by
        cases own_writes act with
        | select e => cases text _ List.mem_cons_self
        | reads _ _ selected _ => exact selected
        | halt =>
          simp only [Controller.halt]
          split <;> rfl
        | _ => rfl
      have hagrees : Agrees ((b.setController x).goto k l) := by
        cases own_writes act with
        | run =>
          have hgroot := groot List.mem_cons_self
          refine ⟨fun hpsi => ?_, fun hpsi => ?_, fun hpsi => ?_⟩
          · have := (agrees.running hpsi).1
            rw [hgroot] at this
            cases this
          all_goals
            have hpsi : b.controller.selected.kind = .psi := hpsi
            rw [hgroot] at hpsi
            cases hpsi
        | reads state error selected _ => exact agrees.alike state error selected rfl
        | _ => cases text _ List.mem_cons_self
      refine .quiet hagrees ?_ ?_ ?_ (by simp [idle, waits]) (by simp [idle]) <;> rw [goto_self]
      · exact hstarts
      · intro ht
        simp only [goto_controller, setController_controller, hselected]
        exact (hsession ht).elim (fun h => psi (List.mem_cons_of_mem _ h)) id
      · intro ht
        simp only [goto_controller, setController_controller, hselected]
        exact (hrun ht).elim (fun h => groot (List.mem_cons_of_mem _ h)) id
  | waiting rest hcode text run psi hwaits =>
    rw [← htodo, hcode] at h ⊢
    refine ⟨fun hnil => (by cases hnil), fun _ => ?_⟩
    cases h with
    | callsSession idle _ =>
      rw [idle] at hwaits
      cases hwaits
    | @session _ _ _ x request act goes =>
      rcases start_step act request (hb.no_stop request rfl) (not_done act goes) with hw | ⟨-, hread, hsame⟩ | ⟨hw, -⟩
      · exact .waiting rest hcode text run psi (by simpa using hw)
      · have hpsi : Bridge.psi { b with session := b.session.set k x } = b.psi := hsame
        refine .read rest b.psi.status (Or.inl ⟨hcode, (Pool.set_self _ _ _).trans hread⟩) text run psi ?_ ?_ <;> rw [hpsi]
        · rfl
        · exact hmessage
      · rw [hwaits] at hw
        cases hw
    | sessionReturns done _ =>
      rw [done] at hwaits
      cases hwaits
    | own _ act => cases act
  | read rest s hcode text run psi state error =>
    rcases hcode with ⟨hcode, hplace⟩ | hcode
    · rw [← htodo, hcode] at h ⊢
      refine ⟨fun hnil => (by cases hnil), fun _ => ?_⟩
      cases h with
      | callsSession idle _ =>
        rw [hplace] at idle
        cases idle
      | session request act goes => exact absurd hplace (not_done act goes _ _)
      | sessionReturns done act =>
        rw [hplace] at done
        obtain rfl := (Point.done.inj (Place.at.inj done)).2
        have hsame := (session_return act).2
        refine .read rest s (Or.inr (by simp [goto_self, Result.follow])) text run psi ?_ ?_
        · exact state.trans (congrArg Session.state hsame).symm
        · exact fun herror => error ((congrArg Session.state hsame).symm.trans herror)
      | own _ act => cases act
    · rw [← htodo, hcode] at h ⊢
      refine ⟨fun hnil => (by cases hnil), fun _ => ?_⟩
      cases h with
      | @own _ _ m _ _ idle act =>
        cases m <;> simp only [Bridge.own, Option.some.injEq, Prod.mk.injEq, reduceCtorEq] at act
        obtain ⟨rfl, rfl⟩ := act
        refine .quiet ⟨fun hpsi => ⟨psi, state.trans hpsi⟩, fun _ hstate => state.symm.trans hstate,
          fun _ hpsi => ⟨state.trans hpsi, error hpsi⟩⟩ ?_ (fun _ => psi) (fun hrun => ?_) (by simp [idle, waits]) (by simp [idle])
        · rw [goto_self]
          exact text
        · rw [goto_self] at hrun
          exact absurd hrun run

/-! ### The runs -/

theorem Agrees.atRest (h : Agrees b) : Rest b := ⟨h.running, fun hpsi hstate => Or.inl (h.reported hpsi hstate), h.error⟩

theorem Rest.agrees (h : Rest b) (hnone : ∀ j, b.between j = false) : Agrees b := by
  refine ⟨h.running, fun hpsi hstate => ?_, h.error⟩
  rcases h.reported hpsi hstate with hrunning | ⟨j, hj⟩
  · exact hrunning
  · rw [hnone j] at hj
    cases hj

/-- A call that begins beside a start is one of `status`. -/
theorem Timely.beside {c : ModelCall} (hc : Timely b (.call j c)) (hcall : (b.caller i).call = some .start) : c = .status := by
  have halone := hc.alone j c rfl
  cases c with
  | status => rfl
  | start =>
    rcases halone i with hnone | hstatus
    · rw [hcall] at hnone
      cases hnone
    · rw [hcall] at hstatus
      cases hstatus
  | _ => exact absurd hcall (halone i)

theorem Agreeing.alone_step (ha : Agreeing b) (hc : Timely b a) (h : Moves b a b') (hi : (b'.caller i).call = some .start) (hj : j ≠ i) :
    (b'.caller j).call = none ∨ (b'.caller j).call = some .status := by
  rcases h.inCall i with hsame | ⟨c, rfl, -, rfl⟩ | ⟨c, -, -, -, rfl⟩
  · rw [hsame] at hi
    rcases h.inCall j with hsame | ⟨c, rfl, -, rfl⟩ | ⟨c, -, -, -, rfl⟩
    · rw [hsame]
      exact ha.alone i j hi hj
    · obtain rfl := hc.beside hi
      exact Or.inr (by simp)
    · exact Or.inl (by simp)
  · obtain rfl : c = .start := by simpa using hi
    simpa [hj] using hc.alone i .start rfl j
  · simp at hi

theorem Agreeing.status_step (ha : Agreeing b) (hb : Sound b) (h : Moves b a b') (hj : (b'.caller j).call = some .status) :
    ∀ t ∈ (b'.caller j).todo, t.harmless = true := by
  rcases h.inCall j with hsame | ⟨c, -, -, rfl⟩ | ⟨c, -, -, -, rfl⟩
  · rw [hsame] at hj
    by_cases hja : j = a.actor
    · subst hja
      exact (hb.goes h hj).harmless rfl (ha.status _ hj)
    · rw [(h.frame hja).1]
      exact ha.status j hj
  · obtain rfl : c = .status := by simpa using hj
    simpa [ModelCall.code] using statusCode_harmless
  · simp at hj

/-- Where a start begins, the two states are together. -/
theorem Agreeing.start_begins (ha : Agreeing b) (hfree : b.free i = true) (halone : b.alone .start) :
    StartCourse (b.setCaller i { call := some .start, todo := ModelCall.start.code }) i := by
  have hno (j : Nat) : (b.caller j).call ≠ some .start := by
    rcases halone j with hnone | hstatus
    · simp [hnone]
    · simp [hstatus]
  have hbetween (j : Nat) : b.between j = false := by
    cases hj : b.between j with
    | false => rfl
    | true =>
      exfalso
      rcases between_iff.mp hj with ⟨c, rest, hcall, htodo⟩ | ⟨c, rest, hcall, htodo, -⟩
      all_goals
        have hstatus := halone j
        rw [hcall] at hstatus
        obtain rfl : c = .status := by simpa using hstatus
        cases ha.status j hcall _ (by rw [htodo]; exact List.mem_cons_self)
  have hagrees := (ha.rest hno).agrees hbetween
  have hplace : b.session.threads i = .at .idle := (free_iff.mp hfree).2.1
  refine .quiet (hagrees.alike rfl rfl rfl rfl) ?_ ?_ ?_ (by simp [hplace, waits]) (by simp [hplace]) <;>
    simp only [setCaller_caller, Function.update_self]
  · decide
  · exact fun ht => absurd ht (by decide)
  · exact fun ht => absurd ht (by decide)

/-- Beside a start no stop, reset or switch is in progress. -/
theorem Agreeing.not_ends (ha : Agreeing b) {c : ModelCall} (hi : (b.caller i).call = some .start) (hj : (b.caller j).call = some c) :
    c.ends = false := by
  by_cases hij : j = i
  · subst hij
    obtain rfl := Option.some.inj (hi.symm.trans hj)
    rfl
  · rcases ha.alone i j hi hij with hnone | hstatus
    · rw [hj] at hnone
      cases hnone
    · obtain rfl := Option.some.inj (hj.symm.trans hstatus)
      rfl

/-- The other threads leave the two states to a start. -/
theorem Agreeing.start_beside (ha : Agreeing b) (hb : Sound b) (hc : Timely b a) (h : Moves b a b')
    (hi : (b.caller i).call = some .start) (hia : i ≠ a.actor) : StartCourse b' i := by
  obtain ⟨hcaller, hplace, -⟩ := h.frame hia
  have hcontroller : b'.controller.state = b.controller.state ∧ b'.controller.error = b.controller.error ∧
      b'.controller.selected = b.controller.selected := by
    rcases h.writes with hsame | ⟨c, s, rest, hcall, htodo, -, hwrites, -⟩
    · exact hsame
    · have hstatus : c = .status := by
        rcases ha.alone i _ hi hia.symm with hnone | hstatus
        · rw [hcall] at hnone
          cases hnone
        · exact Option.some.inj (hcall.symm.trans hstatus)
      subst hstatus
      have hs := ha.status _ hcall s (by rw [htodo]; exact List.mem_cons_self)
      generalize b'.controller = k at hwrites ⊢
      cases hwrites with
      | reads state error selected _ => exact ⟨state, error, selected⟩
      | _ => cases hs
  refine (ha.start i hi).stay hb hi hcaller hplace hcontroller.1 hcontroller.2.1 hcontroller.2.2 fun hwaits => ?_
  cases ha.psi_step hb hc h with
  | same state => exact state
  | stops j _ c _ _ hcall hends _ _ _ | adopts c _ hcall hends _ =>
    rw [ha.not_ends hi hcall] at hends
    cases hends
  | moves j hj =>
    have hstart := ha.starting hb (request_of_waits hj)
    by_cases hij : j = i
    · subst hij
      rw [hwaits] at hj
      cases hj
    · rcases ha.alone i j hi hij with hnone | hstatus
      · rw [hstart] at hnone
        cases hnone
      · rw [hstart] at hstatus
        cases hstatus

theorem Goes.nil (h : Goes b k [] a b') : b' = b.setCaller k {} := by
  cases h
  rfl

theorem Agreeing.start_step (ha : Agreeing b) (hb : Sound b) (hc : Timely b a) (h : Moves b a b')
    (hi : (b'.caller i).call = some .start) : StartCourse b' i := by
  rcases h.inCall i with hsame | ⟨c, rfl, hfree, rfl⟩ | ⟨c, -, -, -, rfl⟩
  · have hi' := hsame.symm.trans hi
    by_cases hia : i = a.actor
    · subst hia
      have hgoes := hb.goes h hi'
      refine ((ha.start _ hi').goes hb ha.message hgoes rfl).2 fun hnil => ?_
      rw [hnil] at hgoes
      rw [hgoes.nil] at hi
      simp at hi
    · exact ha.start_beside hb hc h hi' hia
  · obtain rfl : c = .start := by simpa using hi
    exact ha.start_begins hfree (hc.alone i .start rfl)
  · simp at hi

theorem Agreeing.ends_step (ha : Agreeing b) (hb : Sound b) (hc : Timely b a) (h : Moves b a b') {c : ModelCall}
    (hj : (b'.caller j).call = some c) (hends : c.ends = true) : EndCourse b' j := by
  rcases h.inCall j with hsame | ⟨c', -, -, rfl⟩ | ⟨c', -, -, -, rfl⟩
  · have hj' := hsame.symm.trans hj
    have hno (i : Nat) : (b.caller i).call ≠ some .start := by
      intro hi
      rw [ha.not_ends hi hj'] at hends
      cases hends
    have hpsi : b.psi.state ≠ .running → b'.psi.state ≠ .running := mt (ha.psi_calm hb hc h hno).1
    have hcourse := ha.ends j c hj' hends
    by_cases hja : j = a.actor
    · subst hja
      exact hcourse.goes hb (ha.rest hno) (hb.goes h hj') rfl hpsi (ha.state_calm h hno)
    · obtain ⟨hcaller, hplace, -⟩ := h.frame hja
      exact hcourse.stay hcaller hplace hpsi (ha.state_calm h hno)
  · obtain rfl : c' = c := by simpa using hj
    cases c' with
    | stop => exact .halting statusCode (by simp [ModelCall.code, stopCode]) statusCode_calm
    | reset =>
      refine .halting (statusCode ++ [.active .reset]) (by simp [ModelCall.code, stopCode]) ?_
      decide
    | switch id => exact .opening (.lookup id) (by simp [ModelCall.code]) rfl
    | _ => cases hends
  · simp at hj

theorem Agreeing.rest_after (ha : Agreeing b) (hb : Sound b) (hc : Timely b a) (h : Moves b a b')
    (hno : ∀ i, (b'.caller i).call ≠ some .start) : Rest b' := by
  by_cases hstart : ∃ i, (b.caller i).call = some .start
  · -- The start has returned with this step.
    obtain ⟨i, hi⟩ := hstart
    rcases h.inCall i with hsame | ⟨c, rfl, hfree, -⟩ | ⟨c, rfl, hcall, htodo, -⟩
    · exact absurd (hsame.trans hi) (hno i)
    · rw [(free_iff.mp hfree).1] at hi
      cases hi
    · exact (((ha.start i hi).goes hb ha.message (hb.goes h hi) rfl).1 htodo).atRest
  · exact ha.rest_step hb hc h fun i hi => hstart ⟨i, hi⟩

theorem Agreeing.step (ha : Agreeing b) (hb : Sound b) (hc : Timely b a) (h : Moves b a b') : Agreeing b' where
  alone _ _ := ha.alone_step hc h
  status _ := ha.status_step hb h
  start _ := ha.start_step hb hc h
  ends _ _ := ha.ends_step hb hc h
  rest := ha.rest_after hb hc h
  message herror := by
    rcases h.inSession with ⟨hsame, -⟩ | ⟨i, c, x, rfl, act, rfl⟩
    · rw [hsame] at herror ⊢
      exact ha.message herror
    · exact message_step (hb.change act) ha.message herror

theorem agreeing_reach (h : bridgeMachine.Reach Timely b) : Agreeing b := by
  have hboth : Sound b ∧ Agreeing b := by
    refine h.invariant (I := fun b => Sound b ∧ Agreeing b) ?_ ?_
    · intro s hs
      refine ⟨sound_reach (C := Machine.Free) (.init hs), ?_⟩
      obtain ⟨models, initialPose, warmstart, e, info, -, -, rfl⟩ := hs
      refine ⟨fun i j hi => ?_, fun j hj => ?_, fun i hi => ?_, fun j c hj => ?_, fun _ => ?_, fun herror => ?_⟩
      · cases hi
      · cases hj
      · cases hi
      · cases hj
      · exact ⟨fun hpsi => (by cases hpsi), fun _ hstate => (by cases hstate), fun _ hpsi => (by cases hpsi)⟩
      · cases herror
    · rintro b a b' - ⟨hb, ha⟩ hc hstep
      exact ⟨hb.step (step_moves hstep), ha.step hb hc (step_moves hstep)⟩
  exact hboth.2

/-- In the runs whose steps are timely, with a PSI model selected and outside the starts and the writes of the stops, the controller
    is `RUNNING` exactly when the session is, and in `ERROR` with a message when the session is in `ERROR`. -/
theorem states_agree (hreach : bridgeMachine.Reach Timely b) (hpsi : b.controller.selected.kind = .psi)
    (hstart : ∀ j, (b.caller j).call ≠ some .start) (hbetween : ∀ j, b.between j = false) :
    (b.controller.state = .running ↔ b.psi.state = .running) ∧
    (b.psi.state = .error → b.controller.state = .error ∧ b.controller.error.isSome = true) := by
  have hagrees := ((agreeing_reach hreach).rest hstart).agrees hbetween
  exact ⟨⟨hagrees.reported hpsi, fun hrunning => (hagrees.running hrunning).2⟩, hagrees.error hpsi⟩

/-- A start that streams. -/
def streaming : List BridgeStep := starting 1 ++ opening 1 ++ announcing 3 1 System.served ++ started 1

theorem states_agree_streaming : ∃ t, bridgeMachine.run twoModels streaming = some t ∧ t.controller.state = .running ∧
    (t.controller.state = .running ↔ t.psi.state = .running) ∧
    (t.psi.state = .error → t.controller.state = .error ∧ t.controller.error.isSome = true) := by
  have hfinal : (bridgeMachine.run twoModels streaming).map (fun t =>
      (t.controller.selected.kind, t.controller.state, (t.caller 1).call, (t.caller 3).call)) = some (.psi, .running, none, none) := by
    decide +kernel
  obtain ⟨t, hrun, hend⟩ := Option.map_eq_some_iff.mp hfinal
  simp only [Prod.mk.injEq] at hend
  obtain ⟨hpsi, hstate, h1, h3⟩ := hend
  have hactors : ∀ a ∈ streaming, a.actor ∈ [1, 3] := by decide +kernel
  have hinit : Among [1, 3] twoModels := fun j _ => ⟨rfl, rfl⟩
  have hnone := (among_run hactors hinit hrun).call_none (by simp [h1, h3])
  have hmeets : bridgeMachine.Meets Timely twoModels streaming := by
    refine meets_among (D := fun b a => (a.calls = true → (b.caller 1).call = none ∧ (b.caller 3).call = none) ∧
      (b.changes a = true → waits (b.session.threads 1) = true) ∧ b.settles a = false) ?_ hactors hinit (by decide +kernel)
    rintro b a hb ⟨hcalls, hchanges, hsettles⟩
    refine ⟨?_, fun hc => ⟨1, hchanges hc⟩, fun hc => ?_⟩
    · rintro i c rfl
      obtain ⟨h1, h3⟩ := hcalls rfl
      have hnone := hb.call_none (by simp [h1, h3])
      cases c <;> simp [Bridge.alone, hnone]
    · rw [hsettles] at hc
      cases hc
  refine ⟨t, hrun, hstate, states_agree ⟨twoModels, twoModels_init, Machine.path_of_run hrun hmeets⟩ hpsi ?_ ?_⟩
  · simp [hnone]
  · simp [between, hnone]

/-- A stream that fails once its start has returned. -/
def failingLate : List BridgeStep :=
  streaming ++ inSession 3 3 ++ [.session 3 (.raise "the server closed the connection")] ++ inSession 3 4

/-- Without the condition they do not: the controller goes on to report `RUNNING`. -/
example : ¬∀ b, bridgeMachine.Reach Machine.Free b → b.controller.selected.kind = .psi →
    (∀ j, (b.caller j).call ≠ some .start) → (∀ j, b.between j = false) →
    (b.controller.state = .running ↔ b.psi.state = .running) ∧
    (b.psi.state = .error → b.controller.state = .error ∧ b.controller.error.isSome = true) := by
  intro h
  have hfinal : (bridgeMachine.run twoModels failingLate).map (fun t =>
      (t.controller.selected.kind, t.controller.state, t.psi.state, (t.caller 1).call, (t.caller 3).call)) =
      some (.psi, .running, .error, none, none) := by decide +kernel
  obtain ⟨t, hrun, hend⟩ := Option.map_eq_some_iff.mp hfinal
  simp only [Prod.mk.injEq] at hend
  obtain ⟨hpsi, hstate, herror, h1, h3⟩ := hend
  have hinit : Among [1, 3] twoModels := fun j _ => ⟨rfl, rfl⟩
  have hactors : ∀ a ∈ failingLate, a.actor ∈ [1, 3] := by decide +kernel
  have hnone := (among_run hactors hinit hrun).call_none (by simp [h1, h3])
  have hreach : bridgeMachine.Reach Machine.Free t := ⟨twoModels, twoModels_init, Machine.path_of_run hrun (Machine.meets_free _ _)⟩
  have hboth := (h t hreach hpsi (by simp [hnone]) (by simp [between, hnone])).2 herror
  rw [hstate] at hboth
  cases hboth.1

end Bridge
end HumanoidLab
