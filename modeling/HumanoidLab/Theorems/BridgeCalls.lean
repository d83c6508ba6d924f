import HumanoidLab.Theorems.BridgeSteps

/-! The calls of the bridge. What is left of a call comes from its text, and a thread that is in a call stands in the session or in
    the router only where its statement has called it. -/

namespace HumanoidLab
open Concurrency

/-! ### What a call has left to do -/

/-- The calls on the session that the controller makes. -/
def Request.driven : Request → Bool
  | .start | .stop | .status | .adoptPolicy _ => true
  | _ => false

/-- A statement that may come from the text of a call: a status to adopt does not. -/
def Statement.plain : Statement → Bool
  | .adopt _ => false
  | .session q => q.driven
  | _ => true

/-- A statement of the text that begins no start and ends none. -/
def Statement.calm : Statement → Bool
  | .adopt _ | .run | .active .start | .session .start => false
  | .session q => q.driven
  | _ => true

variable {s t : Statement} {rest code : List Statement} {e : Exn}

theorem plain_of_calm (h : s.calm = true) : s.plain = true := by
  cases s with
  | session q => cases q <;> first | rfl | cases h
  | adopt st => cases h
  | _ => rfl

theorem mem_cons_calm (h : t ∈ s :: rest) (hs : s.calm = true) : t ∈ rest ∨ t.calm = true := by
  rcases List.mem_cons.mp h with rfl | h
  · exact Or.inr hs
  · exact Or.inl h

theorem mem_append_calm (h : t ∈ code ++ rest) (hcode : ∀ t ∈ code, t.calm = true) : t ∈ rest ∨ t.calm = true :=
  (List.mem_append.mp h).symm.imp_right (hcode t)

theorem statusCode_calm : ∀ t ∈ statusCode, t.calm = true := by decide

theorem stopCode_calm : ∀ t ∈ stopCode, t.calm = true := by decide

theorem switchEnd_calm : ∀ t ∈ switchEnd, t.calm = true := by decide

theorem startBackend_calm (e : ModelEntry) : ∀ t ∈ startBackend e, t.calm = true := by
  unfold startBackend
  split <;> decide

theorem stopBackend_calm (e : ModelEntry) : ∀ t ∈ stopBackend e, t.calm = true := by
  unfold stopBackend
  split <;> decide

theorem active_plain (r : ActiveRead) (k : Kind) : ∀ t ∈ r.code k, t.plain = true := by
  cases r <;> cases k <;> decide

theorem active_calm {r : ActiveRead} (k : Kind) (h : r ≠ .start) : ∀ t ∈ r.code k, t.calm = true := by
  cases r with
  | start => exact absurd rfl h
  | _ => cases k <;> decide

theorem modelCall_plain (c : ModelCall) : ∀ t ∈ c.code, t.plain = true := by
  cases c with
  | switch id =>
    intro t h
    obtain rfl := List.mem_singleton.mp h
    rfl
  | _ => decide

theorem changeCode_calm (target previous : ModelEntry) : ∀ t ∈ changeCode target previous, t.calm = true := by
  intro t h
  simp only [changeCode, List.mem_append, List.mem_cons, List.not_mem_nil, or_false] at h
  rcases h with (h | h) | rfl | rfl | rfl
  · exact stopCode_calm t h
  · exact stopBackend_calm previous t h
  all_goals rfl

theorem failSwitch_calm (text : String) : ∀ t ∈ failSwitch text, t.calm = true := by
  intro t h
  simp only [failSwitch, List.mem_cons, List.not_mem_nil, or_false] at h
  rcases h with rfl | rfl <;> rfl

theorem attempt_calm (a : Attempt) : ∀ t ∈ a.body, t.calm = true := by
  cases a with
  | reset => decide
  | switch target previous => exact startBackend_calm target
  | rollback target previous failure =>
    intro t h
    rcases mem_append_calm h (startBackend_calm previous) with h | h
    · obtain rfl := List.mem_singleton.mp h
      rfl
    · exact h

theorem clause_calm {a : Attempt} (h : t ∈ a.clause e rest) : t ∈ rest ∨ t.calm = true := by
  cases a with
  | reset => exact (mem_cons_calm h rfl).elim (fun h => Or.inr (statusCode_calm t h)) Or.inr
  | switch target previous => exact (mem_cons_calm h rfl).elim (fun h => mem_append_calm h (failSwitch_calm _)) Or.inr
  | rollback target previous failure => exact mem_append_calm h (failSwitch_calm _)

/-- An exception adds nothing but statements of the text. -/
theorem unwind_calm (h : t ∈ unwind e rest) : t ∈ rest ∨ t.calm = true := by
  induction rest with
  | nil =>
    obtain rfl := List.mem_singleton.mp h
    exact Or.inr rfl
  | cons s rest ih =>
    have hskip (h : t ∈ unwind e rest) : t ∈ s :: rest ∨ t.calm = true := (ih h).imp_left (List.mem_cons_of_mem _)
    cases s with
    | caught a => exact (clause_calm h).imp_left (List.mem_cons_of_mem _)
    | unmark =>
      simp only [unwind, List.mem_cons, List.not_mem_nil, or_false] at h
      rcases h with rfl | rfl | rfl <;> exact Or.inr rfl
    | _ => exact hskip h

/-- A statement leaves the rest of its call, with statements of the text before it. -/
theorem own_calm {b : Bridge} {m : Met} {k : Controller} {todo : List Statement} (h : b.own s rest m = some (k, todo))
    (hs : s ≠ .active .start) (ht : t ∈ todo) : t ∈ rest ∨ t.calm = true := by
  cases s <;> cases m <;> simp only [Bridge.own, Option.some.injEq, Prod.mk.injEq, reduceCtorEq] at h
  case acquire target =>
    split at h <;> obtain ⟨-, rfl⟩ := Prod.mk.inj (Option.some.inj h)
    · exact unwind_calm ht
    · exact mem_cons_calm ht rfl
  all_goals obtain ⟨-, rfl⟩ := h
  case refuseSwitching | refuseError =>
    split at ht
    · exact unwind_calm ht
    · exact Or.inl ht
  case active r =>
    refine mem_append_calm ht (active_calm _ ?_)
    rintro rfl
    exact hs rfl
  case outside.raises | verify.raises => exact unwind_calm ht
  case request.raises => exact (mem_cons_calm ht rfl).elim (fun h => Or.inr (statusCode_calm t h)) Or.inr
  case verify.info | mark => exact mem_cons_calm ht rfl
  case prepare.raises => exact (mem_cons_calm ht rfl).elim unwind_calm Or.inr
  case arm =>
    split at ht
    · exact mem_append_calm ht (by decide)
    · split at ht
      · exact mem_append_calm ht (by decide)
      · exact Or.inl ht
  case lookup =>
    split at ht
    · exact unwind_calm ht
    · split at ht
      · exact mem_cons_calm ht rfl
      · exact unwind_calm ht
  case previous target =>
    rcases List.mem_append.mp ht with ht | ht
    · split at ht
      · exact Or.inr (changeCode_calm _ _ t ht)
      · cases ht
    · exact mem_append_calm ht switchEnd_calm
  case attempt a =>
    rcases List.mem_append.mp ht with ht | ht
    · exact Or.inr (attempt_calm a t ht)
    · exact mem_cons_calm ht rfl
  case raise =>
    split at ht
    · cases ht
    · exact unwind_calm ht
  all_goals exact Or.inl ht

theorem own_plain {b : Bridge} {m : Met} {k : Controller} {todo : List Statement} (h : b.own s rest m = some (k, todo))
    (ht : t ∈ todo) : t ∈ rest ∨ t.plain = true := by
  by_cases hs : s = .active .start
  · subst hs
    cases m <;> simp only [Bridge.own, Option.some.injEq, Prod.mk.injEq, reduceCtorEq] at h
    obtain ⟨-, rfl⟩ := h
    exact (List.mem_append.mp ht).symm.imp_right (active_plain _ _ t)
  · exact (own_calm h hs ht).imp_right plain_of_calm

/-- What a statement of the controller's own does to the fields that `status` reads. -/
inductive Writes (c : Controller) : Statement → Controller → Prop
  | adopt (s : SessionStatus) : Writes c (.adopt s) (c.adopt s.state s.error)
  | run : Writes c .run c.run
  | halt : Writes c .halt c.halt
  | ready : Writes c .ready c.ready
  | fail (text : String) : Writes c (.fail text) (c.fail text)
  | select (e : ModelEntry) : Writes c (.select e) { c with selected := e }
  | reads {s : Statement} {k : Controller} (state : k.state = c.state) (error : k.error = c.error)
      (selected : k.selected = c.selected) (adopt : ∀ st, s ≠ .adopt st) : Writes c s k

theorem own_writes {b : Bridge} {m : Met} {k : Controller} {todo : List Statement} (h : b.own s rest m = some (k, todo)) :
    Writes b.controller s k := by
  cases s <;> cases m <;> simp only [Bridge.own, Option.some.injEq, Prod.mk.injEq, reduceCtorEq] at h
  case acquire target =>
    split at h <;> obtain ⟨rfl, -⟩ := Prod.mk.inj (Option.some.inj h) <;> exact .reads rfl rfl rfl (by simp)
  all_goals obtain ⟨rfl, -⟩ := h
  case adopt st => exact .adopt st
  case run => exact .run
  case halt => exact .halt
  case ready => exact .ready
  case fail text => exact .fail text
  case select e => exact .select e
  all_goals exact .reads rfl rfl rfl (by simp)

/-! ### Where the threads stand -/

/-- A thread stands in the session where its statement has called it, and otherwise only to stream. -/
def SessionSeat (k : Caller) (pl : Place Point Section) : Prop :=
  match k.call, k.todo with
  | none, _ => request pl = none
  | some _, .session q :: _ => pl = .at .idle ∨ request pl = some q
  | some _, _ => pl = .at .idle

theorem SessionSeat.of_idle (k : Caller) : SessionSeat k (.at .idle) := by
  unfold SessionSeat
  split
  · rfl
  · exact Or.inl rfl
  · rfl

/-- A thread whose statement calls no session is not in one. -/
theorem SessionSeat.idle {k : Caller} {pl : Place Point Section} {c : ModelCall} (h : SessionSeat k pl) (hcall : k.call = some c)
    (htodo : ∀ q rest, k.todo ≠ .session q :: rest) : pl = .at .idle := by
  unfold SessionSeat at h
  split at h
  · rename_i hnone
    rw [hcall] at hnone
    cases hnone
  · exact absurd ‹_› (htodo _ _)
  · exact h

/-- A thread that has not returned stays seated in its call. -/
theorem SessionSeat.stay {k : Caller} {pl pl' : Place Point Section} (h : SessionSeat k pl) (hpl : pl ≠ .at .idle)
    (hrequest : request pl' = request pl) : SessionSeat k pl' := by
  unfold SessionSeat at h ⊢
  split at h
  · exact hrequest.trans h
  · exact Or.inr (hrequest.trans (h.resolve_left hpl))
  · exact absurd h hpl

/-- A thread that is in a call stands in the router only where its statement has called it. -/
def RouterSeat (k : Caller) (pl : RouterPlace PortMessage) : Prop :=
  match k.call, k.todo with
  | none, _ => True
  | some _, .router q :: _ => pl = .idle ∨ pl.call = some q
  | some _, _ => pl = .idle

theorem RouterSeat.of_idle (k : Caller) : RouterSeat k .idle := by
  unfold RouterSeat
  split
  · trivial
  · exact Or.inl rfl
  · rfl

theorem RouterSeat.of_none {k : Caller} (pl : RouterPlace PortMessage) (h : k.call = none) : RouterSeat k pl := by
  unfold RouterSeat
  rw [h]
  trivial

/-- A thread whose statement calls no router is not in one. -/
theorem RouterSeat.idle {k : Caller} {pl : RouterPlace PortMessage} {c : ModelCall} (h : RouterSeat k pl) (hcall : k.call = some c)
    (htodo : ∀ q rest, k.todo ≠ .router q :: rest) : pl = .idle := by
  unfold RouterSeat at h
  split at h
  · rename_i hnone
    rw [hcall] at hnone
    cases hnone
  · exact absurd ‹_› (htodo _ _)
  · exact h

theorem RouterSeat.stay {k : Caller} {pl pl' : RouterPlace PortMessage} (h : RouterSeat k pl) (hpl : pl ≠ .idle)
    (hcall : pl'.call = pl.call) : RouterSeat k pl' := by
  unfold RouterSeat at h ⊢
  split at h
  · trivial
  · exact Or.inr (hcall.trans (h.resolve_left hpl))
  · exact absurd h hpl

namespace Bridge

variable {b b' : Bridge} {i j : Nat} {a : BridgeStep}

/-- A step of the session on its own is the first of a streaming thread, or goes on in a call that is not done. -/
theorem admitsSession_cases {c : Choice} (h : b.admitsSession i c = true) :
    (b.session.threads i = .at .idle ∧ (∃ g, c = .run g) ∧ b.free i = true) ∨
    b.session.threads i ≠ .at .idle ∧ ∀ q res, b.session.threads i ≠ .at (.done q res) := by
  unfold admitsSession at h
  split at h
  · rename_i g hpl
    exact Or.inl ⟨hpl, ⟨g, rfl⟩, h⟩
  · cases h
  · cases h
  · cases h
  · rename_i hidle hdone _ _
    exact Or.inr ⟨fun hpl => hidle hpl, fun q res hpl => hdone q res hpl⟩

theorem Moves.seated (h : Moves b a b') (hs : ∀ j, SessionSeat (b.caller j) (b.session.threads j)) (j : Nat) :
    SessionSeat (b'.caller j) (b'.session.threads j) := by
  by_cases hj : j = a.actor
  · subst hj
    have hi := hs a.actor
    cases h with
    | session admits act =>
      simp only [BridgeStep.actor, Pool.set_self] at hi ⊢
      rcases admitsSession_cases admits with ⟨hpl, hrun, hfree⟩ | ⟨hpl, hdone⟩
      · have hcall := (free_iff.mp hfree).1
        have hrequest := request_step act (fun _ => hrun) (by simp [hpl])
        unfold SessionSeat
        rw [hcall, hrequest, hpl]
        rfl
      · exact hi.stay hpl (request_step act (fun h => absurd h hpl) hdone)
    | router _ _ | submits _ _ _ | callsRouter _ _ _ _ => exact hi
    | refused at_ =>
      simp only [BridgeStep.actor, Pool.set_self] at hi ⊢
      exact hi.stay (by simp [at_]) (by simp [at_, request, Point.request])
    | published at_ _ _ goes =>
      simp only [BridgeStep.actor, Pool.set_self] at hi ⊢
      refine hi.stay (by simp [at_]) ?_
      rcases goes with rfl | rfl | ⟨m, rfl⟩ <;> simp [at_, request, Point.request, Section.request]
    | call free =>
      have hpl := (free_iff.mp free).2.1
      simp only [BridgeStep.actor, setCaller_session]
      rw [hpl]
      exact .of_idle _
    | returns busy todo =>
      have hpl := hi.idle busy (by simp [BridgeStep.actor, todo])
      simp only [BridgeStep.actor, setCaller_session] at hpl ⊢
      rw [hpl]
      exact .of_idle _
    | routerReturns busy todo _ _ =>
      have hpl := hi.idle busy (by simp [BridgeStep.actor, todo])
      simp only [BridgeStep.actor, goto_session] at hpl ⊢
      rw [hpl]
      exact .of_idle _
    | callsSession busy todo _ act =>
      simp only [BridgeStep.actor, Pool.set_self]
      unfold SessionSeat
      rw [busy, todo, (session_call act).1]
      exact Or.inr (request_entry _)
    | sessionReturns busy todo _ act =>
      simp only [BridgeStep.actor, goto_session, Pool.set_self]
      rw [(session_return act).1]
      exact .of_idle _
    | own busy todo act =>
      have hpl := hi.idle busy (by
        intro q rest htodo
        simp only [BridgeStep.actor, todo, List.cons.injEq] at htodo
        obtain ⟨rfl, -⟩ := htodo
        cases act)
      simp only [BridgeStep.actor, goto_session, setController_session] at hpl ⊢
      rw [hpl]
      exact .of_idle _
  · obtain ⟨hcaller, hplace, -⟩ := h.frame hj
    rw [hcaller, hplace]
    exact hs j

/-- A step of the router on its own is of a thread in no call, or ends a message of another source, or goes on in a call that is not
    done. -/
theorem admitsRouter_cases {c : RouterChoice PortMessage} (h : b.admitsRouter i c = true) :
    b.free i = true ∨ (∃ n q res, b.router.threads i = .done n q res) ∨
    b.router.threads i ≠ .idle ∧ ∀ n q res, b.router.threads i ≠ .done n q res := by
  cases hpl : b.router.threads i with
  | idle =>
    simp only [admitsRouter, hpl] at h
    split at h
    · exact Or.inl h
    · exact Or.inl (Bool.and_eq_true_iff.mp h).1
    · cases h
    all_goals simp_all
  | done n q res => exact Or.inr (Or.inl ⟨n, q, res, rfl⟩)
  | _ => exact Or.inr (Or.inr ⟨by simp, by simp⟩)

/-- A streaming thread is in no call. -/
theorem call_of_loop {g : Nat} {p : LoopPoint} (hs : SessionSeat (b.caller i) (b.session.threads i))
    (h : b.session.threads i = .at (.loop g p)) : (b.caller i).call = none := by
  rw [h] at hs
  unfold SessionSeat at hs
  split at hs
  · assumption
  · rcases hs with hs | hs <;> cases hs
  · cases hs

theorem router_return {n : Nat} {q : RouterCall PortMessage} {res : RouterResult} {c : RouterChoice PortMessage}
    {w : Router PortMessage} {r : RouterPlace PortMessage × Router PortMessage} (h : routerStep (.done n q res) c w = some r) :
    r.1 = .idle := by
  cases c <;> cases h
  rfl

theorem Moves.routerSeat (h : Moves b a b') (hs : ∀ j, SessionSeat (b.caller j) (b.session.threads j))
    (hr : ∀ j, RouterSeat (b.caller j) (b.router.threads j)) (j : Nat) : RouterSeat (b'.caller j) (b'.router.threads j) := by
  by_cases hj : j = a.actor
  · subst hj
    have hi := hr a.actor
    cases h with
    | session _ _ | refused _ | callsSession _ _ _ _ => exact hi
    | router admits act =>
      simp only [BridgeStep.actor, Pool.set_self] at hi ⊢
      rcases admitsRouter_cases admits with hfree | ⟨n, q, res, hpl⟩ | ⟨hidle, hdone⟩
      · exact .of_none _ (free_iff.mp hfree).1
      · rw [hpl] at act
        rw [router_return act]
        exact .of_idle _
      · exact hi.stay hidle (routerStep_call act hidle hdone)
    | @submits i g n r at_ _ _ | @published i g n k q res pl r at_ _ _ _ =>
      have hcall : (b.caller i).call = none := call_of_loop (hs i) at_
      exact .of_none _ hcall
    | call free =>
      have hpl := (free_iff.mp free).2.2
      simp only [BridgeStep.actor, setCaller_router]
      rw [hpl]
      exact .of_idle _
    | returns _ _ => exact .of_none _ (by simp [BridgeStep.actor])
    | callsRouter busy todo _ act =>
      obtain rfl := Option.some.inj act
      simp only [BridgeStep.actor, Pool.set_self]
      unfold RouterSeat
      rw [busy, todo]
      exact Or.inr rfl
    | routerReturns _ _ _ act =>
      simp only [BridgeStep.actor, goto_router, Pool.set_self]
      rw [router_return act]
      exact .of_idle _
    | sessionReturns busy todo _ _ =>
      have hpl := hi.idle busy (by simp [BridgeStep.actor, todo])
      simp only [BridgeStep.actor, goto_router] at hpl ⊢
      rw [hpl]
      exact .of_idle _
    | own busy todo act =>
      have hpl := hi.idle busy (by
        intro q rest htodo
        simp only [BridgeStep.actor, todo, List.cons.injEq] at htodo
        obtain ⟨rfl, -⟩ := htodo
        cases act)
      simp only [BridgeStep.actor, goto_router, setController_router] at hpl ⊢
      rw [hpl]
      exact .of_idle _
  · obtain ⟨hcaller, -, hplace⟩ := h.frame hj
    rw [hcaller, hplace]
    exact hr j

/-- Where a step leaves a thread in the session: where it was, out of a call, or where one of its own steps has brought it. -/
theorem Moves.sessionPlace (h : Moves b a b') (j : Nat) : b'.session.threads j = b.session.threads j ∨
    request (b'.session.threads j) = none ∨
    ∃ c r, sessionProgram.threads j (b.session.threads j) c b.session.shared = some r ∧ b'.session.threads j = r.1 := by
  by_cases hj : j = a.actor
  · subst hj
    cases h with
    | session _ act => exact Or.inr (Or.inr ⟨_, _, act, Pool.set_self _ _ _⟩)
    | refused _ => exact Or.inr (Or.inl (by simp [BridgeStep.actor, request, Point.request]))
    | published _ _ _ goes =>
      refine Or.inr (Or.inl ?_)
      rcases goes with rfl | rfl | ⟨m, rfl⟩ <;> simp [BridgeStep.actor, request, Point.request, Section.request]
    | callsSession _ _ idle act =>
      rw [← idle] at act
      exact Or.inr (Or.inr ⟨_, _, act, Pool.set_self _ _ _⟩)
    | sessionReturns _ _ done act =>
      rw [← done] at act
      exact Or.inr (Or.inr ⟨_, _, act, by simp [BridgeStep.actor]⟩)
    | _ => exact Or.inl rfl
  · exact Or.inl (h.frame hj).2.1

/-- What is left of a call was left of it behind its statement, or stands in its text, or is the status that the session has
    returned. -/
theorem Moves.todo (h : Moves b a b') (j : Nat) : (b'.caller j).todo = (b.caller j).todo ∨
    (∀ t ∈ (b'.caller j).todo, t ∈ (b.caller j).todo.tail ∨ t.plain = true) ∨
    ∃ rest q s, j = a.actor ∧ (b.caller j).todo = .session .start :: rest ∧
      b.session.threads j = .at (.done q (.status s)) ∧ (b'.caller j).todo = .adopt s :: rest := by
  by_cases hj : j = a.actor
  · subst hj
    cases h with
    | call free =>
      simp only [BridgeStep.actor, setCaller_caller, Function.update_self]
      exact Or.inr (Or.inl fun t ht => Or.inr (modelCall_plain _ t ht))
    | returns busy todo =>
      simp only [BridgeStep.actor, setCaller_caller, Function.update_self]
      exact Or.inr (Or.inl fun t ht => by cases ht)
    | @routerReturns i c q rest k q' res r busy todo done act =>
      simp only [BridgeStep.actor, goto_self]
      rw [todo]
      refine Or.inr (Or.inl fun t ht => ?_)
      cases res with
      | raised text => exact (unwind_calm ht).imp_right plain_of_calm
      | _ => exact Or.inl ht
    | @sessionReturns i c q rest q' res r busy todo done act =>
      simp only [BridgeStep.actor, goto_self]
      rw [todo]
      cases res with
      | raised text => exact Or.inr (Or.inl fun t ht => (unwind_calm ht).imp_right plain_of_calm)
      | status s =>
        simp only [Result.follow]
        split
        · rename_i hq
          subst hq
          exact Or.inr (Or.inr ⟨rest, q', s, trivial, rfl, done, rfl⟩)
        · exact Or.inr (Or.inl fun t ht => Or.inl ht)
      | _ => exact Or.inr (Or.inl fun t ht => Or.inl ht)
    | own busy todo act =>
      simp only [BridgeStep.actor, goto_self]
      rw [todo]
      exact Or.inr (Or.inl fun t ht => own_plain act ht)
    | _ => exact Or.inl rfl
  · exact Or.inl (congrArg Caller.todo (h.frame hj).1)

/-- What holds of the calls in every run. -/
structure Sound (b : Bridge) : Prop where
  seated : ∀ j, SessionSeat (b.caller j) (b.session.threads j)
  router : ∀ j, RouterSeat (b.caller j) (b.router.threads j)
  mute : ∀ j n q res, b.router.threads j = .done n q res → q.mute = true → res = .none
  serving : ∀ j, j ≠ 0 → (b.router.threads j).serving = false
  stops : ∀ j res, b.session.threads j = .at (.done .stop res) → ∃ s, res = .status s
  ends : ∀ j q, stopRequest (b.session.threads j) = some q → q = .stop ∨ q = .reset
  driven : ∀ j q, .session q ∈ (b.caller j).todo → q.driven = true
  adopts : ∀ j s, .adopt s ∉ (b.caller j).todo.tail

theorem Sound.step (hb : Sound b) (h : Moves b a b') : Sound b' where
  seated := h.seated hb.seated
  router := h.routerSeat hb.seated hb.router
  mute j n q res hpl hq := by
    rcases h.inRouter with hsame | ⟨c, r, act, hset, -⟩
    · exact hb.mute j n q res (hsame ▸ hpl) hq
    · rw [hset] at hpl
      by_cases hj : j = a.actor
      · subst hj
        rw [Pool.set_self] at hpl
        exact routerStep_mute act hpl hq
      · rw [Pool.set_other _ _ hj] at hpl
        exact hb.mute j n q res hpl hq
  serving j hj := by
    rcases h.inRouter with hsame | ⟨c, r, act, hset, -⟩
    · rw [hsame]
      exact hb.serving j hj
    · rw [hset]
      by_cases hja : j = a.actor
      · subst hja
        rw [Pool.set_self, step_serving act]
        exact hb.serving _ hj
      · rw [Pool.set_other _ _ hja]
        exact hb.serving j hj
  stops j res hpl := by
    rcases h.sessionPlace j with hsame | hnone | ⟨c, r, act, hplace⟩
    · exact hb.stops j res (hsame ▸ hpl)
    · rw [hpl] at hnone
      cases hnone
    · rcases done_result act (hplace ▸ hpl) with ⟨-, hread⟩ | ⟨-, hstop, -⟩
      · exact ⟨_, hread⟩
      · exact absurd rfl hstop
  ends j q hq := by
    rcases h.sessionPlace j with hsame | hnone | ⟨c, r, act, hplace⟩
    · exact hb.ends j q (hsame ▸ hq)
    · rw [request_of_stopRequest hq] at hnone
      cases hnone
    · rcases stopRequest_step act (hplace ▸ hq) with hold | ⟨-, hnew⟩
      · exact hb.ends j q hold
      · exact hnew
  driven j q hq := by
    rcases h.todo j with hsame | hold | ⟨rest, _, _, -, hrest, -, hnew⟩
    · exact hb.driven j q (hsame ▸ hq)
    · exact (hold _ hq).elim (fun h => hb.driven j q (List.mem_of_mem_tail h)) id
    · rw [hnew] at hq
      refine hb.driven j q ?_
      rw [hrest]
      exact List.mem_cons_of_mem _ ((List.mem_cons.mp hq).resolve_left (by simp))
  adopts j s hs := by
    rcases h.todo j with hsame | hold | ⟨rest, _, _, -, hrest, -, hnew⟩
    · exact hb.adopts j s (hsame ▸ hs)
    · rcases hold _ (List.mem_of_mem_tail hs) with h | h
      · exact hb.adopts j s h
      · cases h
    · rw [hnew] at hs
      exact hb.adopts j s (by rw [hrest]; exact hs)

theorem sound_reach {C : Bridge → BridgeStep → Prop} (h : bridgeMachine.Reach C b) : Sound b := by
  refine h.invariant (I := Sound) ?_ fun b a b' _ hb _ hstep => hb.step (step_moves hstep)
  rintro _ ⟨models, initialPose, warmstart, e, info, -, -, rfl⟩
  refine ⟨fun j => rfl, fun j => trivial, fun j n q res hpl => ?_, fun j hj => ?_, fun j res hpl => ?_, fun j q hq => ?_,
    fun j q hq => ?_, fun j s hs => ?_⟩
  · simp only [launched] at hpl
    split at hpl <;> cases hpl
  · simp [launched, hj, RouterPlace.serving]
  · cases hpl
  · cases hq
  · cases hq
  · cases hs

/-- A thread that is in a call of the session has called it. -/
theorem Sound.calling (hb : Sound b) {q : Request} (h : request (b.session.threads j) = some q) :
    ∃ c rest, (b.caller j).call = some c ∧ (b.caller j).todo = .session q :: rest := by
  have hj := hb.seated j
  unfold SessionSeat at hj
  split at hj
  · rw [hj] at h
    cases h
  · rename_i c q' rest hcall htodo
    rcases hj with hidle | hq
    · rw [hidle] at h
      cases h
    · obtain rfl : q' = q := Option.some.inj (hq.symm.trans h)
      exact ⟨c, rest, hcall, htodo⟩
  · rw [hj] at h
    cases h

/-- What a thread in a call does, by what is left of the call. -/
inductive Goes (b : Bridge) (i : Nat) : List Statement → BridgeStep → Bridge → Prop
  | returns : Goes b i [] (.go i .next) (b.setCaller i {})
  | callsRouter {q rest r} (idle : b.router.threads i = .idle) (act : routerStep .idle (.call q) b.router.shared = some r) :
      Goes b i (.router q :: rest) (.go i .next) { b with router := b.router.set i r }
  | router {q rest c r} (call : (b.router.threads i).call = some q)
      (act : routerStep (b.router.threads i) c b.router.shared = some r) :
      Goes b i (.router q :: rest) (.router i c) { b with router := b.router.set i r }
  | routerReturns {q rest n res r} (done : b.router.threads i = .done n q res)
      (act : routerStep (.done n q res) .go b.router.shared = some r) :
      Goes b i (.router q :: rest) (.go i .next) ({ b with router := b.router.set i r }.goto i (res.follow q rest))
  | callsSession {q rest r} (idle : b.session.threads i = .at .idle)
      (act : sessionProgram.threads i (.at .idle) (.call q) b.session.shared = some r) :
      Goes b i (.session q :: rest) (.go i .next) { b with session := b.session.set i r }
  | session {q rest c r} (request : request (b.session.threads i) = some q)
      (act : sessionProgram.threads i (b.session.threads i) c b.session.shared = some r)
      (goes : HumanoidLab.request r.1 = some q) :
      Goes b i (.session q :: rest) (.session i c) { b with session := b.session.set i r }
  | sessionReturns {q rest res r} (done : b.session.threads i = .at (.done q res))
      (act : sessionProgram.threads i (.at (.done q res)) .go b.session.shared = some r) :
      Goes b i (.session q :: rest) (.go i .next) ({ b with session := b.session.set i r }.goto i (res.follow q rest))
  | own {s rest m k todo} (idle : b.session.threads i = .at .idle) (act : b.own s rest m = some (k, todo)) :
      Goes b i (s :: rest) (.go i m) ((b.setController k).goto i todo)

theorem Sound.goes (hb : Sound b) (h : Moves b a b') {c : ModelCall} (busy : (b.caller a.actor).call = some c) :
    Goes b a.actor (b.caller a.actor).todo a b' := by
  have hsession := hb.seated a.actor
  have hrouter := hb.router a.actor
  cases h with
  | @session i ch r admits act =>
    rcases admitsSession_cases admits with ⟨-, -, hfree⟩ | ⟨hpl, hdone⟩
    · rw [BridgeStep.actor, (free_iff.mp hfree).1] at busy
      cases busy
    · simp only [BridgeStep.actor] at hsession busy ⊢
      unfold SessionSeat at hsession
      split at hsession
      · rename_i hnone
        rw [hnone] at busy
        cases busy
      · rename_i q rest _ htodo
        have hq := hsession.resolve_left hpl
        rw [htodo]
        exact .session hq act ((request_step act (fun h => absurd h hpl) hdone).trans hq)
      · exact absurd hsession hpl
  | @router i ch r admits act =>
    simp only [BridgeStep.actor] at hrouter busy ⊢
    have hpl : b.router.threads i ≠ .idle := by
      rcases admitsRouter_cases admits with hfree | ⟨n, q, res, hdone⟩ | ⟨hpl, -⟩
      · rw [(free_iff.mp hfree).1] at busy
        cases busy
      · simp [hdone]
      · exact hpl
    unfold RouterSeat at hrouter
    split at hrouter
    · rename_i hnone
      rw [hnone] at busy
      cases busy
    · rename_i q rest _ htodo
      rw [htodo]
      exact .router (hrouter.resolve_left hpl) act
    · exact absurd hrouter hpl
  | @refused i g n at_ | @submits i g n _ at_ _ _ | @published i g n _ _ _ _ _ at_ _ _ _ =>
    rw [BridgeStep.actor, call_of_loop (hb.seated i) at_] at busy
    cases busy
  | call free =>
    rw [BridgeStep.actor, (free_iff.mp free).1] at busy
    cases busy
  | returns _ todo =>
    rw [BridgeStep.actor, todo]
    exact .returns
  | callsRouter _ todo idle act =>
    rw [BridgeStep.actor, todo]
    exact .callsRouter idle act
  | @routerReturns i _ q rest n q' res r _ todo done act =>
    simp only [BridgeStep.actor] at hrouter busy ⊢
    unfold RouterSeat at hrouter
    rw [busy, todo, done] at hrouter
    obtain rfl : q' = q := by
      rcases hrouter with hidle | hq
      · cases hidle
      · exact Option.some.inj hq
    rw [todo]
    exact .routerReturns done act
  | callsSession _ todo idle act =>
    rw [BridgeStep.actor, todo]
    exact .callsSession idle act
  | @sessionReturns i _ q rest q' res r _ todo done act =>
    simp only [BridgeStep.actor] at hsession busy ⊢
    unfold SessionSeat at hsession
    rw [busy, todo, done] at hsession
    obtain rfl : q' = q := by
      rcases hsession with hidle | hq
      · cases hidle
      · exact Option.some.inj hq
    rw [todo]
    exact .sessionReturns done act
  | @own i _ s rest m k todo' _ todo act =>
    have hpl := hsession.idle busy (by
      intro q rest htodo
      simp only [BridgeStep.actor, todo, List.cons.injEq] at htodo
      obtain ⟨rfl, -⟩ := htodo
      cases act)
    rw [BridgeStep.actor, todo]
    exact .own hpl act

/-- What a step of the session does to the fields that the controller sees, where no call of `mark_error` or `reset` is made. -/
inductive Change (pl : Place Point Section) (s s' : Session) : Prop
  | same (same : s'.lifecycle = s.lifecycle)
  | accepted (at_ : pl = .inside .startCheck) (state : s.state ≠ .running ∧ s.state ≠ .error) (session : s' = s.accept)
  | stopFinish (r : Request) (at_ : pl = .inside (.stopFinish r)) (session : s' = s.stopFinish)
  | adoptPolicy (info : ServerInfo) (at_ : pl = .inside (.adoptPolicy info)) (session : s' = s.adoptPolicy info)
  | announce (g : Nat) (at_ : pl = .inside (.loop g .announce)) (current : g = s.generation) (session : s' = s.announce)
  | fail (g : Nat) (m : String) (at_ : pl = .inside (.loop g (.fail m))) (current : g = s.generation) (session : s' = s.fail m)

theorem Sound.change (hb : Sound b) {c : Choice} {r : Place Point Section × Guarded World}
    (act : sessionProgram.threads i (b.session.threads i) c b.session.shared = some r) :
    Change (b.session.threads i) b.psi r.2.data.session := by
  have hnot (q : Request) (hq : q.driven = false) : request (b.session.threads i) ≠ some q := by
    intro h
    obtain ⟨c, rest, -, htodo⟩ := hb.calling h
    rw [hb.driven i q (htodo ▸ List.mem_cons_self)] at hq
    cases hq
  cases HumanoidLab.step_moves act with
  | quiet same _ | called _ _ _ same _ | returned _ _ _ _ same _ => exact .same same
  | accepted at_ _ state session _ => exact .accepted at_ state session
  | stopFinish q at_ session _ => exact .stopFinish q at_ session
  | resetClear e at_ _ _ => exact absurd (congrArg request at_) (hnot .reset rfl)
  | markError m at_ _ _ => exact absurd (congrArg request at_) (hnot (.markError m) rfl)
  | adoptPolicy info at_ session _ => exact .adoptPolicy info at_ session
  | announce g at_ current session _ => exact .announce g at_ current session
  | fail g m at_ current session _ => exact .fail g m at_ current session

/-- The session does not come to `RUNNING` but where its current streaming thread announces itself. -/
theorem Change.running {pl : Place Point Section} {s s' : Session} (h : Change pl s s')
    (hannounce : pl ≠ .inside (.loop s.generation .announce)) (hs : s.state ≠ .running) : s'.state ≠ .running := by
  cases h with
  | same same => exact (Session.lifecycle_eq same).1 ▸ hs
  | accepted _ _ session =>
    subst session
    exact hs
  | stopFinish _ _ session =>
    subst session
    simp only [Session.stopFinish]
    split
    · simp
    · exact hs
  | adoptPolicy _ _ session =>
    subst session
    simp [Session.adoptPolicy, hs]
  | announce g at_ current _ =>
    subst current
    exact absurd at_ hannounce
  | fail _ _ _ _ session =>
    subst session
    simp [Session.fail]

theorem stopFinish_state (s : Session) : s.stopFinish.state ≠ .running := by
  simp only [Session.stopFinish]
  split
  · simp
  · rename_i hstate
    intro hrunning
    exact hstate ⟨by simp [hrunning], Or.inr hrunning⟩

end Bridge
end HumanoidLab
