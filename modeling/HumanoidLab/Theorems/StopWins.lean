import HumanoidLab.Lib.Recording
import HumanoidLab.Theorems.BridgeCalls

/-! One start and one stop of the model controller, on two threads. The stop wins unless the start opens the gate or clears the stop
    event behind it, the streaming thread announces itself behind it, or the router has a payload in its hands. -/

namespace HumanoidLab
open Concurrency

/-! ### The record of a race -/

/-- What has been stopped in a run, and the calls that have returned. -/
structure Race where
  closed : Bool := false
  withdrawn : Bool := false
  finished : Bool := false
  returned : List ModelCall := []

namespace Race

/-- A start and a stop have returned. -/
def complete (r : Race) : Bool := r.returned.contains .start && r.returned.contains .stop

/-- A stop has done all that it does. -/
def Won (r : Race) : Prop := r.closed = true ∧ r.withdrawn = true ∧ r.finished = true

end Race

/-- The call that begins with a step, other than one of `status`. -/
def BridgeStep.begins : BridgeStep → Option (Nat × ModelCall)
  | .call _ .status => none
  | .call i c => some (i, c)
  | _ => none

/-- The router thread has a payload of a policy past the last look at the gate. -/
def RouterPlace.sends {κ : Type} : RouterPlace κ → Bool
  | .send .psi _ | .sendGroot _ => true
  | _ => false

/-- The record of a payload of a policy that was sent to the port. -/
def RouterEvent.policy {κ : Type} : RouterEvent κ → Bool
  | .sent .psi _ | .sent .groot _ => true
  | _ => false

namespace Bridge

/-- How many payloads of a policy have been sent to the port. -/
def sends (b : Bridge) : Nat := b.router.shared.log.countP RouterEvent.policy

/-- The block of the router that a step goes through. -/
def routerBlock (b : Bridge) : BridgeStep → Option (RouterCall PortMessage)
  | .router i _ =>
    match b.router.threads i with
    | .lock _ q => some q
    | _ => none
  | _ => none

/-- The statement of the session between its blocks that a step takes. -/
def sessionPoint (b : Bridge) : BridgeStep → Option Point
  | .session i _ =>
    match b.session.threads i with
    | .at p => some p
    | _ => none
  | _ => none

/-- The call that returns with a step. -/
def returning (b : Bridge) : BridgeStep → Option ModelCall
  | .go i _ => if (b.caller i).todo = [] then (b.caller i).call else none
  | _ => none

/-- A stop finds GR00T selected, and leaves the session alone. -/
def passes (b : Bridge) (a : BridgeStep) : Bool := b.taken a == some (.active .stop) && b.controller.selected.kind == .groot

/-- The stop event is set by a call. -/
def withdraws (b : Bridge) (a : BridgeStep) : Bool :=
  match b.sessionPoint a with
  | some (.stopEvent _) => true
  | _ => false

/-- The stop event is cleared. -/
def clears (b : Bridge) (a : BridgeStep) : Bool :=
  match b.sessionPoint a with
  | some (.startStop _) => true
  | _ => false

/-- The last block of a stop. -/
def finishes (b : Bridge) (a : BridgeStep) : Bool :=
  match b.block a with
  | some (.stopFinish _) => true
  | _ => false

/-- The current streaming thread announces itself. -/
def announces (b : Bridge) (a : BridgeStep) : Bool := b.block a == some (.loop b.psi.generation .announce)

/-- What the record keeps of a step. -/
def recordRace (b : Bridge) (a : BridgeStep) (r : Race) : Race where
  closed := r.closed || b.routerBlock a == some .halt
  withdrawn := r.withdrawn || b.withdraws a || b.passes a
  finished := r.finished || b.finishes a || b.passes a
  returned := (b.returning a).toList ++ r.returned

/-- The steps in which a stop wins: the gate is not opened behind it, the stop event is not cleared behind it, the streaming thread
    does not announce itself behind it, a session that it leaves alone is not streaming, and the router thread has no payload in its
    hands when the later of the two calls returns. -/
def Ordered (x : Bridge × Race) (a : BridgeStep) : Prop :=
  (x.1.routerBlock a = some .resume → x.2.closed = false) ∧
  (x.1.clears a = true → x.2.withdrawn = false) ∧
  (x.1.announces a = true → x.2.finished = false) ∧
  (x.1.passes a = true → x.1.psi.stopEvent = true ∧ x.1.psi.state ≠ .running) ∧
  (x.2.complete = false → (x.1.recordRace a x.2).complete = true → (x.1.router.threads 0).sends = false)

instance (x : Bridge × Race) (a : BridgeStep) : Decidable (Ordered x a) := inferInstanceAs (Decidable (_ ∧ _))

/-! ### Where a stop stands -/

/-- A thread in a `halt` of the router has not come to its block. -/
def beforeHalt {κ : Type} : RouterPlace κ → Bool
  | .idle | .lock _ _ => true
  | _ => false

/-- How far a stop is: what it has behind it is recorded. -/
inductive Stopping (b : Bridge) (r : Race) (k : Nat) : Prop
  | halting (todo : (b.caller k).todo = stopCode) (closed : beforeHalt (b.router.threads k) = true ∨ r.closed = true)
  | reading (todo : (b.caller k).todo = stopCode.tail) (closed : r.closed = true)
  | ending (rest : List Statement) (todo : (b.caller k).todo = .session .stop :: rest) (closed : r.closed = true)
      (withdrawn : beforeEvent (b.session.threads k) = true ∨ r.withdrawn = true)
      (finished : beforeFinish (b.session.threads k) = true ∨ r.finished = true)
  | decided (won : r.Won)

/-- What holds all along the runs in which a stop wins. -/
structure Racing (b : Bridge) (r : Race) : Prop where
  stopping : ∀ k, (b.caller k).call = some .stop → Stopping b r k
  returned : .stop ∈ r.returned → r.Won
  gate : r.closed = true → b.router.shared.core.gate = false
  event : r.withdrawn = true → b.psi.stopEvent = true
  state : r.finished = true → b.psi.state ≠ .running
  sends : r.complete = true → (b.router.threads 0).sends = false

/-! ### The steps -/

variable {b b' : Bridge} {a : BridgeStep} {r : Race} {i j k : Nat}

theorem loopPoint_stopEvent {g : Nat} {p : LoopPoint} {c : Choice} {w w' : World} {n : Next Point Section}
    (h : loopPoint g p c w = some (n, w')) (hset : w.session.stopEvent = true) : w'.session.stopEvent = true := by
  revert h
  fun_cases loopPoint g p c w <;> intro h <;> simp_all <;> simp [← h.2]

theorem body_stopEvent (i : Nat) (k : Section) (w : World) : (body i k w).2.session.stopEvent = w.session.stopEvent := by
  cases k with
  | startCheck =>
    simp only [body]
    split
    · rfl
    · split <;> rfl
  | readPreview =>
    simp only [body]
    split <;> rfl
  | loop g c =>
    simp only [body]
    fun_cases loopBody g c w.session <;> rfl
  | _ => rfl

/-- The stop event stays set where no start clears it. -/
theorem stopEvent_step {c : Choice} {pl : Place Point Section} {w : Guarded World} {x : Place Point Section × Guarded World}
    (h : sessionProgram.threads i pl c w = some x) (hclear : ∀ g, pl ≠ .at (.startStop g)) (hset : w.data.session.stopEvent = true) :
    x.2.data.session.stopEvent = true := by
  rcases Locking.threads_cases h with ⟨p, n, d, rfl, hp, rfl⟩ | ⟨k, rfl, -, rfl⟩ | ⟨k, e, d, rfl, hb, rfl⟩
  · have hp : point i p c w.data = some (n, d) := hp
    cases p with
    | loop g p =>
      have hp : loopPoint g p c w.data = some (n, d) := by cases c <;> exact hp
      exact loopPoint_stopEvent hp hset
    | startStop g => exact absurd rfl (hclear g)
    | idle =>
      cases c <;> simp only [point, reduceCtorEq] at hp
      case call q =>
        obtain ⟨-, rfl⟩ := Prod.mk.inj (Option.some.inj hp)
        exact hset
      case run g =>
        split at hp <;> cases hp
        exact hset
    | _ =>
      cases c <;> simp only [point, reduceCtorEq] at hp
      all_goals
        obtain ⟨-, rfl⟩ := Prod.mk.inj (Option.some.inj hp)
        first
          | exact hset
          | rfl
  · exact hset
  · rw [show d = (body i k w.data).2 from (congrArg Prod.snd hb).symm, body_stopEvent]
    exact hset

theorem Won.record (h : r.Won) : (b.recordRace a r).Won := by
  obtain ⟨hclosed, hwithdrawn, hfinished⟩ := h
  simp [Race.Won, recordRace, hclosed, hwithdrawn, hfinished]

/-- A thread that does not move stands as far as it stood. -/
theorem Stopping.stay (h : Stopping b r k) (hcaller : b'.caller k = b.caller k)
    (hsession : b'.session.threads k = b.session.threads k) (hrouter : b'.router.threads k = b.router.threads k) :
    Stopping b' (b.recordRace a r) k := by
  cases h with
  | halting todo closed =>
    refine .halting (by rw [hcaller, todo]) ?_
    rw [hrouter]
    exact closed.imp_right fun hclosed => by simp [recordRace, hclosed]
  | reading todo closed => exact .reading (by rw [hcaller, todo]) (by simp [recordRace, closed])
  | ending rest todo closed withdrawn finished =>
    refine .ending rest (by rw [hcaller, todo]) (by simp [recordRace, closed]) ?_ ?_ <;> rw [hsession]
    · exact withdrawn.imp_right fun hwithdrawn => by simp [recordRace, hwithdrawn]
    · exact finished.imp_right fun hfinished => by simp [recordRace, hfinished]
  | decided won => exact .decided (Won.record won)

/-- A stop that goes on is further, and what it has then behind it is recorded. -/
theorem Goes.stopping {todo : List Statement} (hb : Sound b) (h : Goes b k todo a b') (htodo : (b.caller k).todo = todo)
    (hs : Stopping b r k) : Stopping b' (b.recordRace a r) k := by
  cases hs with
  | decided won => exact .decided (Won.record won)
  | halting hcode closed =>
    rw [← htodo, hcode] at h
    cases h with
    | callsRouter idle act =>
      obtain rfl := Option.some.inj act
      exact .halting hcode (Or.inl (by simp [beforeHalt]))
    | router call act =>
      refine .halting hcode (Or.inr ?_)
      rcases closed with hbefore | hclosed
      · cases hpl : b.router.threads k with
        | lock n q =>
          obtain rfl : q = .halt := by simpa [hpl, RouterPlace.call] using call
          simp [recordRace, routerBlock, hpl]
        | _ => simp [hpl, beforeHalt, RouterPlace.call] at hbefore call
      · simp [recordRace, hclosed]
    | routerReturns done act =>
      obtain rfl := hb.mute k _ .halt _ done rfl
      refine .reading (by simp [goto_self, RouterResult.follow, stopCode]) ?_
      rcases closed with hbefore | hclosed
      · simp [done, beforeHalt] at hbefore
      · simp [recordRace, hclosed]
    | own idle act => cases act
  | reading hcode closed =>
    have hactive : (b.caller k).todo = .active .stop :: .halt :: statusCode := hcode
    rw [← htodo, hactive] at h
    cases h with
    | @own _ _ m _ _ idle act =>
      cases m <;> simp only [Bridge.own, Option.some.injEq, Prod.mk.injEq, reduceCtorEq] at act
      obtain ⟨rfl, rfl⟩ := act
      cases hkind : b.controller.selected.kind with
      | psi =>
        refine .ending (.halt :: statusCode) (by simp [goto_self, ActiveRead.code]) (by simp [recordRace, closed])
          (Or.inl ?_) (Or.inl ?_) <;> simp [idle, beforeEvent, beforeFinish]
      | groot =>
        have hpasses : b.passes (.go k .next) = true := by simp [passes, taken_go hactive, hkind]
        exact .decided ⟨by simp [recordRace, closed], by simp [recordRace, hpasses], by simp [recordRace, hpasses]⟩
  | ending rest hcode closed withdrawn finished =>
    rw [← htodo, hcode] at h
    cases h with
    | callsSession idle act =>
      have hplace := (session_call act).1
      refine .ending rest hcode (by simp [recordRace, closed]) (Or.inl ?_) (Or.inl ?_) <;>
        simp [hplace, Request.entry, Next.place, beforeEvent, beforeFinish]
    | session request act goes =>
      have hpl : b.session.threads k ≠ .at .idle := by
        intro hpl
        rw [hpl] at request
        cases request
      obtain ⟨hevent, hfinish⟩ := before_step act hpl
      refine .ending rest hcode (by simp [recordRace, closed]) ?_ ?_
      · rcases withdrawn with hbefore | hwithdrawn
        · rcases hevent hbefore with hstill | ⟨q, hat⟩
          · exact Or.inl (by simpa using hstill)
          · exact Or.inr (by simp [recordRace, withdraws, sessionPoint, hat])
        · exact Or.inr (by simp [recordRace, hwithdrawn])
      · rcases finished with hbefore | hfinished
        · rcases hfinish hbefore with hstill | ⟨q, hat⟩
          · exact Or.inl (by simpa using hstill)
          · exact Or.inr (by simp [recordRace, finishes, block, hat])
        · exact Or.inr (by simp [recordRace, hfinished])
    | sessionReturns done act =>
      rw [done] at withdrawn finished
      refine .decided (Won.record ⟨closed, withdrawn.resolve_left ?_, finished.resolve_left ?_⟩) <;> simp [beforeEvent, beforeFinish]
    | own idle act => cases act

theorem Moves.stopping (hb : Sound b) (h : Moves b a b') (hs : ∀ k, (b.caller k).call = some .stop → Stopping b r k)
    (hk : (b'.caller k).call = some .stop) : Stopping b' (b.recordRace a r) k := by
  rcases h.inCall k with hsame | ⟨c, -, hfree, rfl⟩ | ⟨c, -, -, -, rfl⟩
  · rw [hsame] at hk
    by_cases hka : k = a.actor
    · subst hka
      exact (hb.goes h hk).stopping hb rfl (hs _ hk)
    · obtain ⟨hcaller, hsession, hrouter⟩ := h.frame hka
      exact (hs k hk).stay hcaller hsession hrouter
  · obtain rfl : c = .stop := by simpa using hk
    refine .halting (by simp [ModelCall.code]) (Or.inl ?_)
    rw [setCaller_router, (free_iff.mp hfree).2.2]
    rfl
  · simp at hk

/-! ### The router behind a stop -/

section Router

variable {κ : Type} {pl : RouterPlace κ} {c : RouterChoice κ} {w : Router κ} {x : RouterPlace κ × Router κ}

theorem gate_step (h : routerStep pl c w = some x) (hresume : ∀ n, pl ≠ .lock n .resume) (hgate : w.core.gate = false) :
    x.2.core.gate = false := by
  rcases (router_moves h).core with hsame | hselects
  · exact (RouterCore.selection_eq hsame).2.1.trans hgate
  · cases hselects with
    | select _ _ _ _ core | halt _ _ _ core => simp [core, RouterCore.select, RouterCore.halt]
    | close _ _ _ _ core => simp [core, RouterCore.close]
    | resume n at_ _ _ _ => exact absurd at_ (hresume n)

/-- Behind a closed gate no payload comes past the last look at it. -/
theorem sends_step (h : routerStep pl c w = some x) (hgate : w.core.gate = false) (hpl : pl.sends = false) : x.1.sends = false := by
  cases router_moves h with
  | quiet _ _ _ _ carries _ =>
    have hcarries := carries.2
    cases hx : x.1 <;> simp [hx, RouterPlace.carries, RouterPlace.sends] at hcarries ⊢
  | selects s _ _ _ => cases s with | _ => simp_all [RouterPlace.sends]
  | forward f e forwards _ _ _ => simp [RouterCore.forwards, hgate] at forwards
  | acceptGroot e accept _ _ _ => simp [RouterCore.accept, hgate] at accept
  | _ => simp_all [RouterPlace.sends]

/-- Only a thread that has a payload in its hands sends it. -/
theorem policy_step (h : routerStep pl c w = some x) (hpl : pl.sends = false) :
    x.2.log.countP RouterEvent.policy = w.log.countP RouterEvent.policy := by
  cases router_moves h with
  | quiet _ _ _ log _ _ | selects _ _ _ log => rw [log]
  | sentGroot e at_ _ _ => simp [at_, RouterPlace.sends] at hpl
  | sent f e at_ _ state =>
    rw [state]
    cases f <;> simp_all [RouterPlace.sends, Feed.source, RouterEvent.policy]
  | _ => simp_all [RouterEvent.policy, Router.setQueue]

end Router

/-! ### A race -/

theorem routerBlock_eq_some {q : RouterCall PortMessage} (h : b.routerBlock a = some q) :
    ∃ i c n, a = .router i c ∧ b.router.threads i = .lock n q := by
  unfold routerBlock at h
  split at h
  · split at h <;> cases h
    exact ⟨_, _, _, rfl, ‹_›⟩
  · cases h

theorem sessionPoint_eq_some {p : Point} (h : b.sessionPoint a = some p) :
    ∃ i c, a = .session i c ∧ b.session.threads i = .at p := by
  unfold sessionPoint at h
  split at h
  · split at h <;> cases h
    exact ⟨_, _, rfl, ‹_›⟩
  · cases h

theorem returning_eq_some {c : ModelCall} (h : b.returning a = some c) :
    ∃ i m, a = .go i m ∧ (b.caller i).call = some c ∧ (b.caller i).todo = [] := by
  unfold returning at h
  split at h
  · split at h
    · exact ⟨_, _, rfl, h, ‹_›⟩
    · cases h
  · cases h

theorem passes_go (h : b.passes a = true) : ∃ i m, a = .go i m := by
  have htaken := (Bool.and_eq_true_iff.mp h).1
  obtain ⟨i, m, -, rfl, -⟩ := taken_eq_some (beq_iff_eq.mp htaken)
  exact ⟨i, m, rfl⟩

theorem Racing.gate_kept (hr : Racing b r) (hc : Ordered (b, r) a) (h : Moves b a b') (hclosed : (b.recordRace a r).closed = true) :
    b'.router.shared.core.gate = false := by
  by_cases hold : r.closed = true
  · rcases h.inRouter with hsame | ⟨c, x, act, hset, hwho⟩
    · rw [hsame]
      exact hr.gate hold
    · rw [hset]
      refine gate_step act (fun n hpl => ?_) (hr.gate hold)
      rcases hwho with ha | hidle | ⟨_, _, _, hdone⟩
      · have hopen := hc.1 (by rw [ha]; simp [routerBlock, hpl])
        rw [hold] at hopen
        cases hopen
      · rw [hpl] at hidle
        cases hidle
      · rw [hpl] at hdone
        cases hdone
  · have hhalt : b.routerBlock a = some .halt := by simpa [recordRace, hold] using hclosed
    obtain ⟨i, c, n, rfl, hpl⟩ := routerBlock_eq_some hhalt
    cases h with
    | router _ act =>
      rw [hpl] at act
      cases c <;> cases act
      rfl

theorem Racing.event_kept (hr : Racing b r) (hc : Ordered (b, r) a) (h : Moves b a b')
    (hwithdrawn : (b.recordRace a r).withdrawn = true) : b'.psi.stopEvent = true := by
  simp only [recordRace, Bool.or_eq_true, or_assoc] at hwithdrawn
  rcases hwithdrawn with hold | hset | hpasses
  · rcases h.inSession with ⟨hsame, -⟩ | ⟨i, c, x, rfl, act, rfl⟩
    · rw [hsame]
      exact hr.event hold
    · refine stopEvent_step act (fun g hpl => ?_) (hr.event hold)
      have hnot := hc.2.1 (by simp [clears, sessionPoint, hpl])
      rw [hold] at hnot
      cases hnot
  · unfold withdraws at hset
    split at hset
    · obtain ⟨i, c, rfl, hpl⟩ := sessionPoint_eq_some ‹_›
      cases h with
      | session _ act =>
        rw [hpl] at act
        cases c <;> cases act
        rfl
    · cases hset
  · obtain ⟨i, m, rfl⟩ := passes_go hpasses
    rw [h.psi (by simp)]
    exact (hc.2.2.2.1 hpasses).1

theorem Racing.state_kept (hr : Racing b r) (hb : Sound b) (hc : Ordered (b, r) a) (h : Moves b a b')
    (hfinished : (b.recordRace a r).finished = true) : b'.psi.state ≠ .running := by
  simp only [recordRace, Bool.or_eq_true, or_assoc] at hfinished
  rcases hfinished with hold | hfinishes | hpasses
  · rcases h.inSession with ⟨hsame, -⟩ | ⟨i, c, x, rfl, act, rfl⟩
    · rw [hsame]
      exact hr.state hold
    · refine (hb.change act).running (fun hpl => ?_) (hr.state hold)
      have hnot := hc.2.2.1 (by simp [announces, block_session hpl])
      rw [hold] at hnot
      cases hnot
  · unfold finishes at hfinishes
    split at hfinishes
    · obtain ⟨i, c, rfl, hpl⟩ := block_eq_some ‹_›
      cases h with
      | session _ act =>
        rw [hpl] at act
        obtain rfl := Option.some.inj act
        exact stopFinish_state b.psi
    · cases hfinishes
  · obtain ⟨i, m, rfl⟩ := passes_go hpasses
    rw [h.psi (by simp)]
    exact (hc.2.2.2.1 hpasses).2

theorem Racing.returned_kept (hr : Racing b r) (hreturned : .stop ∈ (b.recordRace a r).returned) : (b.recordRace a r).Won := by
  rcases List.mem_append.mp hreturned with hnew | hold
  · obtain ⟨i, m, -, hcall, htodo⟩ := returning_eq_some (Option.mem_toList.mp hnew)
    cases hr.stopping i hcall with
    | decided won => exact Won.record won
    | halting hcode _ | reading hcode _ =>
      rw [htodo] at hcode
      cases hcode
    | ending _ hcode _ _ _ =>
      rw [htodo] at hcode
      cases hcode
  · exact Won.record (hr.returned hold)

theorem Racing.gate_of_complete (hr : Racing b r) (hcomplete : r.complete = true) : b.router.shared.core.gate = false := by
  have hstop : .stop ∈ r.returned := by simpa using (Bool.and_eq_true_iff.mp hcomplete).2
  exact hr.gate (hr.returned hstop).1

theorem Racing.sends_kept (hr : Racing b r) (hb : Sound b) (hc : Ordered (b, r) a) (h : Moves b a b')
    (hcomplete : (b.recordRace a r).complete = true) : (b'.router.threads 0).sends = false := by
  cases hold : r.complete with
  | true =>
    rcases h.inRouter with hsame | ⟨c, x, act, hset, -⟩
    · rw [hsame]
      exact hr.sends hold
    · rw [hset]
      by_cases hactor : 0 = a.actor
      · rw [← hactor] at act ⊢
        rw [Pool.set_self]
        exact sends_step act (hr.gate_of_complete hold) (hr.sends hold)
      · rw [Pool.set_other _ _ hactor]
        exact hr.sends hold
  | false =>
    have hsends := hc.2.2.2.2 hold hcomplete
    cases hreturns : b.returning a with
    | none =>
      simp only [recordRace, hreturns, Option.toList_none, List.nil_append, Race.complete] at hcomplete hold
      rw [hcomplete] at hold
      cases hold
    | some c =>
      obtain ⟨i, m, rfl, hcall, htodo⟩ := returning_eq_some hreturns
      have hgoes := hb.goes h hcall
      rw [BridgeStep.actor, htodo] at hgoes
      cases hgoes
      exact hsends

/-- A step that is in its order keeps what holds of a race. -/
theorem Racing.step (hr : Racing b r) (hb : Sound b) (hc : Ordered (b, r) a) (h : Moves b a b') : Racing b' (b.recordRace a r) where
  stopping _ := h.stopping hb hr.stopping
  returned := hr.returned_kept
  gate := hr.gate_kept hc h
  event := hr.event_kept hc h
  state := hr.state_kept hb hc h
  sends := hr.sends_kept hb hc h

/-- When both calls have returned, nothing more of a policy is sent. -/
theorem Racing.sends_eq (hr : Racing b r) (hb : Sound b) (h : Moves b a b') (hcomplete : r.complete = true) : b'.sends = b.sends := by
  rcases h.inRouter with hsame | ⟨c, x, act, hset, -⟩
  · unfold Bridge.sends
    rw [hsame]
  · unfold Bridge.sends
    rw [hset]
    refine policy_step act ?_
    by_cases hactor : a.actor = 0
    · rw [hactor]
      exact hr.sends hcomplete
    · have hserving := hb.serving _ hactor
      cases hpl : b.router.threads a.actor <;> simp_all [RouterPlace.serving, RouterPlace.sends]

theorem complete_recordRace (hcomplete : r.complete = true) : (b.recordRace a r).complete = true := by
  simp only [Race.complete, Bool.and_eq_true, List.contains_eq_mem, decide_eq_true_eq] at hcomplete ⊢
  exact hcomplete.imp (List.mem_append_right _) (List.mem_append_right _)

end Bridge

/-! ### The runs -/

/-- The bridge beside the record of its race. -/
def racingBridge : Machine (Bridge × Race) BridgeStep := bridgeMachine.recording Bridge.recordRace {}

namespace Bridge

variable {s t u : Bridge} {r₀ r' : Race} {as bs : List BridgeStep} {c : ModelCall}

/-- A call that began is in progress or has returned. -/
theorem begun_kept (h : Moves b a b') (hk : (b.caller k).call = some c ∨ c ∈ r.returned) :
    (b'.caller k).call = some c ∨ c ∈ (b.recordRace a r).returned := by
  rcases hk with hcall | hreturned
  · rcases h.inCall k with hsame | ⟨c', -, hfree, -⟩ | ⟨c', rfl, hbusy, htodo, -⟩
    · exact Or.inl (hsame.trans hcall)
    · rw [(free_iff.mp hfree).1] at hcall
      cases hcall
    · right
      simp [recordRace, returning, htodo, hcall]
  · exact Or.inr (List.mem_append_right _ hreturned)

theorem begun_run (hs : Sound s) (hrun : racingBridge.run (s, r₀) as = some (t, r))
    (hk : (k, c) ∈ as.filterMap BridgeStep.begins ∨ (s.caller k).call = some c ∨ c ∈ r₀.returned) :
    (t.caller k).call = some c ∨ c ∈ r.returned := by
  induction as generalizing s r₀ with
  | nil =>
    obtain ⟨rfl, rfl⟩ : s = t ∧ r₀ = r := by simpa using hrun
    exact hk.resolve_left (by simp)
  | cons a as ih =>
    rw [Machine.run_cons, Option.bind_eq_some_iff] at hrun
    obtain ⟨⟨v, r₁⟩, hstep, hrun⟩ := hrun
    obtain ⟨hbridge, rfl⟩ := Machine.recording_step_iff.mp hstep
    have hmoves := step_moves hbridge
    refine ih (hs.step hmoves) hrun ?_
    rcases hk with hbegins | hold
    · rw [List.filterMap_cons] at hbegins
      split at hbegins
      · exact Or.inl hbegins
      · rename_i x hx
        rcases List.mem_cons.mp hbegins with rfl | hlater
        · right
          left
          cases a with
          | call i c' =>
            have hkc : i = k ∧ c' = c := by cases c' <;> simp_all [BridgeStep.begins]
            obtain ⟨rfl, rfl⟩ := hkc
            cases hmoves with
            | call _ => simp
          | _ => cases hx
        · exact Or.inl hlater
    · exact Or.inr (begun_kept hmoves hold)

/-- Where a start and a stop meet the order, once both have returned the gate is closed, the session does not stream, and nothing of
    a policy is sent any more. -/
theorem stop_wins (hreach : bridgeMachine.Reach Machine.Free s) (hidle : ∀ k, (s.caller k).call = none)
    (hcalls : as.filterMap BridgeStep.begins = [(i, .start), (j, .stop)]) (hrun : racingBridge.run (s, {}) as = some (t, r))
    (hreturned : (t.caller i).call = none ∧ (t.caller j).call = none) (hrest : racingBridge.run (t, r) bs = some (u, r'))
    (hmeets : racingBridge.Meets Ordered (s, {}) as ∧ racingBridge.Meets Ordered (t, r) bs) :
    u.router.shared.core.gate = false ∧ u.psi.state ≠ .running ∧ (∀ g, u.psi.isCurrent g = false) ∧ u.sends = t.sends := by
  have hstart : Racing s {} := by
    refine ⟨fun k hk => ?_, fun h => ?_, fun h => ?_, fun h => ?_, fun h => ?_, fun h => ?_⟩
    · rw [hidle k] at hk
      cases hk
    all_goals cases h
  have hsound : Sound s := sound_reach hreach
  have hkept : Sound t ∧ Racing t r := by
    refine (Machine.path_of_run hrun hmeets.1).keeps (I := fun x => Sound x.1 ∧ Racing x.1 x.2) ⟨hsound, hstart⟩ ?_
    rintro ⟨b, r⟩ a ⟨b', r'⟩ - ⟨hb, hr⟩ hc hstep
    obtain ⟨hbridge, rfl⟩ := Machine.recording_step_iff.mp hstep
    exact ⟨hb.step (step_moves hbridge), hr.step hb hc (step_moves hbridge)⟩
  have hcomplete : r.complete = true := by
    have hi : (t.caller i).call = some .start ∨ .start ∈ r.returned := begun_run hsound hrun (Or.inl (by simp [hcalls]))
    have hj : (t.caller j).call = some .stop ∨ .stop ∈ r.returned := begun_run hsound hrun (Or.inl (by simp [hcalls]))
    simp only [hreturned.1, hreturned.2, reduceCtorEq, false_or] at hi hj
    simp [Race.complete, hi, hj]
  have hend : Sound u ∧ Racing u r' ∧ r'.complete = true ∧ u.sends = t.sends := by
    refine (Machine.path_of_run hrest hmeets.2).keeps
      (I := fun x => Sound x.1 ∧ Racing x.1 x.2 ∧ x.2.complete = true ∧ x.1.sends = t.sends) ⟨hkept.1, hkept.2, hcomplete, rfl⟩ ?_
    rintro ⟨b, r⟩ a ⟨b', r'⟩ - ⟨hb, hr, hcomplete, hsends⟩ hc hstep
    obtain ⟨hbridge, rfl⟩ := Machine.recording_step_iff.mp hstep
    have hmoves := step_moves hbridge
    exact ⟨hb.step hmoves, hr.step hb hc hmoves, complete_recordRace hcomplete, (hr.sends_eq hb hmoves hcomplete).trans hsends⟩
  obtain ⟨-, hracing, hcomplete', hsends⟩ := hend
  have hstop : .stop ∈ r'.returned := by simpa using (Bool.and_eq_true_iff.mp hcomplete').2
  obtain ⟨-, hwithdrawn, hfinished⟩ := hracing.returned hstop
  refine ⟨hracing.gate_of_complete hcomplete', hracing.state hfinished, fun g => ?_, hsends⟩
  simp [Session.isCurrent, hracing.event hwithdrawn]

/-- A stop in the middle of a start that waits for the session. -/
def stopInTime : List BridgeStep := starting 1 ++ opening 1 ++ stopped 2 ++ started 1

/-- The streaming thread of that start gives up. -/
def givesUp : List BridgeStep := [.session 3 (.run 1), .session 3 (.info System.served)] ++ inSession 3 3

theorem stop_wins_in_time : ∃ t r u r', racingBridge.run (twoModels, {}) stopInTime = some (t, r) ∧
    racingBridge.run (t, r) givesUp = some (u, r') ∧ u.router.shared.core.gate = false ∧ u.psi.state ≠ .running ∧
    (∀ g, u.psi.isCurrent g = false) ∧ u.sends = t.sends := by
  have hfinal : (racingBridge.run (twoModels, {}) stopInTime).map (fun x =>
      ((x.1.caller 1).call, (x.1.caller 2).call, (racingBridge.run x givesUp).isSome, decide (racingBridge.Meets Ordered x givesUp))) =
      some (none, none, true, true) := by decide +kernel
  obtain ⟨⟨t, r⟩, hrun, hend⟩ := Option.map_eq_some_iff.mp hfinal
  simp only [Prod.mk.injEq, decide_eq_true_eq] at hend
  obtain ⟨hi, hj, hrest, hmeets⟩ := hend
  obtain ⟨⟨u, r'⟩, hrest⟩ := Option.isSome_iff_exists.mp hrest
  exact ⟨t, r, u, r', hrun, hrest, stop_wins (.init twoModels_init) (fun _ => rfl) (i := 1) (j := 2) (by decide) hrun ⟨hi, hj⟩ hrest
    ⟨by decide +kernel, hmeets⟩⟩

/-- A stop while a start waits for SONIC, which then opens the gate and streams. -/
def stopTooEarly : List BridgeStep := starting 1 ++ stopped 2 ++ opening 1 ++ announcing 3 1 System.served ++ started 1

/-- The order of the calls' first steps does not decide it. -/
example : ¬∀ s t u as bs i j, bridgeMachine.Reach Machine.Free s → (∀ k, (s.caller k).call = none) →
    as.filterMap BridgeStep.begins = [(i, .start), (j, .stop)] → bridgeMachine.run s as = some t →
    (t.caller i).call = none ∧ (t.caller j).call = none → bs.filterMap BridgeStep.begins = [] → bridgeMachine.run t bs = some u →
    u.router.shared.core.gate = false ∧ u.psi.state ≠ .running ∧ (∀ g, u.psi.isCurrent g = false) ∧ u.sends = t.sends := by
  intro h
  have hfinal : (bridgeMachine.run twoModels stopTooEarly).map (fun t =>
      ((t.caller 1).call, (t.caller 2).call, t.router.shared.core.gate)) = some (none, none, true) := by decide +kernel
  obtain ⟨t, hrun, hend⟩ := Option.map_eq_some_iff.mp hfinal
  simp only [Prod.mk.injEq] at hend
  obtain ⟨hi, hj, hgate⟩ := hend
  have hclosed := (h twoModels t t stopTooEarly [] 1 2 (.init twoModels_init) (fun _ => rfl) (by decide) hrun ⟨hi, hj⟩ rfl rfl).1
  rw [hgate] at hclosed
  cases hclosed

end Bridge
end HumanoidLab
