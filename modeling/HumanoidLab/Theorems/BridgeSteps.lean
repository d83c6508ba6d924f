import HumanoidLab.Bridge.Interleaving
import HumanoidLab.Theorems.RouterSteps
import HumanoidLab.Theorems.SessionSteps

/-! What a step of the bridge does. A thread moves nothing of another thread, and the fields of the session and of the router change
    only in their own steps. -/

namespace HumanoidLab
open Concurrency

/-! ### The calls on the session -/

def Point.request : Point → Option Request
  | .idle | .loop _ _ => none
  | .done r _ => some r
  | .startReady _ | .startStop _ | .startGate _ | .startResume _ | .startSpawn _ | .startWait _ => some .start
  | .stopGate r | .stopHalt r | .stopEvent r | .stopJoin r => some r
  | .resetRequest | .resetInvalidate _ => some .reset
  | .markGate m | .markHalt m | .markStop m | .markReady m => some (.markError m)
  | .previewMonitor => some .previewFrame
  | .fetchInfo => some .refreshInfo

def Section.request : Section → Option Request
  | .loop _ _ => none
  | .startCheck | .startThread _ => some .start
  | .stopFinish r | .status r => some r
  | .stopStatus | .resetClear _ => some .reset
  | .markError m => some (.markError m)
  | .adoptPolicy info => some (.adoptPolicy info)
  | .readInfo => some .info
  | .readPreview => some .previewFrame
  | .setInfo _ => some .refreshInfo

/-- The call on the session that a thread is in. -/
def request : Place Point Section → Option Request
  | .at p => p.request
  | .want c | .inside c => c.request

@[simp] theorem request_entry (r : Request) : request r.entry.place = some r := by cases r <;> rfl

theorem request_loopPoint {g : Nat} {p : LoopPoint} {c : Choice} {w w' : World} {n : Next Point Section}
    (h : loopPoint g p c w = some (n, w')) : request n.place = none := by
  revert h
  fun_cases loopPoint g p c w <;> intro h <;> simp_all <;> simp [← h.1, Next.place, request, Point.request, Section.request]

theorem request_loopBody (g : Nat) (c : LoopSection) (s : Session) : request (loopBody g c s).1.place = none := by
  fun_cases loopBody g c s
  case case2 k => cases k <;> simp only [Check.next] <;> split <;> rfl
  all_goals rfl

theorem request_body (i : Nat) (c : Section) (w : World) : request (body i c w).1.place = c.request := by
  cases c with
  | startCheck =>
    simp only [body]
    split
    · rfl
    · split <;> rfl
  | stopFinish r =>
    by_cases hr : r = .reset
    · subst hr
      rfl
    · simp [body, Exit.place, Next.place, request, Section.request, hr]
  | readPreview =>
    simp only [body]
    split <;> rfl
  | loop g c => exact request_loopBody g c w.session
  | _ => rfl

/-- A thread stays in its call until that is done. -/
theorem request_step {i : Nat} {pl : Place Point Section} {c : Choice} {s : Guarded World} {r : Place Point Section × Guarded World}
    (h : sessionProgram.threads i pl c s = some r) (hidle : pl = .at .idle → ∃ g, c = .run g)
    (hdone : ∀ q res, pl ≠ .at (.done q res)) : request r.1 = request pl := by
  rcases Locking.threads_cases h with ⟨p, n, d, rfl, hp, rfl⟩ | ⟨k, rfl, -, rfl⟩ | ⟨k, e, d, rfl, hb, rfl⟩
  · have hp : point i p c s.data = some (n, d) := hp
    cases p with
    | loop g p =>
      have hp : loopPoint g p c s.data = some (n, d) := by cases c <;> exact hp
      exact request_loopPoint hp
    | idle =>
      obtain ⟨g, rfl⟩ := hidle rfl
      simp only [point] at hp
      split at hp <;> cases hp
      rfl
    | done q res => exact absurd rfl (hdone q res)
    | _ =>
      cases c <;> simp only [point, reduceCtorEq] at hp
      all_goals
        obtain ⟨rfl, -⟩ := Prod.mk.inj (Option.some.inj hp)
        rfl
  · rfl
  · have := request_body i k s.data
    rw [show body i k s.data = (e, d) from hb] at this
    exact this

/-- What a call of the session has: the status, read where it ends, or something else, which no `stop` has and `start` only where it
    is refused. -/
theorem done_result {i : Nat} {c : Choice} {w : Guarded World} {pl : Place Point Section} {x : Place Point Section × Guarded World}
    {q : Request} {res : Result} (h : sessionProgram.threads i pl c w = some x) (hx : x.1 = .at (.done q res)) :
    (pl = .inside (.status q) ∧ res = .status w.data.session.status) ∨
    (∀ s, res ≠ .status s) ∧ q ≠ .stop ∧ (q = .start → pl = .inside .startCheck) := by
  rcases Locking.threads_cases h with ⟨p, n, d, rfl, hp, rfl⟩ | ⟨k, rfl, -, rfl⟩ | ⟨k, e, d, rfl, hb, rfl⟩
  · have hp : point i p c w.data = some (n, d) := hp
    cases p with
    | loop g p =>
      have hp : loopPoint g p c w.data = some (n, d) := by cases c <;> exact hp
      have hrequest := request_loopPoint hp
      rw [show n.place = _ from hx] at hrequest
      cases hrequest
    | idle =>
      cases c with
      | call q' =>
        obtain ⟨rfl, -⟩ := Prod.mk.inj (Option.some.inj hp)
        cases q' <;> cases hx
      | run g =>
        simp only [point] at hp
        split at hp <;> cases hp
        cases hx
      | _ => cases hp
    | previewMonitor | fetchInfo =>
      cases c <;> simp only [point, reduceCtorEq] at hp
      all_goals
        obtain ⟨rfl, -⟩ := Prod.mk.inj (Option.some.inj hp)
        cases hx
      all_goals exact Or.inr ⟨by simp, by simp, by simp⟩
    | _ =>
      cases c <;> simp only [point, reduceCtorEq] at hp
      all_goals
        obtain ⟨rfl, -⟩ := Prod.mk.inj (Option.some.inj hp)
        cases hx
  · cases hx
  · have hb : body i k w.data = (e, d) := hb
    cases k with
    | status q' =>
      obtain ⟨rfl, -⟩ := Prod.mk.inj hb
      cases hx
      exact Or.inl ⟨rfl, rfl⟩
    | loop g k =>
      have hrequest := request_body i (.loop g k) w.data
      rw [hb] at hrequest
      rw [show e.place = _ from hx] at hrequest
      cases hrequest
    | startCheck =>
      simp only [body] at hb
      split at hb
      · cases hb
        cases hx
      · split at hb <;> cases hb <;> cases hx
        exact Or.inr ⟨by simp, by simp, fun _ => rfl⟩
    | stopFinish q' =>
      simp only [body] at hb
      split at hb <;> cases hb <;> cases hx
    | readPreview =>
      simp only [body] at hb
      split at hb <;> cases hb <;> cases hx
      exact Or.inr ⟨by simp, by simp, by simp⟩
    | adoptPolicy info | readInfo | setInfo info =>
      cases hb
      cases hx
      exact Or.inr ⟨by simp, by simp, by simp⟩
    | _ =>
      cases hb
      cases hx

/-- A thread in a stop of the session has not set the stop event. -/
def beforeEvent : Place Point Section → Bool
  | .at .idle | .at (.stopGate _) | .at (.stopHalt _) | .at (.stopEvent _) => true
  | _ => false

/-- A thread in a stop of the session has not come through its last block. -/
def beforeFinish : Place Point Section → Bool
  | .at .idle | .at (.stopGate _) | .at (.stopHalt _) | .at (.stopEvent _) | .at (.stopJoin _) => true
  | .want (.stopFinish _) | .inside (.stopFinish _) => true
  | _ => false

/-- A stop of the session comes to set the stop event, and to its last block. -/
theorem before_step {i : Nat} {c : Choice} {pl : Place Point Section} {w : Guarded World} {x : Place Point Section × Guarded World}
    (h : sessionProgram.threads i pl c w = some x) (hpl : pl ≠ .at .idle) :
    (beforeEvent pl = true → beforeEvent x.1 = true ∨ ∃ q, pl = .at (.stopEvent q)) ∧
    (beforeFinish pl = true → beforeFinish x.1 = true ∨ ∃ q, pl = .inside (.stopFinish q)) := by
  rcases Locking.threads_cases h with ⟨p, n, d, rfl, hp, rfl⟩ | ⟨k, rfl, -, rfl⟩ | ⟨k, e, d, rfl, hb, rfl⟩
  · have hp : point i p c w.data = some (n, d) := hp
    cases p with
    | stopGate q | stopHalt q | stopEvent q | stopJoin q =>
      cases c <;> simp only [point, reduceCtorEq] at hp
      obtain ⟨rfl, -⟩ := Prod.mk.inj (Option.some.inj hp)
      simp [beforeEvent, beforeFinish, Next.place]
    | idle => exact absurd rfl hpl
    | _ => simp [beforeEvent, beforeFinish]
  · cases k <;> simp [beforeEvent, beforeFinish]
  · cases k <;> simp [beforeEvent, beforeFinish]

/-- The call that the statements of a `stop` serve. -/
def stopRequest : Place Point Section → Option Request
  | .at (.stopGate r) | .at (.stopHalt r) | .at (.stopEvent r) | .at (.stopJoin r) => some r
  | .want (.stopFinish r) | .inside (.stopFinish r) => some r
  | _ => none

theorem beforeFinish_iff {pl : Place Point Section} : beforeFinish pl = true ↔ pl = .at .idle ∨ (stopRequest pl).isSome = true := by
  unfold beforeFinish stopRequest
  split <;> simp_all

theorem request_of_stopRequest {pl : Place Point Section} {r : Request} (h : stopRequest pl = some r) : request pl = some r := by
  unfold stopRequest at h
  split at h <;> first | exact h | cases h

/-- They serve a `stop` or a `reset`. -/
theorem stopRequest_step {i : Nat} {c : Choice} {pl : Place Point Section} {w : Guarded World} {x : Place Point Section × Guarded World}
    {r : Request} (h : sessionProgram.threads i pl c w = some x) (hr : stopRequest x.1 = some r) :
    stopRequest pl = some r ∨ pl = .at .idle ∧ (r = .stop ∨ r = .reset) := by
  have hrequest := request_of_stopRequest hr
  rcases Locking.threads_cases h with ⟨p, n, d, rfl, hp, rfl⟩ | ⟨k, rfl, -, rfl⟩ | ⟨k, e, d, rfl, hb, rfl⟩
  · have hp : point i p c w.data = some (n, d) := hp
    cases p with
    | loop g p =>
      have hp : loopPoint g p c w.data = some (n, d) := by cases c <;> exact hp
      have hnone := request_loopPoint hp
      rw [show request n.place = some r from hrequest] at hnone
      cases hnone
    | idle =>
      cases c with
      | call q =>
        obtain ⟨rfl, -⟩ := Prod.mk.inj (Option.some.inj hp)
        have hq : q = r := by simpa using hrequest
        subst hq
        cases q with
        | stop => exact Or.inr ⟨rfl, Or.inl rfl⟩
        | reset => exact Or.inr ⟨rfl, Or.inr rfl⟩
        | _ => cases hr
      | run g =>
        simp only [point] at hp
        split at hp <;> cases hp
        cases hr
      | _ => cases hp
    | stopGate q | stopHalt q | stopEvent q | stopJoin q =>
      cases c <;> simp only [point, reduceCtorEq] at hp
      obtain ⟨rfl, -⟩ := Prod.mk.inj (Option.some.inj hp)
      exact Or.inl hr
    | _ =>
      cases c <;> simp only [point, reduceCtorEq] at hp
      all_goals
        obtain ⟨rfl, -⟩ := Prod.mk.inj (Option.some.inj hp)
        cases hr
  · cases k with
    | stopFinish q => exact Or.inl hr
    | _ => cases hr
  · have hb : body i k w.data = (e, d) := hb
    cases k with
    | loop g k =>
      have hnone := request_body i (.loop g k) w.data
      rw [hb] at hnone
      rw [show request e.place = some r from hrequest] at hnone
      cases hnone
    | startCheck =>
      simp only [body] at hb
      split at hb
      · cases hb
        cases hr
      · split at hb <;> cases hb <;> cases hr
    | stopFinish q =>
      simp only [body] at hb
      split at hb <;> cases hb <;> cases hr
    | readPreview =>
      simp only [body] at hb
      split at hb <;> cases hb <;> cases hr
    | _ =>
      cases hb
      cases hr

/-! ### The calls on the router -/

/-- The call on the router that a thread is in. -/
def RouterPlace.call {κ : Type} : RouterPlace κ → Option (RouterCall κ)
  | .lock _ q | .drain _ q _ | .done _ q _ => some q
  | .put _ f e | .drop _ f e | .putAgain _ f e => some (.submit f e.payload)
  | .controlPut _ k | .controlDrop _ k | .controlAgain _ k => some (.sendControl k)
  | .closeStop _ | .closeJoin _ => some .close
  | _ => none

/-- A call of the router that returns nothing. -/
def RouterCall.mute {κ : Type} : RouterCall κ → Bool
  | .select _ | .halt => true
  | _ => false

theorem routerLock_call {κ : Type} (n : Nat) (q : RouterCall κ) (w : Router κ) : (routerLock n q w).1.call = some q := by
  cases q <;> simp only [routerLock] <;> (try split) <;> rfl

theorem forwardNext_call {κ : Type} (f : Option Feed) : (forwardNext f : RouterPlace κ).call = none := by cases f <;> rfl

/-- A thread stays in its call of the router until that is done. -/
theorem routerStep_call {κ : Type} {pl : RouterPlace κ} {c : RouterChoice κ} {w : Router κ} {r : RouterPlace κ × Router κ}
    (h : routerStep pl c w = some r) (hidle : pl ≠ .idle) (hdone : ∀ n q res, pl ≠ .done n q res) : r.1.call = pl.call := by
  cases pl with
  | lock n q =>
    cases c <;> simp only [routerStep, reduceCtorEq] at h
    obtain rfl := Option.some.inj h
    exact routerLock_call n q w
  | take f =>
    cases c <;> simp only [routerStep, reduceCtorEq] at h
    split at h <;> cases h
    · exact forwardNext_call _
    · rfl
  | drain n q f =>
    cases c <;> simp only [routerStep, reduceCtorEq] at h
    split at h <;> cases h
    · cases f <;> rfl
    · rfl
  | serve | acceptGroot e | check f e =>
    cases c <;> simp only [routerStep, reduceCtorEq] at h
    cases h
    dsimp only
    split <;> rfl
  | idle => exact absurd rfl hidle
  | done n q res => exact absurd rfl (hdone n q res)
  | _ =>
    cases c <;> simp only [routerStep, reduceCtorEq] at h
    all_goals first
      | (cases h; rfl)
      | (split at h <;> cases h <;> rfl)

/-- What a call of the router that returns nothing has. -/
theorem routerStep_mute {κ : Type} {pl : RouterPlace κ} {c : RouterChoice κ} {w : Router κ} {r : RouterPlace κ × Router κ}
    {n : Nat} {q : RouterCall κ} {res : RouterResult} (h : routerStep pl c w = some r) (hr : r.1 = .done n q res)
    (hq : q.mute = true) : res = .none := by
  cases pl with
  | lock n q' =>
    cases c <;> simp only [routerStep, reduceCtorEq] at h
    obtain rfl := Option.some.inj h
    cases q' <;> simp only [routerLock] at hr <;> (try split at hr) <;> cases hr <;> cases hq
  | take f =>
    cases c <;> simp only [routerStep, reduceCtorEq] at h
    split at h <;> cases h
    · cases f <;> cases hr
    · cases hr
  | drain n q f =>
    cases c <;> simp only [routerStep, reduceCtorEq] at h
    split at h <;> cases h
    · cases f <;> cases hr
      rfl
    · cases hr
  | serve | acceptGroot e | check f e =>
    cases c <;> simp only [routerStep, reduceCtorEq] at h
    cases h
    dsimp only at hr
    split at hr <;> cases hr
  | _ =>
    cases c <;> simp only [routerStep, reduceCtorEq] at h
    all_goals first
      | (cases h; cases hr; done)
      | (cases h; cases hr; cases hq)
      | (split at h <;> cases h <;> cases hr <;> cases hq)

/-! ### The steps of the bridge -/

/-- The thread that takes a step. -/
def BridgeStep.actor : BridgeStep → Nat
  | .session i _ | .router i _ | .publish i | .call i _ | .go i _ => i

theorem session_call {i : Nat} {q : Request} {w : Guarded World} {r : Place Point Section × Guarded World}
    (h : sessionProgram.threads i (.at .idle) (.call q) w = some r) : r.1 = q.entry.place ∧ r.2.data.session = w.data.session := by
  obtain rfl := Option.some.inj h
  exact ⟨rfl, rfl⟩

theorem session_return {i : Nat} {q : Request} {res : Result} {w : Guarded World} {r : Place Point Section × Guarded World}
    (h : sessionProgram.threads i (.at (.done q res)) .go w = some r) :
    r.1 = .at .idle ∧ r.2.data.session = w.data.session := by
  obtain rfl := Option.some.inj h
  exact ⟨rfl, rfl⟩

namespace Bridge

variable {b b' : Bridge} {i j : Nat} {a : BridgeStep}

/-- The statement that a step takes up. -/
def taken (b : Bridge) : BridgeStep → Option Statement
  | .go i _ => (b.caller i).todo.head?
  | _ => none

/-- The block of the session that a step goes through. -/
def block (b : Bridge) : BridgeStep → Option Section
  | .session i _ =>
    match b.session.threads i with
    | .inside k => some k
    | _ => none
  | _ => none

theorem block_eq_some {k : Section} (h : b.block a = some k) : ∃ i c, a = .session i c ∧ b.session.threads i = .inside k := by
  unfold block at h
  split at h
  · split at h
    · cases h
      exact ⟨_, _, rfl, ‹_›⟩
    · cases h
  · cases h

theorem block_session {c : Choice} {k : Section} (h : b.session.threads i = .inside k) : b.block (.session i c) = some k := by
  simp [block, h]

theorem taken_go {s : Statement} {rest : List Statement} {m : Met} (h : (b.caller i).todo = s :: rest) :
    b.taken (.go i m) = some s := by simp [taken, h]

theorem taken_eq_some {s : Statement} (h : b.taken a = some s) : ∃ i m rest, a = .go i m ∧ (b.caller i).todo = s :: rest := by
  unfold taken at h
  split at h
  · obtain ⟨rest, hrest⟩ := List.head?_eq_some_iff.mp h
    exact ⟨_, _, rest, rfl, hrest⟩
  · cases h

/-- What a step does, by who takes it. -/
inductive Moves (b : Bridge) : BridgeStep → Bridge → Prop
  | session {i c r} (admits : b.admitsSession i c = true)
      (act : sessionProgram.threads i (b.session.threads i) c b.session.shared = some r) :
      Moves b (.session i c) { b with session := b.session.set i r }
  | router {i c r} (admits : b.admitsRouter i c = true) (act : routerStep (b.router.threads i) c b.router.shared = some r) :
      Moves b (.router i c) { b with router := b.router.set i r }
  | refused {i g n} (at_ : b.session.threads i = .at (.loop g (.publish n))) :
      Moves b (.publish i) { b with session := b.session.set i (.at (.loop g .stream), b.session.shared) }
  | submits {i g n r} (at_ : b.session.threads i = .at (.loop g (.publish n))) (idle : b.router.threads i = .idle)
      (act : routerStep .idle (.call (.submit .psi (.action n))) b.router.shared = some r) :
      Moves b (.publish i) { b with router := b.router.set i r }
  | published {i g n k q res pl r} (at_ : b.session.threads i = .at (.loop g (.publish n)))
      (done : b.router.threads i = .done k q res) (act : routerStep (.done k q res) .go b.router.shared = some r)
      (goes : pl = .want (.loop g (.current (.record n))) ∨ pl = .at (.loop g .stream) ∨
        ∃ m, pl = .want (.loop g (.disconnect m))) :
      Moves b (.publish i) { b with router := b.router.set i r, session := b.session.set i (pl, b.session.shared) }
  | call {i c} (free : b.free i = true) : Moves b (.call i c) (b.setCaller i { call := some c, todo := c.code })
  | returns {i c} (busy : (b.caller i).call = some c) (todo : (b.caller i).todo = []) : Moves b (.go i .next) (b.setCaller i {})
  | callsRouter {i c q rest r} (busy : (b.caller i).call = some c) (todo : (b.caller i).todo = .router q :: rest)
      (idle : b.router.threads i = .idle) (act : routerStep .idle (.call q) b.router.shared = some r) :
      Moves b (.go i .next) { b with router := b.router.set i r }
  | routerReturns {i c q rest k q' res r} (busy : (b.caller i).call = some c) (todo : (b.caller i).todo = .router q :: rest)
      (done : b.router.threads i = .done k q' res) (act : routerStep (.done k q' res) .go b.router.shared = some r) :
      Moves b (.go i .next) ({ b with router := b.router.set i r }.goto i (res.follow q rest))
  | callsSession {i c q rest r} (busy : (b.caller i).call = some c) (todo : (b.caller i).todo = .session q :: rest)
      (idle : b.session.threads i = .at .idle)
      (act : sessionProgram.threads i (.at .idle) (.call q) b.session.shared = some r) :
      Moves b (.go i .next) { b with session := b.session.set i r }
  | sessionReturns {i c q rest q' res r} (busy : (b.caller i).call = some c) (todo : (b.caller i).todo = .session q :: rest)
      (done : b.session.threads i = .at (.done q' res))
      (act : sessionProgram.threads i (.at (.done q' res)) .go b.session.shared = some r) :
      Moves b (.go i .next) ({ b with session := b.session.set i r }.goto i (res.follow q rest))
  | own {i c s rest m k todo'} (busy : (b.caller i).call = some c) (todo : (b.caller i).todo = s :: rest)
      (act : b.own s rest m = some (k, todo')) : Moves b (.go i m) ((b.setController k).goto i todo')

theorem step_moves (h : b.step a = some b') : Moves b a b' := by
  cases a with
  | session i c =>
    simp only [step] at h
    split at h
    · obtain ⟨r, hr, rfl⟩ := Option.map_eq_some_iff.mp h
      exact .session ‹_› hr
    · cases h
  | router i c =>
    simp only [step] at h
    split at h
    · obtain ⟨r, hr, rfl⟩ := Option.map_eq_some_iff.mp h
      exact .router ‹_› hr
    · cases h
  | publish i =>
    simp only [step, publish] at h
    split at h
    · rename_i g n hat
      split at h
      · rename_i hidle
        split at h
        · obtain ⟨r, hr, rfl⟩ := Option.map_eq_some_iff.mp h
          rw [hat] at hr
          simp only [Locking.threads, sessionProgram, point, loopPoint, Bool.and_false, Bool.false_eq_true, if_false, Option.map_some,
            Option.some.injEq] at hr
          subst hr
          exact .refused hat
        · obtain ⟨r, hr, rfl⟩ := Option.map_eq_some_iff.mp h
          rw [hidle] at hr
          exact .submits hat hidle hr
      · rename_i k q ok hdone
        simp only [routerAct, Option.map_map, Option.map_eq_some_iff] at h
        obtain ⟨r, hr, rfl⟩ := h
        rw [hdone] at hr
        refine .published hat hdone hr ?_
        cases ok
        · exact Or.inr (Or.inl rfl)
        · exact Or.inl rfl
      · rename_i k q text hdone
        simp only [routerAct, Option.map_map, Option.map_eq_some_iff] at h
        obtain ⟨r, hr, rfl⟩ := h
        rw [hdone] at hr
        exact .published hat hdone hr (Or.inr (Or.inr ⟨_, rfl⟩))
      · cases h
    · cases h
  | call i c =>
    simp only [step] at h
    split at h <;> cases h
    exact .call ‹_›
  | go i m =>
    simp only [step, go] at h
    split at h
    · cases h
    · split at h <;> cases h
      subst m
      exact .returns ‹_› ‹_›
    · rename_i c s rest hbusy htodo
      simp only [statement] at h
      split at h
      · rename_i q
        split at h
        · rename_i hm
          subst hm
          simp only [callRouter] at h
          split at h
          · rename_i hidle
            obtain ⟨r, hr, rfl⟩ := Option.map_eq_some_iff.mp h
            rw [hidle] at hr
            exact .callsRouter hbusy htodo hidle hr
          · rename_i k q' res hdone
            simp only [routerAct, Option.map_map, Option.map_eq_some_iff] at h
            obtain ⟨r, hr, rfl⟩ := h
            rw [hdone] at hr
            exact .routerReturns hbusy htodo hdone hr
          · cases h
        · cases h
      · rename_i q
        split at h
        · rename_i hm
          subst hm
          simp only [callSession] at h
          split at h
          · rename_i hidle
            obtain ⟨r, hr, rfl⟩ := Option.map_eq_some_iff.mp h
            rw [hidle] at hr
            exact .callsSession hbusy htodo hidle hr
          · rename_i q' res hdone
            simp only [sessionAct, Option.map_map, Option.map_eq_some_iff] at h
            obtain ⟨r, hr, rfl⟩ := h
            rw [hdone] at hr
            exact .sessionReturns hbusy htodo hdone hr
          · cases h
        · cases h
      · obtain ⟨⟨k, todo'⟩, hown, rfl⟩ := Option.map_eq_some_iff.mp h
        exact .own hbusy htodo hown

@[simp] theorem goto_session (todo : List Statement) : (b.goto i todo).session = b.session := rfl
@[simp] theorem goto_router (todo : List Statement) : (b.goto i todo).router = b.router := rfl
@[simp] theorem goto_controller (todo : List Statement) : (b.goto i todo).controller = b.controller := rfl

theorem goto_self (todo : List Statement) : (b.goto i todo).caller i = { b.caller i with todo } := by simp [goto]

theorem goto_other (todo : List Statement) (h : j ≠ i) : (b.goto i todo).caller j = b.caller j := by simp [goto, h]

/-- A step leaves the other threads where they are. -/
theorem Moves.frame (h : Moves b a b') (hj : j ≠ a.actor) :
    b'.caller j = b.caller j ∧ b'.session.threads j = b.session.threads j ∧ b'.router.threads j = b.router.threads j := by
  cases h with
  | session _ _ | refused _ => exact ⟨rfl, Pool.set_other _ _ hj, rfl⟩
  | router _ _ | submits _ _ _ => exact ⟨rfl, rfl, Pool.set_other _ _ hj⟩
  | published _ _ _ _ => exact ⟨rfl, Pool.set_other _ _ hj, Pool.set_other _ _ hj⟩
  | call _ | returns _ _ => exact ⟨Function.update_of_ne hj _ _, rfl, rfl⟩
  | callsRouter _ _ _ _ => exact ⟨rfl, rfl, Pool.set_other _ _ hj⟩
  | routerReturns _ _ _ _ => exact ⟨goto_other _ hj, rfl, Pool.set_other _ _ hj⟩
  | callsSession _ _ _ _ => exact ⟨rfl, Pool.set_other _ _ hj, rfl⟩
  | sessionReturns _ _ _ _ => exact ⟨goto_other _ hj, Pool.set_other _ _ hj, rfl⟩
  | own _ _ _ => exact ⟨goto_other _ hj, rfl, rfl⟩

/-- The fields of the session change in its own steps alone. -/
theorem Moves.psi (h : Moves b a b') (ha : ∀ i c, a ≠ .session i c) : b'.psi = b.psi := by
  cases h with
  | session _ _ => exact absurd rfl (ha _ _)
  | callsSession _ _ _ act => exact (session_call act).2
  | sessionReturns _ _ _ act => exact (session_return act).2
  | _ => rfl

/-- A step goes through the session on its own, or leaves its fields. -/
theorem Moves.inSession (h : Moves b a b') : b'.psi = b.psi ∧ (∀ i c, a ≠ .session i c) ∨
    ∃ i c r, a = .session i c ∧ sessionProgram.threads i (b.session.threads i) c b.session.shared = some r ∧
      b' = { b with session := b.session.set i r } := by
  by_cases ha : ∃ i c, a = .session i c
  · obtain ⟨i, c, rfl⟩ := ha
    cases h with
    | session _ act => exact Or.inr ⟨i, c, _, rfl, act, rfl⟩
  · have hother (i : Nat) (c : Choice) : a ≠ .session i c := fun h => ha ⟨i, c, h⟩
    exact Or.inl ⟨h.psi hother, hother⟩

theorem free_iff : b.free i = true ↔ (b.caller i).call = none ∧ b.session.threads i = .at .idle ∧ b.router.threads i = .idle := by
  simp [free, and_assoc]

/-- The router moves where the thread that takes the step moves in it, on its own or in the call and the return of its statement. -/
theorem Moves.inRouter (h : Moves b a b') : b'.router = b.router ∨
    ∃ c r, routerStep (b.router.threads a.actor) c b.router.shared = some r ∧ b'.router = b.router.set a.actor r ∧
      (a = .router a.actor c ∨ b.router.threads a.actor = .idle ∨ ∃ n q res, b.router.threads a.actor = .done n q res) := by
  cases h with
  | router _ act => exact Or.inr ⟨_, _, act, rfl, Or.inl rfl⟩
  | submits _ idle act | callsRouter _ _ idle act => exact Or.inr ⟨_, _, by rw [← idle] at act; exact act, rfl, Or.inr (Or.inl idle)⟩
  | published _ done act _ | routerReturns _ _ done act =>
    exact Or.inr ⟨_, _, by rw [← done] at act; exact act, rfl, Or.inr (Or.inr ⟨_, _, _, done⟩)⟩
  | _ => exact Or.inl rfl

/-- A thread stays in its call, or it begins or ends one. -/
theorem Moves.inCall (h : Moves b a b') (j : Nat) : (b'.caller j).call = (b.caller j).call ∨
    (∃ c, a = .call j c ∧ b.free j = true ∧ b' = b.setCaller j { call := some c, todo := c.code }) ∨
    ∃ c, a = .go j .next ∧ (b.caller j).call = some c ∧ (b.caller j).todo = [] ∧ b' = b.setCaller j {} := by
  by_cases hj : j = a.actor
  · subst hj
    cases h with
    | call free => exact Or.inr (Or.inl ⟨_, rfl, free, rfl⟩)
    | returns busy todo => exact Or.inr (Or.inr ⟨_, rfl, busy, todo, rfl⟩)
    | routerReturns _ _ _ _ | sessionReturns _ _ _ _ | own _ _ _ => exact Or.inl (by simp [BridgeStep.actor, goto_self])
    | _ => exact Or.inl rfl
  · exact Or.inl (by rw [(h.frame hj).1])

/-! ### Runs of a few threads -/

/-- The other threads are in no call. -/
def Among (L : List Nat) (b : Bridge) : Prop := ∀ j ∉ L, b.caller j = {} ∧ b.session.threads j = .at .idle

theorem Among.call_none {L : List Nat} (h : Among L b) (hL : ∀ j ∈ L, (b.caller j).call = none) (j : Nat) : (b.caller j).call = none := by
  by_cases hj : j ∈ L
  · exact hL j hj
  · simp [h j hj]

theorem Moves.among {L : List Nat} (h : Moves b a b') (ha : a.actor ∈ L) (hb : Among L b) : Among L b' := by
  intro j hj
  have hother : j ≠ a.actor := by
    rintro rfl
    exact hj ha
  obtain ⟨hcaller, hplace, -⟩ := h.frame hother
  rw [hcaller, hplace]
  exact hb j hj

theorem among_run {L : List Nat} {s t : Bridge} {as : List BridgeStep} (hactors : ∀ a ∈ as, a.actor ∈ L) (hs : Among L s)
    (hrun : bridgeMachine.run s as = some t) : Among L t := by
  induction as generalizing s with
  | nil =>
    obtain rfl : s = t := by simpa using hrun
    exact hs
  | cons a as ih =>
    rw [Machine.run_cons, Option.bind_eq_some_iff] at hrun
    obtain ⟨u, hu, hrun⟩ := hrun
    exact ih (fun b hb => hactors b (List.mem_cons_of_mem _ hb)) ((step_moves hu).among (hactors a List.mem_cons_self) hs) hrun

/-- A guard on all threads is met where it is met on those that take the steps. -/
theorem meets_among {L : List Nat} {C D : Bridge → BridgeStep → Prop} (hCD : ∀ b a, Among L b → D b a → C b a) {s : Bridge}
    {as : List BridgeStep} (hactors : ∀ a ∈ as, a.actor ∈ L) (hs : Among L s) (hmeets : bridgeMachine.Meets D s as) :
    bridgeMachine.Meets C s as := by
  induction as generalizing s with
  | nil => trivial
  | cons a as ih =>
    refine ⟨hCD s a hs hmeets.1, ?_⟩
    have hrest := hmeets.2
    cases hstep : bridgeMachine.step s a with
    | none => trivial
    | some t =>
      rw [hstep] at hrest
      exact ih (fun b hb => hactors b (List.mem_cons_of_mem _ hb)) ((step_moves hstep).among (hactors a List.mem_cons_self) hs) hrest

end Bridge
end HumanoidLab
