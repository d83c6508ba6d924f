import HumanoidLab.Lib.Recording
import HumanoidLab.Lib.Relay
import HumanoidLab.Theorems.RouterSteps

/-! The control commands of the router. Beside a run it is recorded which call put its command into the queue and which commands were
    sent: the queue is a relay, and its overflow path goes wrong where the router thread or another caller gets between two of its steps. -/

namespace HumanoidLab
open Concurrency

variable {κ : Type}

/-- What a step of a thread adds to the record: a command with the number of its call is submitted when it is put into the queue, and the
    router thread takes it in hand and sends it. -/
def recordControl (pl : RouterPlace κ) (c : RouterChoice κ) (w : Router κ) (r : Relay (Nat × κ)) : Relay (Nat × κ) :=
  match pl, c with
  | .controlPut n k, .go | .controlAgain n k, .go => if w.control.length < controlSize then r.submit (n, k) else r
  | .controlDrop _ _, .go => { r with queue := r.queue.tail }
  | .control, .go =>
    match r.queue with
    | [] => r
    | x :: xs => { r with queue := xs, hand := [x] }
  | .sendControl _, .go => { r with hand := [], sent := r.sent ++ r.hand }
  | _, _ => r

/-- The router with the record of its control commands. -/
def recordedRouter (κ : Type) : Machine (Pool (Router κ) (RouterPlace κ) × Relay (Nat × κ)) (Nat × RouterChoice κ) :=
  (routerMachine κ).recording (fun p a r => recordControl (p.threads a.1) a.2 p.shared r) {}

/-- The law of the control commands. -/
structure ControlSurvives (p : Pool (Router κ) (RouterPlace κ)) (r : Relay (Nat × κ)) : Prop where
  /-- `send_control` does not raise, and its command is submitted when it returns. -/
  returns : ∀ i n k e, p.threads i ≠ .done n (.sendControl k) (.raised e)
  submitted : ∀ i n k, p.threads i = .done n (.sendControl k) .none → (n, k) ∈ r.accepted
  /-- What was sent was submitted, in this order, and a call submits its command once. -/
  order : r.sent.Sublist r.accepted
  once : (r.accepted.map Prod.fst).Nodup
  /-- The command that was submitted last is in the queue, or the router thread is about to send it, or it is sent. -/
  queue : r.queue.map Prod.snd = p.shared.control
  newest : ∀ x ∈ r.accepted.getLast?, x ∈ r.queue ∨ x ∈ r.hand ∨ x ∈ r.sent

/-- A step of the overflow path that nothing has disturbed: the get leaves a command in the queue, and the put after it finds room. -/
def controlUndisturbed (w : Router κ) : RouterPlace κ → Bool
  | .controlDrop _ _ => 2 ≤ w.control.length
  | .controlAgain _ _ => w.control.length < controlSize
  | _ => true

/-- The guard of the runs whose overflows are not disturbed. -/
def ControlUndisturbed (p : Pool (Router κ) (RouterPlace κ)) (a : Nat × RouterChoice κ) : Prop :=
  controlUndisturbed p.shared (p.threads a.1) = true

instance (p : Pool (Router κ) (RouterPlace κ)) (a : Nat × RouterChoice κ) : Decidable (ControlUndisturbed p a) :=
  inferInstanceAs (Decidable (_ = true))

/-! ### The steps -/

/-- The command that the router thread has in hand. -/
def RouterPlace.controlHand : RouterPlace κ → List κ
  | .sendControl k => [k]
  | _ => []

/-- The call of `send_control` that a thread is in, before its command is in the queue. -/
def RouterPlace.submitting : RouterPlace κ → Option (Nat × κ)
  | .lock n (.sendControl k) | .controlPut n k | .controlDrop n k | .controlAgain n k => some (n, k)
  | _ => none

/-- What a step does to the control commands. -/
inductive ControlMoves (pl : RouterPlace κ) (w : Router κ) (r : Relay (Nat × κ)) (pl' : RouterPlace κ) (w' : Router κ)
    (r' : Relay (Nat × κ)) : Prop
  | aside (control : w'.control = w.control) (record : r' = r) (hand : pl'.controlHand = pl.controlHand)
      (submits : pl'.submitting = none ∨ pl'.submitting = pl.submitting ∨ ∃ k, pl = .idle ∧ pl'.submitting = some (w.log.length, k))
      (returns : ∀ n k res, pl' ≠ .done n (.sendControl k) res) (undisturbed : controlUndisturbed w pl = true)
  | puts (n : Nat) (k : κ) (room : w.control.length < controlSize) (at_ : pl = .controlPut n k ∨ pl = .controlAgain n k)
      (goes : pl' = .done n (.sendControl k) .none) (control : w'.control = w.control ++ [k]) (record : r' = r.submit (n, k))
  | drops (n : Nat) (k : κ) (x : Nat × κ) (xs : List (Nat × κ)) (queue : r.queue = x :: xs) (at_ : pl = .controlDrop n k)
      (goes : pl' = .controlAgain n k) (control : w'.control = xs.map Prod.snd) (record : r' = { r with queue := xs })
  | drained (n : Nat) (k : κ) (queue : r.queue = []) (at_ : pl = .controlDrop n k)
      (goes : pl' = .done n (.sendControl k) (.raised "queue.Empty")) (control : w'.control = w.control) (record : r' = r)
  | refilled (n : Nat) (k : κ) (full : controlSize ≤ w.control.length) (at_ : pl = .controlAgain n k)
      (goes : pl' = .done n (.sendControl k) (.raised "queue.Full")) (control : w'.control = w.control) (record : r' = r)
  | takes (x : Nat × κ) (xs : List (Nat × κ)) (queue : r.queue = x :: xs) (at_ : pl = .control) (goes : pl' = .sendControl x.2)
      (control : w'.control = xs.map Prod.snd) (record : r' = { r with queue := xs, hand := [x] })
  | sends (k : κ) (at_ : pl = .sendControl k) (goes : pl' = .control) (control : w'.control = w.control)
      (record : r' = { r with hand := [], sent := r.sent ++ r.hand })

variable {pl pl' : RouterPlace κ} {c : RouterChoice κ} {w w' : Router κ} {r r' : Relay (Nat × κ)}

theorem routerLock_control {n : Nat} {call : RouterCall κ} (h : routerLock n call w = (pl', w')) :
    ControlMoves (.lock n call) w r pl' w' r := by
  cases call <;> simp only [routerLock] at h <;> (try split at h) <;> cases h <;>
    first
      | exact .aside rfl rfl rfl (Or.inl rfl) (by simp) rfl
      | exact .aside rfl rfl rfl (Or.inr (Or.inl rfl)) (by simp) rfl

theorem forwardNext_control (f : Option Feed) : (forwardNext f : RouterPlace κ).controlHand = [] ∧
    (forwardNext f : RouterPlace κ).submitting = none ∧ ∀ n k res, (forwardNext f : RouterPlace κ) ≠ .done n (.sendControl k) res := by
  cases f <;> exact ⟨rfl, rfl, by simp [forwardNext]⟩

theorem drainNext_control {n : Nat} {call : RouterCall κ} (h : call.handsOver = true) (f : Option Feed) :
    (f.elim (.done n call .none) (.drain n call) : RouterPlace κ).controlHand = [] ∧
    (f.elim (.done n call .none) (.drain n call) : RouterPlace κ).submitting = none ∧
    ∀ m k res, (f.elim (.done n call .none) (.drain n call) : RouterPlace κ) ≠ .done m (.sendControl k) res := by
  cases f with
  | none =>
    refine ⟨rfl, rfl, ?_⟩
    rintro m k res hdone
    cases hdone
    cases h
  | some f => exact ⟨rfl, rfl, by simp⟩

/-- Every step of a thread is one of these, where the record has the commands of the queue. -/
theorem control_moves (h : routerStep pl c w = some (pl', w')) (hqueue : r.queue.map Prod.snd = w.control)
    (hdrain : ∀ n call f, pl = .drain n call f → call.handsOver = true) :
    ControlMoves pl w r pl' w' (recordControl pl c w r) := by
  cases pl with
  | lock n call =>
    cases c <;> simp only [routerStep, reduceCtorEq] at h
    exact routerLock_control (Option.some.inj h)
  | controlPut n k =>
    cases c <;> simp only [routerStep, reduceCtorEq] at h
    simp only [recordControl]
    split at h <;> cases h
    · rw [if_pos ‹_›]
      exact .puts n k ‹_› (Or.inl rfl) rfl rfl rfl
    · rw [if_neg ‹_›]
      exact .aside rfl rfl rfl (Or.inr (Or.inl rfl)) (by simp) rfl
  | controlAgain n k =>
    cases c <;> simp only [routerStep, reduceCtorEq] at h
    simp only [recordControl]
    split at h <;> cases h
    · rw [if_pos ‹_›]
      exact .puts n k ‹_› (Or.inr rfl) rfl rfl rfl
    · rw [if_neg ‹_›]
      exact .refilled n k (Nat.le_of_not_lt ‹_›) rfl rfl rfl rfl
  | controlDrop n k =>
    cases c <;> simp only [routerStep, reduceCtorEq] at h
    simp only [recordControl]
    cases hr : r.queue with
    | nil =>
      rw [hr] at hqueue
      rw [← hqueue] at h
      cases h
      exact .drained n k hr rfl rfl rfl (by rw [List.tail_nil, ← hr])
    | cons x xs =>
      rw [hr, List.map_cons] at hqueue
      rw [← hqueue] at h
      cases h
      exact .drops n k x xs hr rfl rfl rfl rfl
  | control =>
    cases c <;> simp only [routerStep, reduceCtorEq] at h
    simp only [recordControl]
    cases hr : r.queue with
    | nil =>
      rw [hr] at hqueue
      rw [← hqueue] at h
      cases h
      exact .aside rfl rfl rfl (Or.inl rfl) (by simp) rfl
    | cons x xs =>
      rw [hr, List.map_cons] at hqueue
      rw [← hqueue] at h
      cases h
      exact .takes x xs hr rfl rfl rfl rfl
  | sendControl k =>
    cases c <;> simp only [routerStep, reduceCtorEq] at h
    cases h
    exact .sends k rfl rfl rfl rfl
  | take f =>
    cases c <;> simp only [routerStep, reduceCtorEq] at h
    split at h <;> cases h
    · obtain ⟨hhand, hsubmitting, hreturns⟩ := forwardNext_control (κ := κ) f.next
      exact .aside rfl rfl hhand (Or.inl hsubmitting) hreturns rfl
    · exact .aside rfl rfl rfl (Or.inl rfl) (by simp) rfl
  | drain n call f =>
    cases c <;> simp only [routerStep, reduceCtorEq] at h
    split at h <;> cases h
    · obtain ⟨hhand, hsubmitting, hreturns⟩ := drainNext_control (n := n) (hdrain n call f rfl) f.next
      exact .aside rfl rfl hhand (Or.inl hsubmitting) hreturns rfl
    · exact .aside rfl rfl rfl (Or.inl rfl) (by simp) rfl
  | idle =>
    cases c <;> simp only [routerStep, reduceCtorEq] at h
    case call call =>
      cases h
      cases call with
      | sendControl k => exact .aside rfl rfl rfl (Or.inr (Or.inr ⟨k, rfl, rfl⟩)) (by simp) rfl
      | _ => exact .aside rfl rfl rfl (Or.inl rfl) (by simp) rfl
    case publish =>
      cases h
      exact .aside rfl rfl rfl (Or.inl rfl) (by simp) rfl
  | _ =>
    cases c <;> simp only [routerStep, reduceCtorEq] at h
    all_goals first
      | (cases h; exact .aside rfl rfl rfl (Or.inl rfl) (by simp) rfl)
      | (split at h <;> cases h <;> exact .aside rfl rfl rfl (Or.inl rfl) (by simp) rfl)

/-! ### The callers -/

variable {p : Pool (Router κ) (RouterPlace κ)} {i : Nat}

/-- Who takes which steps, and the numbers of the calls. -/
structure Callers (p : Pool (Router κ) (RouterPlace κ)) : Prop where
  serving : ∀ i, (p.threads i).serving = (i == 0)
  handing : ∀ i n call, (p.threads i).handingOver = some (n, call) → call.handsOver = true
  numbers : ∀ i n, (p.threads i).number = some n → n < p.shared.log.length
  own : ∀ i j n, (p.threads i).number = some n → (p.threads j).number = some n → i = j

theorem Callers.router (hp : Callers p) (hi : (p.threads i).serving = true) : i = 0 := by
  simpa [hp.serving i] using hi

theorem RouterMoves.handing (h : RouterMoves pl w pl' w') :
    pl'.handingOver = none ∨ pl'.handingOver = pl.handingOver ∨ ∃ n call, pl'.handingOver = some (n, call) ∧ call.handsOver = true := by
  cases h with
  | quiet _ _ _ _ _ handing => exact handing.imp_right Or.inl
  | selects s _ _ _ =>
    cases s with
    | select n s _ goes _ => exact Or.inr (Or.inr ⟨n, .select s, by rw [goes]; rfl, rfl⟩)
    | halt n _ goes _ => exact Or.inr (Or.inr ⟨n, .halt, by rw [goes]; rfl, rfl⟩)
    | resume n _ goes _ _ => exact Or.inl (by rw [goes]; rfl)
    | close n _ goes _ _ => exact Or.inl (by rw [goes]; rfl)
  | drained n call f _ _ _ at_ goes _ => exact Or.inr (Or.inl (by rw [at_, goes]))
  | began _ _ goes _ | returned _ _ _ _ goes _ | published _ _ goes _ | received _ _ _ _ goes _ | acceptGroot _ _ _ goes _
  | refuseGroot _ _ goes _ | sentGroot _ _ goes _ | took _ _ _ _ _ goes _ | forward _ _ _ _ goes _ | discard _ _ _ _ goes _
  | sent _ _ _ goes _ | accepted _ _ _ _ _ goes _ | full _ _ _ _ _ goes _ | dropped _ _ _ _ goes _ | put _ _ _ _ _ goes _
  | lost _ _ _ _ _ goes _ => exact Or.inl (by rw [goes]; rfl)

/-- A number after a step is one from before it, or that of the call that the step begins. -/
theorem number_set (h : routerStep (p.threads i) c p.shared = some (pl', w')) {j n : Nat}
    (hn : ((p.set i (pl', w')).threads j).number = some n) :
    (p.threads j).number = some n ∨ (j = i ∧ n = p.shared.log.length ∧ n < w'.log.length) := by
  by_cases hj : j = i
  · subst hj
    rw [Pool.set_self] at hn
    rcases step_number h with hnone | hsame | ⟨-, hbegun, hlog⟩
    · rw [hnone] at hn
      cases hn
    · exact Or.inl (hsame ▸ hn)
    · obtain rfl : p.shared.log.length = n := Option.some.inj (hbegun.symm.trans hn)
      refine Or.inr ⟨rfl, rfl, ?_⟩
      rcases (router_moves h).log with hsame | ⟨ev, hev, -⟩
      · exact absurd hsame hlog
      · rw [hev]
        exact Nat.lt_succ_self _
  · rw [Pool.set_other p _ hj] at hn
    exact Or.inl hn

theorem Callers.step (hp : Callers p) (h : routerStep (p.threads i) c p.shared = some (pl', w')) : Callers (p.set i (pl', w')) := by
  refine ⟨?_, ?_, ?_, ?_⟩
  · intro j
    by_cases hj : j = i
    · subst hj
      rw [Pool.set_self]
      exact (step_serving h).trans (hp.serving j)
    · rw [Pool.set_other p _ hj]
      exact hp.serving j
  · intro j n call hcall
    by_cases hj : j = i
    · subst hj
      rw [Pool.set_self] at hcall
      rcases (router_moves h).handing with hnone | hsame | ⟨m, call', hnew, hover⟩
      · rw [hnone] at hcall
        cases hcall
      · exact hp.handing j n call (hsame ▸ hcall)
      · cases hnew.symm.trans hcall
        exact hover
    · rw [Pool.set_other p _ hj] at hcall
      exact hp.handing j n call hcall
  · intro j n hn
    rcases number_set h hn with hn | ⟨-, -, hlt⟩
    · exact Nat.lt_of_lt_of_le (hp.numbers j n hn) (router_moves h).length_log
    · exact hlt
  · intro j k n hj hk
    rcases number_set h hj with hold | ⟨hji, hnew, -⟩ <;> rcases number_set h hk with hold' | ⟨hki, hnew', -⟩
    · exact hp.own j k n hold hold'
    · exact absurd (hp.numbers j n hold) (by omega)
    · exact absurd (hp.numbers k n hold') (by omega)
    · exact hji.trans hki.symm

theorem callers_init : Callers (routerInit : Pool (Router κ) (RouterPlace κ)) := by
  have hplace : ∀ i, (routerInit : Pool (Router κ) (RouterPlace κ)).threads i = if i = 0 then .serve else .idle := fun _ => rfl
  have hnumber : ∀ i, ((routerInit : Pool (Router κ) (RouterPlace κ)).threads i).number = none := by
    intro i
    rw [hplace]
    split <;> rfl
  refine ⟨?_, ?_, ?_, ?_⟩
  · intro i
    rw [hplace]
    by_cases hi : i = 0
    · subst hi
      rfl
    · simp [hi, RouterPlace.serving]
  · intro i n call hcall
    rw [hplace] at hcall
    split at hcall <;> cases hcall
  · intro i n hn
    rw [hnumber] at hn
    cases hn
  · intro i j n hn
    rw [hnumber] at hn
    cases hn

/-! ### The record -/

/-- What the record says of a reachable state. -/
structure ControlRecorded (p : Pool (Router κ) (RouterPlace κ)) (r : Relay (Nat × κ)) : Prop where
  queue : r.queue.map Prod.snd = p.shared.control
  hand : r.hand.map Prod.snd = (p.threads 0).controlHand
  pending : r.pending = []
  order : r.flow.Sublist r.accepted
  begun : ∀ x ∈ r.accepted, x.1 < p.shared.log.length
  once : (r.accepted.map Prod.fst).Nodup
  fresh : ∀ i x, (p.threads i).submitting = some x → x.1 ∉ r.accepted.map Prod.fst
  submitted : ∀ i n k, p.threads i = .done n (.sendControl k) .none → (n, k) ∈ r.accepted

theorem controlRecorded_init : ControlRecorded (routerInit : Pool (Router κ) (RouterPlace κ)) {} := by
  refine ⟨rfl, rfl, rfl, List.Sublist.refl _, by simp, List.nodup_nil, fun _ _ _ => List.not_mem_nil, ?_⟩
  intro i n k hdone
  have hplace : (routerInit : Pool (Router κ) (RouterPlace κ)).threads i = if i = 0 then .serve else .idle := rfl
  rw [hplace] at hdone
  split at hdone <;> cases hdone

theorem RouterPlace.number_of_submitting {x : Nat × κ} (h : pl.submitting = some x) : pl.number = some x.1 := by
  obtain ⟨n, k⟩ := x
  cases pl with
  | lock m call => cases call <;> simp_all [submitting, number]
  | _ => simp_all [submitting, number]

theorem ControlMoves.control (h : ControlMoves pl w r pl' w' r') (hr : r.queue.map Prod.snd = w.control) :
    r'.queue.map Prod.snd = w'.control := by
  cases h with
  | aside control record _ _ _ _ => rw [record, control, hr]
  | puts n k _ _ _ control record => rw [record, control, ← hr, Relay.submit, List.map_append, List.map_singleton]
  | drops _ _ _ _ _ _ _ control record => rw [record, control]
  | drained _ _ _ _ _ control record | refilled _ _ _ _ _ control record => rw [record, control, hr]
  | takes _ _ _ _ _ control record => rw [record, control]
  | sends _ _ _ control record => rw [record, control, ← hr]

/-- The queue is a relay. -/
theorem ControlMoves.flow (h : ControlMoves pl w r pl' w' r') (hpending : r.pending = []) (hhand : pl = .control → r.hand = [])
    (horder : r.flow.Sublist r.accepted) : r'.pending = [] ∧ r'.flow.Sublist r'.accepted := by
  cases h with
  | aside _ record _ _ _ _ | drained _ _ _ _ _ _ record | refilled _ _ _ _ _ _ record =>
    rw [record]
    exact ⟨hpending, horder⟩
  | puts n k _ _ _ _ record =>
    rw [record]
    exact ⟨hpending, Relay.submit_sublist hpending horder⟩
  | drops _ _ x xs queue _ _ _ record =>
    rw [record]
    exact ⟨hpending, (Relay.Step.pop x xs queue).sublist horder⟩
  | takes x xs queue at_ _ _ record =>
    rw [record]
    exact ⟨hpending, (Relay.Step.take x xs queue (hhand at_)).sublist horder⟩
  | sends _ _ _ _ record =>
    rw [record]
    refine ⟨hpending, ?_⟩
    simpa only [Relay.flow, List.append_nil, List.append_assoc] using horder

/-- The hand of the record is that of the router thread. -/
theorem ControlMoves.hand (h : ControlMoves pl w r pl' w' r') :
    (r'.hand = r.hand ∧ pl'.controlHand = pl.controlHand) ∨ (pl.serving = true ∧ r'.hand.map Prod.snd = pl'.controlHand) := by
  cases h with
  | aside _ record hand _ _ _ => exact Or.inl ⟨by rw [record], hand⟩
  | puts _ _ _ at_ goes _ record =>
    refine Or.inl ⟨by rw [record]; rfl, ?_⟩
    rcases at_ with rfl | rfl <;> rw [goes] <;> rfl
  | drops _ _ _ _ _ at_ goes _ record => exact Or.inl ⟨by rw [record], by rw [at_, goes]; rfl⟩
  | drained _ _ _ at_ goes _ record | refilled _ _ _ at_ goes _ record => exact Or.inl ⟨by rw [record], by rw [at_, goes]; rfl⟩
  | takes _ _ _ at_ goes _ record => exact Or.inr ⟨by rw [at_]; rfl, by rw [record, goes]; rfl⟩
  | sends _ at_ goes _ record => exact Or.inr ⟨by rw [at_]; rfl, by rw [record, goes]; rfl⟩

/-- Only a put submits, and it submits the command of its call. -/
theorem ControlMoves.accepted (h : ControlMoves pl w r pl' w' r') :
    r'.accepted = r.accepted ∨ ∃ x, pl.submitting = some x ∧ pl'.submitting = none ∧ r'.accepted = r.accepted ++ [x] := by
  cases h with
  | aside _ record _ _ _ _ | drops _ _ _ _ _ _ _ _ record | drained _ _ _ _ _ _ record | refilled _ _ _ _ _ _ record
  | takes _ _ _ _ _ _ record | sends _ _ _ _ record => exact Or.inl (by rw [record])
  | puts n k _ at_ goes _ record =>
    refine Or.inr ⟨(n, k), ?_, by rw [goes]; rfl, by rw [record]; rfl⟩
    rcases at_ with rfl | rfl <;> rfl

/-- A call that has not submitted its command is one from before the step, or begins. -/
theorem ControlMoves.submitting (h : ControlMoves pl w r pl' w' r') {x : Nat × κ} (hx : pl'.submitting = some x) :
    pl.submitting = some x ∨ x.1 = w.log.length := by
  cases h with
  | aside _ _ _ submits _ _ =>
    rcases submits with hnone | hsame | ⟨k, -, hbegun⟩
    · rw [hnone] at hx
      cases hx
    · exact Or.inl (hsame ▸ hx)
    · cases hbegun.symm.trans hx
      exact Or.inr rfl
  | puts _ _ _ _ goes _ _ | drained _ _ _ _ goes _ _ | refilled _ _ _ _ goes _ _ | takes _ _ _ _ goes _ _ | sends _ _ goes _ _ =>
    rw [goes] at hx
    cases hx
  | drops _ _ _ _ _ at_ goes _ _ =>
    rw [goes] at hx
    rw [at_]
    exact Or.inl hx

/-- A call that returns has put its command. -/
theorem ControlMoves.returned (h : ControlMoves pl w r pl' w' r') {n : Nat} {k : κ} (hpl : pl' = .done n (.sendControl k) .none) :
    (n, k) ∈ r'.accepted := by
  cases h with
  | aside _ _ _ _ returns _ => exact absurd hpl (returns n k .none)
  | puts _ _ _ _ goes _ record =>
    cases goes.symm.trans hpl
    rw [record]
    exact List.mem_append_right _ (List.mem_singleton_self _)
  | drops _ _ _ _ _ _ goes _ _ | drained _ _ _ _ goes _ _ | refilled _ _ _ _ goes _ _ | takes _ _ _ _ goes _ _
  | sends _ _ goes _ _ => cases goes.symm.trans hpl

theorem ControlMoves.mem_accepted (h : ControlMoves pl w r pl' w' r') {x : Nat × κ} (hx : x ∈ r.accepted) : x ∈ r'.accepted := by
  rcases h.accepted with hsame | ⟨_, -, -, hnew⟩
  · rwa [hsame]
  · rw [hnew]
    exact List.mem_append_left _ hx

/-- The numbers of the calls that have submitted stay distinct, and no call that has not is among them. -/
theorem ControlRecorded.numbers (hp : Callers p) (hr : ControlRecorded p r) (h : routerStep (p.threads i) c p.shared = some (pl', w'))
    (hm : ControlMoves (p.threads i) p.shared r pl' w' r') :
    (∀ x ∈ r'.accepted, x.1 < w'.log.length) ∧ (r'.accepted.map Prod.fst).Nodup ∧
      ∀ j x, ((p.set i (pl', w')).threads j).submitting = some x → x.1 ∉ r'.accepted.map Prod.fst := by
  have hlog : p.shared.log.length ≤ w'.log.length := (router_moves h).length_log
  -- A call without its command in the queue is not among those of before the step.
  have hold : ∀ j x, ((p.set i (pl', w')).threads j).submitting = some x → x.1 ∉ r.accepted.map Prod.fst := by
    intro j x hx hmem
    by_cases hj : j = i
    · subst hj
      rw [Pool.set_self] at hx
      rcases hm.submitting hx with hbefore | hbegun
      · exact hr.fresh j x hbefore hmem
      · obtain ⟨y, hy, hyx⟩ := List.mem_map.mp hmem
        exact absurd (hr.begun y hy) (by omega)
    · rw [Pool.set_other p _ hj] at hx
      exact hr.fresh j x hx hmem
  rcases hm.accepted with hsame | ⟨x, hsubmitting, hnone, hnew⟩
  · rw [hsame]
    exact ⟨fun x hx => Nat.lt_of_lt_of_le (hr.begun x hx) hlog, hr.once, hold⟩
  · have hx := RouterPlace.number_of_submitting hsubmitting
    rw [hnew, List.map_append, List.map_singleton]
    refine ⟨?_, ?_, ?_⟩
    · intro y hy
      rcases List.mem_append.mp hy with hy | hy
      · exact Nat.lt_of_lt_of_le (hr.begun y hy) hlog
      · obtain rfl := List.mem_singleton.mp hy
        exact Nat.lt_of_lt_of_le (hp.numbers i y.1 hx) hlog
    · exact List.nodup_append.mpr ⟨hr.once, List.nodup_singleton _, fun m hm n hn hmn =>
        hr.fresh i x hsubmitting (List.mem_singleton.mp hn ▸ hmn ▸ hm)⟩
    · intro j y hy hmem
      rcases List.mem_append.mp hmem with hmem | hmem
      · exact hold j y hy hmem
      · -- Another call has another number.
        have hyx : y.1 = x.1 := List.mem_singleton.mp hmem
        by_cases hj : j = i
        · subst hj
          rw [Pool.set_self, hnone] at hy
          cases hy
        · rw [Pool.set_other p _ hj] at hy
          have hnumber := RouterPlace.number_of_submitting hy
          rw [hyx] at hnumber
          exact hj (hp.own j i x.1 hnumber hx)

/-- The router thread has nothing in hand when it takes a command. -/
theorem ControlRecorded.hand_eq_nil (hp : Callers p) (hr : ControlRecorded p r) (hi : p.threads i = .control) : r.hand = [] := by
  obtain rfl := hp.router (i := i) (by rw [hi]; rfl)
  have hnone := hr.hand
  rw [hi] at hnone
  exact List.map_eq_nil_iff.mp hnone

theorem ControlRecorded.step (hp : Callers p) (hr : ControlRecorded p r) (h : routerStep (p.threads i) c p.shared = some (pl', w'))
    (hm : ControlMoves (p.threads i) p.shared r pl' w' r') : ControlRecorded (p.set i (pl', w')) r' := by
  obtain ⟨hpending, horder⟩ := hm.flow hr.pending (hr.hand_eq_nil hp) hr.order
  obtain ⟨hbegun, honce, hfresh⟩ := hr.numbers hp h hm
  refine ⟨hm.control hr.queue, ?_, hpending, horder, hbegun, honce, hfresh, ?_⟩
  · by_cases hi : 0 = i
    · subst hi
      rw [Pool.set_self]
      rcases hm.hand with ⟨hsame, hplace⟩ | ⟨-, hnew⟩
      · rw [hsame, hplace, hr.hand]
      · exact hnew
    · rw [Pool.set_other p _ hi]
      rcases hm.hand with ⟨hsame, -⟩ | ⟨hserving, -⟩
      · rw [hsame, hr.hand]
      · exact absurd (hp.router hserving).symm hi
  · intro j n k hdone
    by_cases hj : j = i
    · subst hj
      rw [Pool.set_self] at hdone
      exact hm.returned hdone
    · rw [Pool.set_other p _ hj] at hdone
      exact hm.mem_accepted (hr.submitted j n k hdone)

/-! ### The law -/

theorem ControlRecorded.flow_nodup (hr : ControlRecorded p r) : r.accepted.Nodup ∧ r.flow.Nodup :=
  have h := List.Nodup.of_map Prod.fst hr.once
  ⟨h, hr.order.nodup h⟩

/-- The law says no more than that nothing is raised and that the newest command is not lost. -/
theorem ControlRecorded.survives_iff (hr : ControlRecorded p r) :
    ControlSurvives p r ↔ (∀ i n k e, p.threads i ≠ .done n (.sendControl k) (.raised e)) ∧ r.Newest := by
  have hflow : ∀ x, x ∈ r.flow ↔ x ∈ r.queue ∨ x ∈ r.hand ∨ x ∈ r.sent := by
    intro x
    simp only [Relay.flow, hr.pending, List.mem_append, List.not_mem_nil, or_false]
    tauto
  constructor
  · intro h
    refine ⟨h.returns, ?_⟩
    unfold Concurrency.Relay.Newest
    cases hlast : r.accepted.getLast? with
    | none =>
      have horder := hr.order
      rw [List.getLast?_eq_none_iff.mp hlast] at horder
      rw [List.eq_nil_of_sublist_nil horder]
      rfl
    | some x => exact getLast?_of_sublist hr.order hr.flow_nodup.1 hlast ((hflow x).mpr (h.newest x hlast))
  · rintro ⟨hreturns, hnewest⟩
    refine ⟨hreturns, hr.submitted, ?_, hr.once, hr.queue, ?_⟩
    · refine List.Sublist.trans ?_ hr.order
      unfold Relay.flow
      rw [List.append_assoc, List.append_assoc]
      exact List.sublist_append_left _ _
    · intro x hx
      exact (hflow x).mp (List.mem_of_getLast? (hnewest.trans hx))

/-- A step keeps the newest command, or it is the get of an overflow and takes the only one. -/
theorem ControlRecorded.newest_step (hr : ControlRecorded p r) (hhand : pl = .control → r.hand = []) (hnewest : r.Newest)
    (hm : ControlMoves pl p.shared r pl' w' r') : r'.Newest ∨ ∃ n k x, pl = .controlDrop n k ∧ r.queue = [x] ∧ ¬r'.Newest := by
  cases hm with
  | aside _ record _ _ _ _ | drained _ _ _ _ _ _ record | refilled _ _ _ _ _ _ record => exact Or.inl (record ▸ hnewest)
  | puts n k _ _ _ _ record => exact Or.inl (record ▸ Relay.submit_newest hr.pending)
  | drops n k x xs queue at_ _ _ record =>
    have hpop := Relay.newest_pop hnewest hr.flow_nodup.2 hr.pending queue
    rw [← record] at hpop
    by_cases hxs : xs = []
    · exact Or.inr ⟨n, k, x, at_, by rw [queue, hxs], fun h => hpop.mp h hxs⟩
    · exact Or.inl (hpop.mpr hxs)
  | takes x xs queue at_ _ _ record => exact Or.inl (record ▸ (Relay.Step.take x xs queue (hhand at_)).newest hnewest)
  | sends _ _ _ _ record =>
    refine Or.inl ?_
    unfold Relay.Newest Relay.flow at hnewest ⊢
    rw [record, List.append_nil]
    exact hnewest

/-- A step keeps the law exactly when it does not disturb an overflow. -/
theorem ControlSurvives.step_iff (hp : Callers p) (hr : ControlRecorded p r) (hs : ControlSurvives p r)
    (h : routerStep (p.threads i) c p.shared = some (pl', w')) (hm : ControlMoves (p.threads i) p.shared r pl' w' r') :
    ControlSurvives (p.set i (pl', w')) r' ↔ controlUndisturbed p.shared (p.threads i) = true := by
  obtain ⟨hreturns, hnewest⟩ := hr.survives_iff.mp hs
  have hraises : (∀ j n k e, (p.set i (pl', w')).threads j ≠ .done n (.sendControl k) (.raised e)) ↔
      ∀ n k e, pl' ≠ .done n (.sendControl k) (.raised e) := by
    constructor
    · intro hall n k e
      have hi := hall i n k e
      rwa [Pool.set_self] at hi
    · intro hpl j n k e
      by_cases hj : j = i
      · subst hj
        rw [Pool.set_self]
        exact hpl n k e
      · rw [Pool.set_other p _ hj]
        exact hreturns j n k e
  have hcontrol : p.shared.control.length = r.queue.length := by rw [← hr.queue, List.length_map]
  rw [(hr.step hp h hm).survives_iff, hraises]
  rcases hr.newest_step (hr.hand_eq_nil hp) hnewest hm with hkept | ⟨n, k, x, at_, hqueue, hlost⟩
  · rw [and_iff_left hkept]
    cases hm with
    | aside _ _ _ _ returns undisturbed => exact iff_of_true (fun n k e => returns n k (.raised e)) undisturbed
    | puts n k room at_ goes _ _ =>
      refine iff_of_true (by rw [goes]; simp) ?_
      rcases at_ with at_ | at_ <;> rw [at_]
      · rfl
      · exact decide_eq_true room
    | drops n k x xs queue at_ goes _ record =>
      have hxs : xs ≠ [] := (Relay.newest_pop hnewest hr.flow_nodup.2 hr.pending queue).mp (record ▸ hkept)
      have hpositive := List.length_pos_iff.mpr hxs
      rw [queue, List.length_cons] at hcontrol
      refine iff_of_true (by rw [goes]; simp) ?_
      rw [at_]
      exact decide_eq_true (by omega)
    | drained n k queue at_ goes _ _ =>
      rw [queue, List.length_nil] at hcontrol
      refine iff_of_false (fun hall => hall n k _ goes) ?_
      rw [at_]
      exact fun h => absurd (of_decide_eq_true h) (by omega)
    | refilled n k full at_ goes _ _ =>
      refine iff_of_false (fun hall => hall n k _ goes) ?_
      rw [at_]
      exact fun h => absurd (of_decide_eq_true h) (Nat.not_lt_of_le full)
    | takes _ _ _ at_ goes _ _ => exact iff_of_true (by rw [goes]; simp) (by rw [at_]; rfl)
    | sends _ at_ goes _ _ => exact iff_of_true (by rw [goes]; simp) (by rw [at_]; rfl)
  · rw [hqueue, List.length_singleton] at hcontrol
    refine iff_of_false (fun hall => hlost hall.2) ?_
    rw [at_]
    exact fun h => absurd (of_decide_eq_true h) (by omega)

/-- A step of the machine is one of a thread. -/
theorem recordedRouter_step (hp : Callers p) (hr : ControlRecorded p r) {a : Nat × RouterChoice κ} {q : Pool (Router κ) (RouterPlace κ)}
    (h : (recordedRouter κ).step (p, r) a = some (q, r')) : ∃ pl' w', routerStep (p.threads a.1) a.2 p.shared = some (pl', w') ∧
      q = p.set a.1 (pl', w') ∧ ControlMoves (p.threads a.1) p.shared r pl' w' r' := by
  obtain ⟨hstep, rfl⟩ := Machine.recording_step_iff.mp h
  obtain ⟨⟨pl', w'⟩, hthread, rfl⟩ := Threads.step_eq_some.mp hstep
  exact ⟨pl', w', hthread, rfl, control_moves hthread hr.queue fun n call f hdrain => hp.handing a.1 n call (by rw [hdrain]; rfl)⟩

theorem controlSurvives_init : ControlSurvives (routerInit : Pool (Router κ) (RouterPlace κ)) {} := by
  refine controlRecorded_init.survives_iff.mpr ⟨fun i n k e hdone => ?_, rfl⟩
  have hplace : (routerInit : Pool (Router κ) (RouterPlace κ)).threads i = if i = 0 then .serve else .idle := rfl
  rw [hplace] at hdone
  split at hdone <;> cases hdone

/-- Along a run the control commands survive in every state exactly when no overflow is disturbed: when the queue of each overflow has a
    command left after the get, and room at the put. -/
theorem control_commands_survive {as : List (Nat × RouterChoice κ)} {p : Pool (Router κ) (RouterPlace κ)}
    (hrun : (routerMachine κ).run routerInit as = some p) :
    (∀ bs cs q r, as = bs ++ cs → (recordedRouter κ).run (routerInit, {}) bs = some (q, r) → ControlSurvives q r) ↔
      (routerMachine κ).Meets ControlUndisturbed routerInit as := by
  have hearlier : (∀ bs cs q r, as = bs ++ cs → (recordedRouter κ).run (routerInit, {}) bs = some (q, r) → ControlSurvives q r) ↔
      ∀ bs cs (s : Pool (Router κ) (RouterPlace κ) × Relay (Nat × κ)), as = bs ++ cs →
        (recordedRouter κ).run (routerInit, {}) bs = some s → ControlSurvives s.1 s.2 :=
    ⟨fun h bs cs s => h bs cs s.1 s.2, fun h bs cs q r => h bs cs (q, r)⟩
  have hmeets : (recordedRouter κ).Meets (fun s a => ControlUndisturbed s.1 a) (routerInit, {}) as ↔
      (routerMachine κ).Meets ControlUndisturbed routerInit as := Machine.recording_meets
  obtain ⟨r, hrecord⟩ : ∃ r, (recordedRouter κ).run (routerInit, {}) as = some (p, r) := Machine.recording_run hrun
  rw [hearlier, ← hmeets]
  refine Machine.meets_iff_along (J := fun s => Callers s.1 ∧ ControlRecorded s.1 s.2) ?_ ?_ ⟨callers_init, controlRecorded_init⟩
    controlSurvives_init hrecord
  · rintro ⟨p, r⟩ a ⟨q, r'⟩ ⟨hp, hr⟩ h
    obtain ⟨pl', w', hthread, rfl, hm⟩ := recordedRouter_step hp hr h
    exact ⟨hp.step hthread, hr.step hp hthread hm⟩
  · rintro ⟨p, r⟩ a ⟨q, r'⟩ ⟨hp, hr⟩ hs h
    obtain ⟨pl', w', hthread, rfl, hm⟩ := recordedRouter_step hp hr h
    exact hs.step_iff hp hr hthread hm

/-! The put of a fifth command finds the queue full; where the router thread sends all four before the get, the get finds nothing, and
the fifth command is in no queue and never sent. -/

/-- Thread 1 sends four commands, and a fifth one up to the get of its overflow. -/
def fillControl : List (Nat × RouterChoice Nat) :=
  ((List.range 4).flatMap fun k => [(1, .call (.sendControl k)), (1, .go), (1, .go), (1, .go)]) ++
  [(1, .call (.sendControl 4)), (1, .go), (1, .go)]

/-- The router thread sends all that is in the queue before the get. -/
def overtakenOverflow : List (Nat × RouterChoice Nat) := fillControl ++ List.replicate 10 (0, .go) ++ [(1, .go)]

/-- Not every run keeps its control commands: in this one `send_control` raises, and its command is lost. -/
theorem overtaken_overflow_raises : ¬∀ as (q : Pool (Router Nat) (RouterPlace Nat)) r,
    (recordedRouter Nat).run (routerInit, {}) as = some (q, r) → ControlSurvives q r := by
  intro h
  obtain ⟨⟨q, r⟩, hrun, hraised⟩ : ∃ s ∈ (recordedRouter Nat).run (routerInit, {}) overtakenOverflow,
      s.1.threads 1 = .done 8 (.sendControl 4) (.raised "queue.Empty") := by decide
  exact (h overtakenOverflow q r hrun).returns 1 8 4 "queue.Empty" hraised

/-- An overflow that nothing disturbs drops the oldest command. -/
theorem control_commands_survive_overflow : ∃ q r,
    (recordedRouter Nat).run (routerInit, {}) (fillControl ++ [(1, .go), (1, .go)]) = some (q, r) ∧
      q.shared.control = [1, 2, 3, 4] ∧ ControlSurvives q r := by
  have hmeets : (routerMachine Nat).Meets ControlUndisturbed routerInit (fillControl ++ [(1, .go), (1, .go)]) := by decide
  obtain ⟨⟨q, r⟩, hrecord, hqueue⟩ : ∃ s ∈ (recordedRouter Nat).run (routerInit, {}) (fillControl ++ [(1, .go), (1, .go)]),
      s.1.shared.control = [1, 2, 3, 4] := by decide
  obtain ⟨p, hrun⟩ : ∃ p, (routerMachine Nat).run routerInit (fillControl ++ [(1, .go), (1, .go)]) = some p :=
    Option.isSome_iff_exists.mp (by decide)
  exact ⟨q, r, hrecord, hqueue, (control_commands_survive hrun).mpr hmeets _ [] q r (List.append_nil _).symm hrecord⟩

end HumanoidLab
