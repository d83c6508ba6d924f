import HumanoidLab.Bridge.Router

/-! What a step of the router thread or of a caller does to the router: to the selection, to the record of
    the run, and to the entries on their way to the port. -/

namespace HumanoidLab
open Concurrency

variable {κ : Type} {pl pl' : RouterPlace κ} {c : RouterChoice κ} {w w' : Router κ}

/-- The fields that decide what is forwarded. -/
def RouterCore.selection (r : RouterCore) : Source × Bool × Bool × Nat := (r.source, r.gate, r.closed, r.generation)

theorem RouterCore.selection_eq {r s : RouterCore} (h : r.selection = s.selection) :
    r.source = s.source ∧ r.gate = s.gate ∧ r.closed = s.closed ∧ r.generation = s.generation := by
  simpa only [selection, Prod.mk.injEq] using h

namespace Router

@[simp] theorem setQueue_self (w : Router κ) (f : Feed) (q : List (Entry κ)) : (w.setQueue f q).queue f = q := by
  simp [setQueue]

theorem setQueue_other (w : Router κ) {f g : Feed} (q : List (Entry κ)) (h : g ≠ f) :
    (w.setQueue f q).queue g = w.queue g := by
  simp [setQueue, h]

theorem mem_setQueue {w : Router κ} {f g : Feed} {q : List (Entry κ)} {e : Entry κ} (h : e ∈ (w.setQueue f q).queue g) :
    (g = f ∧ e ∈ q) ∨ e ∈ w.queue g := by
  by_cases hg : g = f
  · subst hg
    rw [setQueue_self] at h
    exact Or.inl ⟨rfl, h⟩
  · rw [setQueue_other w q hg] at h
    exact Or.inr h

end Router

/-- The entry that a thread has in its hands. -/
def RouterPlace.carries : RouterPlace κ → Option (Source × Entry κ)
  | .acceptGroot e | .sendGroot e => some (.groot, e)
  | .check f e | .send f e | .put _ f e | .drop _ f e | .putAgain _ f e => some (f.source, e)
  | _ => none

/-- The calls that end the forwarding of what was handed over before. -/
def RouterCall.handsOver : RouterCall κ → Bool
  | .select _ | .halt => true
  | _ => false

/-- The `select` or `halt` of a thread, once its block has run. -/
def RouterPlace.handingOver : RouterPlace κ → Option (Nat × RouterCall κ)
  | .drain n r _ => some (n, r)
  | .done n r _ => if r.handsOver then some (n, r) else none
  | _ => none

/-- The number of the call that a thread is in. -/
def RouterPlace.number : RouterPlace κ → Option Nat
  | .lock n _ | .drain n _ _ | .put n _ _ | .drop n _ _ | .putAgain n _ _ | .done n _ _ => some n
  | .controlPut n _ | .controlDrop n _ | .controlAgain n _ | .closeStop n | .closeJoin n => some n
  | _ => none

/-- The places of the router thread. -/
def RouterPlace.serving : RouterPlace κ → Bool
  | .serve | .poll | .recv | .acceptGroot _ | .sendGroot _ | .recordGroot | .control | .sendControl _ => true
  | .take _ | .check _ _ | .send _ _ | .record _ | .finished => true
  | _ => false

/-- The blocks that change the selection. -/
inductive Selects (pl : RouterPlace κ) (w : Router κ) (pl' : RouterPlace κ) (core : RouterCore) : Prop
  | select (n : Nat) (s : Source) (at_ : pl = .lock n (.select s)) (goes : pl' = .drain n (.select s) .psi)
      (core : core = w.core.select s)
  | halt (n : Nat) (at_ : pl = .lock n .halt) (goes : pl' = .drain n .halt .psi) (core : core = w.core.halt)
  | resume (n : Nat) (at_ : pl = .lock n .resume) (goes : pl' = .done n .resume .none) (open_ : w.core.closed = false)
      (core : core = { w.core with gate := true })
  | close (n : Nat) (at_ : pl = .lock n .close) (goes : pl' = .closeStop n) (open_ : w.core.closed = false)
      (core : core = w.core.close)

/-- What a step from `pl` to `pl'` does. -/
inductive RouterMoves (pl : RouterPlace κ) (w : Router κ) (pl' : RouterPlace κ) (w' : Router κ) : Prop
  | quiet (core : w'.core.selection = w.core.selection) (queue : w'.queue = w.queue) (inbox : w'.inbox = w.inbox)
      (log : w'.log = w.log) (carries : pl.carries = none ∧ pl'.carries = none)
      (handing : pl'.handingOver = none ∨ pl'.handingOver = pl.handingOver)
  | selects (s : Selects pl w pl' w'.core) (queue : w'.queue = w.queue) (inbox : w'.inbox = w.inbox)
      (log : w'.log = w.log)
  | began (r : RouterCall κ) (at_ : pl = .idle) (goes : pl' = .lock w.log.length r)
      (state : w' = { w with log := .began w.log.length r :: w.log })
  | returned (n : Nat) (r : RouterCall κ) (res : RouterResult) (at_ : pl = .done n r res) (goes : pl' = .idle)
      (state : w' = { w with log := .returned n r :: w.log })
  | published (payload : κ) (at_ : pl = .idle) (goes : pl' = .idle)
      (state : w' = { w with
        inbox := w.inbox ++ [w.entry payload], log := .handed .groot (w.entry payload) :: w.log })
  | received (e : Entry κ) (es : List (Entry κ)) (inbox : w.inbox = e :: es) (at_ : pl = .recv) (goes : pl' = .acceptGroot e)
      (state : w' = { w with inbox := es })
  | acceptGroot (e : Entry κ) (accept : w.core.accept .groot = true) (at_ : pl = .acceptGroot e) (goes : pl' = .sendGroot e)
      (state : w' = w)
  | refuseGroot (e : Entry κ) (at_ : pl = .acceptGroot e) (goes : pl' = .control) (state : w' = w)
  | sentGroot (e : Entry κ) (at_ : pl = .sendGroot e) (goes : pl' = .recordGroot)
      (state : w' = { w with log := .sent .groot e :: w.log })
  | took (f : Feed) (e : Entry κ) (es : List (Entry κ)) (queue : w.queue f = e :: es) (at_ : pl = .take f)
      (goes : pl' = .check f e) (state : w' = w.setQueue f es)
  | forward (f : Feed) (e : Entry κ) (forwards : w.core.forwards f e.generation = true) (at_ : pl = .check f e)
      (goes : pl' = .send f e) (state : w' = w)
  | discard (f : Feed) (e : Entry κ) (forwards : w.core.forwards f e.generation = false) (at_ : pl = .check f e)
      (goes : pl' = .take f) (state : w' = w)
  | sent (f : Feed) (e : Entry κ) (at_ : pl = .send f e) (goes : pl' = .record f)
      (state : w' = { w with log := .sent f.source e :: w.log })
  | accepted (n : Nat) (f : Feed) (payload : κ) (accept : w.core.accept f.source = true)
      (at_ : pl = .lock n (.submit f payload)) (goes : pl' = .put n f (w.entry payload))
      (state : w' = { w with log := .handed f.source (w.entry payload) :: w.log })
  | drained (n : Nat) (r : RouterCall κ) (f : Feed) (e : Entry κ) (es : List (Entry κ)) (queue : w.queue f = e :: es)
      (at_ : pl = .drain n r f) (goes : pl' = .drain n r f) (state : w' = w.setQueue f es)
  | full (n : Nat) (f : Feed) (e : Entry κ) (queue : queueSize ≤ (w.queue f).length) (at_ : pl = .put n f e)
      (goes : pl' = .drop n f e) (state : w' = w)
  | dropped (n : Nat) (f : Feed) (e : Entry κ) (at_ : pl = .drop n f e) (goes : pl' = .putAgain n f e)
      (state : w' = w.setQueue f (w.queue f).tail)
  | put (n : Nat) (f : Feed) (e : Entry κ) (queue : (w.queue f).length < queueSize)
      (at_ : pl = .put n f e ∨ pl = .putAgain n f e) (goes : pl' = .done n (.submit f e.payload) (.accepted true))
      (state : w' = w.setQueue f (w.queue f ++ [e]))
  | lost (n : Nat) (f : Feed) (e : Entry κ) (queue : queueSize ≤ (w.queue f).length) (at_ : pl = .putAgain n f e)
      (goes : pl' = .done n (.submit f e.payload) (.raised "queue.Full")) (state : w' = w)

theorem routerLock_moves {n : Nat} {r : RouterCall κ} (h : routerLock n r w = (pl', w')) :
    RouterMoves (.lock n r) w pl' w' := by
  cases r with
  | select s => cases h; exact .selects (.select n s rfl rfl rfl) rfl rfl rfl
  | halt => cases h; exact .selects (.halt n rfl rfl rfl) rfl rfl rfl
  | resume =>
    by_cases hc : w.core.closed = true
    · simp only [routerLock, RouterCore.resume, hc, if_true] at h
      cases h; exact .quiet rfl rfl rfl rfl ⟨rfl, rfl⟩ (Or.inl rfl)
    · simp only [routerLock, RouterCore.resume, if_neg hc] at h
      cases h; exact .selects (.resume n rfl rfl (by simpa using hc) rfl) rfl rfl rfl
  | submit f k =>
    by_cases ha : w.core.accept f.source = true
    · simp only [routerLock, ha, if_true] at h
      cases h; exact .accepted n f k ha rfl rfl rfl
    · simp only [routerLock, if_neg ha] at h
      cases h; exact .quiet rfl rfl rfl rfl ⟨rfl, rfl⟩ (Or.inl rfl)
  | sendControl k => cases h; exact .quiet rfl rfl rfl rfl ⟨rfl, rfl⟩ (Or.inl rfl)
  | close =>
    by_cases hc : w.core.closed = true
    · simp only [routerLock, hc, if_true] at h
      cases h; exact .quiet rfl rfl rfl rfl ⟨rfl, rfl⟩ (Or.inl rfl)
    · simp only [routerLock, if_neg hc] at h
      cases h; exact .selects (.close n rfl rfl (by simpa using hc) rfl) rfl rfl rfl

theorem forwardNext_quiet (f : Option Feed) :
    (forwardNext f : RouterPlace κ).carries = none ∧ (forwardNext f : RouterPlace κ).handingOver = none := by
  cases f <;> exact ⟨rfl, rfl⟩

theorem drainNext_quiet (n : Nat) (r : RouterCall κ) (f : Option Feed) :
    (f.elim (.done n r .none) (.drain n r) : RouterPlace κ).carries = none ∧
    ((f.elim (.done n r .none) (.drain n r) : RouterPlace κ).handingOver = none ∨
      (f.elim (.done n r .none) (.drain n r) : RouterPlace κ).handingOver = some (n, r)) := by
  cases f with
  | none => cases h : r.handsOver <;> simp [RouterPlace.carries, RouterPlace.handingOver, h]
  | some f => exact ⟨rfl, Or.inr rfl⟩

/-- Every step of a thread is one of these. -/
theorem router_moves (h : routerStep pl c w = some (pl', w')) : RouterMoves pl w pl' w' := by
  cases pl with
  | lock n r =>
    cases c <;> simp only [routerStep, reduceCtorEq] at h
    exact routerLock_moves (Option.some.inj h)
  | take f =>
    cases c <;> simp only [routerStep, reduceCtorEq] at h
    split at h <;> cases h
    · exact .quiet rfl rfl rfl rfl ⟨rfl, (forwardNext_quiet _).1⟩ (Or.inl (forwardNext_quiet _).2)
    · exact .took f _ _ ‹_› rfl rfl rfl
  | drain n r f =>
    cases c <;> simp only [routerStep, reduceCtorEq] at h
    split at h <;> cases h
    · exact .quiet rfl rfl rfl rfl ⟨rfl, (drainNext_quiet n r _).1⟩ (drainNext_quiet n r _).2
    · exact .drained n r f _ _ ‹_› rfl rfl rfl
  | idle =>
    cases c <;> simp only [routerStep, reduceCtorEq] at h
    case call r => cases h; exact .began r rfl rfl rfl
    case publish k => cases h; exact .published k rfl rfl rfl
  | poll =>
    cases c <;> simp only [routerStep, reduceCtorEq] at h
    case go => cases h; exact .quiet rfl rfl rfl rfl ⟨rfl, rfl⟩ (Or.inl rfl)
    case readable => split at h <;> cases h; exact .quiet rfl rfl rfl rfl ⟨rfl, rfl⟩ (Or.inl rfl)
  | recv =>
    cases c <;> simp only [routerStep, reduceCtorEq] at h
    split at h <;> cases h
    exact .received _ _ ‹_› rfl rfl rfl
  | acceptGroot e =>
    cases c <;> simp only [routerStep, reduceCtorEq] at h
    cases ha : w.core.accept .groot <;> simp only [ha, if_true, Bool.false_eq_true, if_false] at h <;> cases h
    · exact .refuseGroot e rfl rfl rfl
    · exact .acceptGroot e ha rfl rfl rfl
  | check f e =>
    cases c <;> simp only [routerStep, reduceCtorEq] at h
    cases hf : w.core.forwards f e.generation <;> simp only [hf, if_true, Bool.false_eq_true, if_false] at h <;> cases h
    · exact .discard f e hf rfl rfl rfl
    · exact .forward f e hf rfl rfl rfl
  | put n f e =>
    cases c <;> simp only [routerStep, reduceCtorEq] at h
    split at h <;> cases h
    · exact .put n f e ‹_› (Or.inl rfl) rfl rfl
    · exact .full n f e (Nat.le_of_not_lt ‹_›) rfl rfl rfl
  | putAgain n f e =>
    cases c <;> simp only [routerStep, reduceCtorEq] at h
    split at h <;> cases h
    · exact .put n f e ‹_› (Or.inr rfl) rfl rfl
    · exact .lost n f e (Nat.le_of_not_lt ‹_›) rfl rfl rfl
  | sendGroot e =>
    cases c <;> simp only [routerStep, reduceCtorEq] at h
    cases h; exact .sentGroot e rfl rfl rfl
  | send f e =>
    cases c <;> simp only [routerStep, reduceCtorEq] at h
    cases h; exact .sent f e rfl rfl rfl
  | drop n f e =>
    cases c <;> simp only [routerStep, reduceCtorEq] at h
    cases h; exact .dropped n f e rfl rfl rfl
  | done n r res =>
    cases c <;> simp only [routerStep, reduceCtorEq] at h
    cases h; exact .returned n r res rfl rfl rfl
  | serve =>
    cases c <;> simp only [routerStep, reduceCtorEq] at h
    cases h
    exact .quiet rfl rfl rfl rfl ⟨rfl, by split <;> rfl⟩ (Or.inl (by split <;> rfl))
  | control | controlPut n k | controlDrop n k | controlAgain n k =>
    cases c <;> simp only [routerStep, reduceCtorEq] at h
    split at h <;> cases h <;> exact .quiet rfl rfl rfl rfl ⟨rfl, rfl⟩ (Or.inl rfl)
  | finished => cases c <;> simp [routerStep] at h
  | _ =>
    cases c <;> simp only [routerStep, reduceCtorEq] at h
    cases h; exact .quiet rfl rfl rfl rfl ⟨rfl, rfl⟩ (Or.inl rfl)

/-- A step records at most one event, and a call has the number of the events before it. -/
theorem RouterMoves.log (h : RouterMoves pl w pl' w') :
    w'.log = w.log ∨ ∃ ev, w'.log = ev :: w.log ∧ ∀ n r, ev = .began n r → n = w.log.length := by
  cases h with
  | quiet _ _ _ log _ _ => exact Or.inl log
  | selects _ _ _ log => exact Or.inl log
  | began r _ _ state => exact Or.inr ⟨_, by rw [state], fun _ _ h => by cases h; rfl⟩
  | returned _ _ _ _ _ state | published _ _ _ state | sentGroot _ _ _ state | sent _ _ _ _ state
  | accepted _ _ _ _ _ _ state => exact Or.inr ⟨_, by rw [state], fun _ _ h => by cases h⟩
  | received _ _ _ _ _ state | acceptGroot _ _ _ _ state | refuseGroot _ _ _ state | took _ _ _ _ _ _ state
  | forward _ _ _ _ _ state | discard _ _ _ _ _ state | drained _ _ _ _ _ _ _ _ state | full _ _ _ _ _ _ state
  | dropped _ _ _ _ _ state | put _ _ _ _ _ _ state | lost _ _ _ _ _ _ state => exact Or.inl (by subst state; rfl)

theorem RouterMoves.core (h : RouterMoves pl w pl' w') :
    w'.core.selection = w.core.selection ∨ Selects pl w pl' w'.core := by
  cases h with
  | quiet core _ _ _ _ _ => exact Or.inl core
  | selects s _ _ _ => exact Or.inr s
  | began _ _ _ state | returned _ _ _ _ _ state | published _ _ _ state | sentGroot _ _ _ state | sent _ _ _ _ state
  | accepted _ _ _ _ _ _ state | received _ _ _ _ _ state | acceptGroot _ _ _ _ state | refuseGroot _ _ _ state
  | took _ _ _ _ _ _ state | forward _ _ _ _ _ state | discard _ _ _ _ _ state | drained _ _ _ _ _ _ _ _ state
  | full _ _ _ _ _ _ state | dropped _ _ _ _ _ state | put _ _ _ _ _ _ state | lost _ _ _ _ _ _ state =>
    exact Or.inl (by subst state; rfl)

theorem Selects.generation {core : RouterCore} (h : Selects pl w pl' core) : w.core.generation ≤ core.generation := by
  cases h with
  | select _ _ _ _ core | halt _ _ _ core => rw [core]; exact Nat.le_succ _
  | resume _ _ _ _ core | close _ _ _ _ core => subst core; exact Nat.le_refl _

theorem RouterMoves.generation (h : RouterMoves pl w pl' w') : w.core.generation ≤ w'.core.generation := by
  rcases h.core with h | h
  · exact Nat.le_of_eq (RouterCore.selection_eq h).2.2.2.symm
  · exact h.generation

theorem RouterMoves.mem_log (h : RouterMoves pl w pl' w') {ev : RouterEvent κ} (he : ev ∈ w.log) : ev ∈ w'.log := by
  rcases h.log with h | ⟨_, h, -⟩ <;> rw [h]
  · exact he
  · exact List.mem_cons_of_mem _ he

theorem RouterMoves.length_log (h : RouterMoves pl w pl' w') : w.log.length ≤ w'.log.length := by
  rcases h.log with h | ⟨_, h, -⟩
  · exact Nat.le_of_eq (congrArg List.length h).symm
  · rw [h]
    exact Nat.le_succ _

/-- The router thread stays in `_serve`, and a caller outside it. -/
theorem step_serving (h : routerStep pl c w = some (pl', w')) : pl'.serving = pl.serving := by
  cases pl with
  | lock n r =>
    cases c <;> simp only [routerStep, reduceCtorEq] at h
    cases r <;> simp only [routerLock] at h <;> (try split at h) <;> cases h <;> rfl
  | take f =>
    cases c <;> simp only [routerStep, reduceCtorEq] at h
    split at h <;> cases h
    · cases f <;> rfl
    · rfl
  | drain n r f =>
    cases c <;> simp only [routerStep, reduceCtorEq] at h
    split at h <;> cases h
    · cases f <;> rfl
    · rfl
  | _ =>
    cases c <;> simp only [routerStep, reduceCtorEq] at h
    all_goals first
      | (cases h; rfl)
      | (split at h <;> cases h <;> rfl)

theorem step_number (h : routerStep pl c w = some (pl', w')) :
    pl'.number = none ∨ pl'.number = pl.number ∨ (pl = .idle ∧ pl'.number = some w.log.length ∧ w'.log ≠ w.log) := by
  cases pl with
  | lock n r =>
    cases c <;> simp only [routerStep, reduceCtorEq] at h
    cases r <;> simp only [routerLock] at h <;> (try split at h) <;> cases h <;> exact Or.inr (Or.inl rfl)
  | take f =>
    cases c <;> simp only [routerStep, reduceCtorEq] at h
    split at h <;> cases h
    · cases f <;> exact Or.inl rfl
    · exact Or.inl rfl
  | drain n r f =>
    cases c <;> simp only [routerStep, reduceCtorEq] at h
    split at h <;> cases h
    · cases f <;> exact Or.inr (Or.inl rfl)
    · exact Or.inr (Or.inl rfl)
  | idle =>
    cases c <;> simp only [routerStep, reduceCtorEq] at h <;> cases h
    · exact Or.inr (Or.inr ⟨rfl, rfl, by simp⟩)
    · exact Or.inl rfl
  | _ =>
    cases c <;> simp only [routerStep, reduceCtorEq] at h
    all_goals first
      | (cases h; exact Or.inl rfl)
      | (cases h; exact Or.inr (Or.inl rfl))
      | (split at h <;> cases h <;> exact Or.inr (Or.inl rfl))

end HumanoidLab
