import HumanoidLab.Theorems.RouterSteps

/-! The hand-off of the router over every interleaving of its thread with the callers and the GR00T client:
    what is sent was accepted from the selected source with the gate open, and after a `select` or a
    `halt` nothing that was handed over before it is sent. The router sends after it has released the
    lock, and a payload of the GR00T client carries no generation, so the law holds of the runs in which
    neither window is hit. -/

namespace HumanoidLab
open Concurrency

variable {κ : Type}

/-- The payload that the router thread has accepted and not sent. -/
def RouterPlace.sending : RouterPlace κ → Option (Source × Entry κ)
  | .sendGroot e => some (.groot, e)
  | .send f e => some (f.source, e)
  | _ => none

/-- The law of the hand-off. -/
structure HandoffSafe (p : Pool (Router κ) (RouterPlace κ)) : Prop where
  /-- A payload about to be sent was accepted from the source that is selected, and the gate is open. -/
  selected : ∀ i s e, (p.threads i).sending = some (s, e) →
    p.shared.core.source = s ∧ p.shared.core.gate = true ∧ .handed s e ∈ p.shared.log
  /-- What was handed over before a call of `select` or `halt` is not sent after the call has returned. -/
  unsent : ∀ s e n r, r.handsOver = true →
    ¬[RouterEvent.sent s e, .returned n r, .began n r, .handed s e].Sublist p.shared.log

/-- The blocks that close the gate. -/
def closesGate (w : Router κ) : RouterPlace κ → Bool
  | .lock _ (.select _) | .lock _ .halt => true
  | .lock _ .close => !w.core.closed
  | _ => false

/-- A payload of the GR00T client is about to be accepted in a later generation than its own. -/
def staleGroot (w : Router κ) : RouterPlace κ → Bool
  | .acceptGroot e => w.core.accept .groot && e.generation != w.core.generation
  | _ => false

/-- The guard of the runs that hit neither window: no block closes the gate between an acceptance by the
    router thread and its send, and a payload of the GR00T client is accepted only in the generation in
    which it was published. -/
def Undisturbed (p : Pool (Router κ) (RouterPlace κ)) (a : Nat × RouterChoice κ) : Prop :=
  (closesGate p.shared (p.threads a.1) && (p.threads 0).sending.isSome) = false ∧
  staleGroot p.shared (p.threads a.1) = false

instance (p : Pool (Router κ) (RouterPlace κ)) (a : Nat × RouterChoice κ) : Decidable (Undisturbed p a) :=
  inferInstanceAs (Decidable (_ ∧ _))

/-! ### The invariant -/

/-- The generations of what was handed over. -/
structure HandedOver (w : Router κ) : Prop where
  generations : ∀ s e, .handed s e ∈ w.log → e.generation ≤ w.core.generation
  inbox : ∀ e ∈ w.inbox, .handed .groot e ∈ w.log
  queue : ∀ f, ∀ e ∈ w.queue f, .handed f.source e ∈ w.log
  older : ∀ s e n r, r.handsOver = true → [RouterEvent.returned n r, .began n r, .handed s e].Sublist w.log →
    e.generation < w.core.generation
  safe : ∀ s e n r, r.handsOver = true →
    ¬[RouterEvent.sent s e, .returned n r, .began n r, .handed s e].Sublist w.log

/-- What thread `i` relies on: its entry was handed over, and is of the current generation once the router
    has accepted it; what was handed over before its `select` or `halt` is of an older one. -/
structure HandlesOver (i : Nat) (pl : RouterPlace κ) (w : Router κ) : Prop where
  serving : pl.serving = (i == 0)
  carries : ∀ s e, pl.carries = some (s, e) → .handed s e ∈ w.log
  sending : ∀ s e, pl.sending = some (s, e) →
    w.core.source = s ∧ w.core.gate = true ∧ e.generation = w.core.generation
  number : ∀ n, pl.number = some n → n < w.log.length
  older : ∀ n r s e, pl.handingOver = some (n, r) → [RouterEvent.began n r, .handed s e].Sublist w.log →
    e.generation < w.core.generation

variable {i j : Nat} {pl pl' : RouterPlace κ} {c : RouterChoice κ} {w w' : Router κ}

theorem RouterPlace.number_of_handingOver {n : Nat} {r : RouterCall κ} (h : pl.handingOver = some (n, r)) :
    pl.number = some n := by
  cases pl <;> simp only [handingOver, reduceCtorEq, Option.some.injEq, Prod.mk.injEq, Option.ite_none_right_eq_some] at h
  · exact congrArg some h.1
  · exact congrArg some h.2.1

theorem RouterPlace.serving_of_sending {s : Source} {e : Entry κ} (h : pl.sending = some (s, e)) : pl.serving = true := by
  cases pl <;> simp_all [sending, serving]

theorem sublist_of_cons {α : Type} {a b : α} {l m : List α} (h : (a :: l).Sublist (b :: m)) (hab : b ≠ a) :
    (a :: l).Sublist m := by
  rcases List.sublist_cons_iff.mp h with h | ⟨_, h, -⟩
  · exact h
  · exact absurd (List.cons.inj h).1.symm hab

/-- What another thread relies on. The guard keeps the gate open while the router thread sends. -/
theorem HandlesOver.step (ha : HandlesOver j pl w) {pi pi' : RouterPlace κ} (hm : RouterMoves pi w pi' w')
    (hg : pl.sending.isSome = true → closesGate w pi = false) : HandlesOver j pl w' where
  serving := ha.serving
  carries s e h := hm.mem_log (ha.carries s e h)
  sending s e h := by
    obtain ⟨h₁, h₂, h₃⟩ := ha.sending s e h
    have hopen := hg (by rw [h]; rfl)
    rcases hm.core with hsel | hsel
    · obtain ⟨e₁, e₂, -, e₄⟩ := RouterCore.selection_eq hsel
      exact ⟨e₁ ▸ h₁, e₂ ▸ h₂, e₄ ▸ h₃⟩
    · cases hsel with
      | select _ _ at_ _ _ | halt _ at_ _ _ => rw [at_] at hopen; cases hopen
      | resume _ _ _ _ core => rw [core]; exact ⟨h₁, rfl, h₃⟩
      | close _ at_ _ hcl _ => rw [at_] at hopen; simp [closesGate, hcl] at hopen
  number n h := Nat.lt_of_lt_of_le (ha.number n h) hm.length_log
  older n r s e h hs := by
    refine Nat.lt_of_lt_of_le (ha.older n r s e h ?_) hm.generation
    rcases hm.log with hl | ⟨ev, hl, hev⟩ <;> rw [hl] at hs
    · exact hs
    · refine sublist_of_cons hs fun hb => ?_
      have := ha.number n (RouterPlace.number_of_handingOver h)
      rw [hev n r hb] at this
      exact Nat.lt_irrefl _ this

/-- The calls past their block: what was handed over before them is of an older generation. -/
theorem HandlesOver.older_step (hw : HandedOver w) (ha : HandlesOver i pl w) (hm : RouterMoves pl w pl' w') (n : Nat)
    (r : RouterCall κ) (s : Source) (e : Entry κ) (h : pl'.handingOver = some (n, r))
    (hs : [RouterEvent.began n r, .handed s e].Sublist w'.log) : e.generation < w'.core.generation := by
  have kept : pl.handingOver = some (n, r) → [RouterEvent.began n r, .handed s e].Sublist w.log →
      e.generation < w'.core.generation := fun h hs => Nat.lt_of_lt_of_le (ha.older n r s e h hs) hm.generation
  -- The block of `select` or `halt` opens a new generation.
  have fresh : w'.log = w.log → w'.core.generation = w.core.generation + 1 → e.generation < w'.core.generation := fun hl hg => by
    rw [hl] at hs
    have := hw.generations s e (hs.subset (by simp))
    omega
  cases hm with
  | quiet _ _ _ log _ handing =>
    rcases handing with h' | h'
    · rw [h'] at h; cases h
    · rw [log] at hs; exact kept (h' ▸ h) hs
  | selects sel _ _ log =>
    cases sel with
    | select _ _ _ goes core | halt _ _ goes core => exact fresh log (by rw [core]; rfl)
    | resume _ _ goes _ _ | close _ _ goes _ _ => rw [goes] at h; cases h
  | drained n' r' f e' es _ at_ goes state =>
    subst state
    rw [goes] at h
    exact kept (at_ ▸ h) hs
  | began _ _ goes _ | returned _ _ _ _ goes _ | published _ _ goes _ | sentGroot _ _ goes _ | sent _ _ _ goes _
  | accepted _ _ _ _ _ goes _ | received _ _ _ _ goes _ | acceptGroot _ _ _ goes _ | refuseGroot _ _ goes _
  | took _ _ _ _ _ goes _ | forward _ _ _ _ goes _ | discard _ _ _ _ goes _ | full _ _ _ _ _ goes _ | dropped _ _ _ _ goes _
  | put _ _ _ _ _ goes _ | lost _ _ _ _ _ goes _ => rw [goes] at h; cases h

/-- An entry comes from the thread's own hands, from a queue or the socket, or was just handed over. -/
theorem HandlesOver.carries_step (hw : HandedOver w) (ha : HandlesOver i pl w) (hm : RouterMoves pl w pl' w') (s : Source)
    (e : Entry κ) (he : pl'.carries = some (s, e)) : .handed s e ∈ w'.log := by
  have kept : pl.carries = pl'.carries → .handed s e ∈ w'.log := fun h => hm.mem_log (ha.carries s e (h ▸ he))
  cases hm with
  | quiet _ _ _ _ carries _ => rw [carries.2] at he; cases he
  | selects sel _ _ _ =>
    cases sel with
    | select _ _ _ goes _ | halt _ _ goes _ | resume _ _ goes _ _ | close _ _ goes _ _ => rw [goes] at he; cases he
  | received e' es inbox _ goes state =>
    subst state goes
    cases he
    exact hw.inbox e (by rw [inbox]; exact List.mem_cons_self)
  | took f e' es queue _ goes state =>
    subst state goes
    cases he
    exact hw.queue f e (by rw [queue]; exact List.mem_cons_self)
  | accepted _ f payload _ _ goes state =>
    subst state goes
    cases he
    exact List.mem_cons_self
  | acceptGroot _ _ at_ goes _ | forward _ _ _ at_ goes _ | full _ _ _ _ at_ goes _ | dropped _ _ _ at_ goes _ =>
    exact kept (by rw [at_, goes]; rfl)
  | began _ _ goes _ | returned _ _ _ _ goes _ | published _ _ goes _ | sentGroot _ _ goes _ | sent _ _ _ goes _
  | refuseGroot _ _ goes _ | discard _ _ _ _ goes _ | drained _ _ _ _ _ _ _ goes _ | put _ _ _ _ _ goes _ | lost _ _ _ _ _ goes _ =>
    rw [goes] at he; cases he

/-- What the router thread has just accepted is of the selected source and the current generation. -/
theorem sending_step (hm : RouterMoves pl w pl' w') (hg : staleGroot w pl = false) (s : Source) (e : Entry κ)
    (he : pl'.sending = some (s, e)) :
    w'.core.source = s ∧ w'.core.gate = true ∧ e.generation = w'.core.generation := by
  have none_of_carries : pl'.carries = none → pl'.sending = none := fun h => by
    cases pl' <;> simp_all [RouterPlace.carries, RouterPlace.sending]
  cases hm with
  | quiet _ _ _ _ carries _ => rw [none_of_carries carries.2] at he; cases he
  | selects sel _ _ _ =>
    cases sel with
    | select _ _ _ goes _ | halt _ _ goes _ | resume _ _ goes _ _ | close _ _ goes _ _ => rw [goes] at he; cases he
  | acceptGroot e' accept at_ goes state =>
    subst state goes at_
    cases he
    simp only [staleGroot, accept, Bool.true_and, bne_eq_false_iff_eq] at hg
    simp only [RouterCore.accept, Bool.and_eq_true, beq_iff_eq] at accept
    exact ⟨accept.1.2, accept.1.1, hg⟩
  | forward f e' forwards at_ goes state =>
    subst state goes at_
    cases he
    simp only [RouterCore.forwards, Bool.and_eq_true, beq_iff_eq] at forwards
    exact ⟨forwards.1.2, forwards.1.1, forwards.2⟩
  | began _ _ goes _ | returned _ _ _ _ goes _ | published _ _ goes _ | sentGroot _ _ goes _ | sent _ _ _ goes _
  | received _ _ _ _ goes _ | took _ _ _ _ _ goes _ | accepted _ _ _ _ _ goes _ | refuseGroot _ _ goes _ | discard _ _ _ _ goes _
  | drained _ _ _ _ _ _ _ goes _ | full _ _ _ _ _ goes _ | dropped _ _ _ _ goes _ | put _ _ _ _ _ goes _ | lost _ _ _ _ _ goes _ =>
    rw [goes] at he; cases he

theorem HandlesOver.own (hw : HandedOver w) (ha : HandlesOver i pl w) (h : routerStep pl c w = some (pl', w'))
    (hg : staleGroot w pl = false) : HandlesOver i pl' w' := by
  have hm := router_moves h
  refine ⟨by rw [step_serving h]; exact ha.serving, ha.carries_step hw hm, sending_step hm hg, fun n hn => ?_, ha.older_step hw hm⟩
  rcases step_number h with h' | h' | ⟨-, h', hne⟩
  · rw [h'] at hn; cases hn
  · exact Nat.lt_of_lt_of_le (ha.number n (h' ▸ hn)) hm.length_log
  · rw [h'] at hn
    cases hn
    rcases hm.log with hl | ⟨_, hl, -⟩
    · exact absurd hl hne
    · rw [hl]; exact Nat.lt_succ_self _

theorem HandedOver.generations_step (hw : HandedOver w) (hm : RouterMoves pl w pl' w') (s : Source) (e : Entry κ)
    (he : .handed s e ∈ w'.log) : e.generation ≤ w'.core.generation := by
  have old : .handed s e ∈ w.log → e.generation ≤ w'.core.generation := fun h =>
    Nat.le_trans (hw.generations s e h) hm.generation
  cases hm with
  | quiet _ _ _ log _ _ | selects _ _ _ log => exact old (log ▸ he)
  | published payload _ _ state | accepted _ _ payload _ _ _ state =>
    subst state
    rcases List.mem_cons.mp he with h | h
    · cases h; exact Nat.le_refl _
    · exact old h
  | began _ _ _ state | returned _ _ _ _ _ state | sentGroot _ _ _ state | sent _ _ _ _ state =>
    subst state
    exact old (by simpa using he)
  | received _ _ _ _ _ state | acceptGroot _ _ _ _ state | refuseGroot _ _ _ state | took _ _ _ _ _ _ state
  | forward _ _ _ _ _ state | discard _ _ _ _ _ state | drained _ _ _ _ _ _ _ _ state | full _ _ _ _ _ _ state
  | dropped _ _ _ _ _ state | put _ _ _ _ _ _ state | lost _ _ _ _ _ _ state =>
    subst state
    exact old he

theorem HandedOver.waiting_step (hw : HandedOver w) (ha : HandlesOver i pl w) (hm : RouterMoves pl w pl' w') :
    (∀ e ∈ w'.inbox, .handed .groot e ∈ w'.log) ∧ ∀ f, ∀ e ∈ w'.queue f, .handed f.source e ∈ w'.log := by
  have old : w'.inbox = w.inbox → w'.queue = w.queue →
      (∀ e ∈ w'.inbox, .handed .groot e ∈ w'.log) ∧ ∀ f, ∀ e ∈ w'.queue f, .handed f.source e ∈ w'.log := fun hi hq =>
    ⟨fun e he => hm.mem_log (hw.inbox e (hi ▸ he)), fun f e he => hm.mem_log (hw.queue f e (hq ▸ he))⟩
  -- A queue gets entries that it had, or that the thread had in its hands.
  have queued {f : Feed} {q : List (Entry κ)} (hs : w' = w.setQueue f q)
      (hq : ∀ e ∈ q, e ∈ w.queue f ∨ pl.carries = some (f.source, e)) :
      (∀ e ∈ w'.inbox, .handed .groot e ∈ w'.log) ∧ ∀ f, ∀ e ∈ w'.queue f, .handed f.source e ∈ w'.log := by
    refine ⟨fun e he => hm.mem_log (hw.inbox e (by subst hs; exact he)), fun g e he => hm.mem_log ?_⟩
    subst hs
    rcases Router.mem_setQueue he with ⟨rfl, hin⟩ | hin
    · rcases hq e hin with hold | hold
      · exact hw.queue g e hold
      · exact ha.carries _ e hold
    · exact hw.queue g e hin
  cases hm with
  | quiet _ queue inbox _ _ _ | selects _ queue inbox _ => exact old inbox queue
  | published payload _ _ state =>
    subst state
    refine ⟨fun e he => ?_, fun f e he => List.mem_cons_of_mem _ (hw.queue f e he)⟩
    rcases List.mem_append.mp he with he | he
    · exact List.mem_cons_of_mem _ (hw.inbox e he)
    · rw [List.mem_singleton.mp he]; exact List.mem_cons_self
  | received e' es inbox _ _ state =>
    subst state
    exact ⟨fun e he => hw.inbox e (by rw [inbox]; exact List.mem_cons_of_mem _ he), hw.queue⟩
  | took f e' es queue _ _ state | drained _ _ f e' es queue _ _ state =>
    exact queued state fun e he => Or.inl (by rw [queue]; exact List.mem_cons_of_mem _ he)
  | dropped n f e' _ _ state => exact queued state fun e he => Or.inl (List.mem_of_mem_tail he)
  | put n f e' _ at_ _ state =>
    refine queued state fun e he => ?_
    rcases List.mem_append.mp he with he | he
    · exact Or.inl he
    · rw [List.mem_singleton.mp he]
      rcases at_ with at_ | at_ <;> exact Or.inr (by rw [at_]; rfl)
  | began _ _ _ state | returned _ _ _ _ _ state | sentGroot _ _ _ state | sent _ _ _ _ state
  | accepted _ _ _ _ _ _ state | acceptGroot _ _ _ _ state | refuseGroot _ _ _ state | forward _ _ _ _ _ state
  | discard _ _ _ _ _ state | full _ _ _ _ _ _ state | lost _ _ _ _ _ _ state =>
    subst state
    exact old rfl rfl

/-- What was handed over before a call that has returned is of an older generation. -/
theorem HandedOver.older_step (hw : HandedOver w) (ha : HandlesOver i pl w) (hm : RouterMoves pl w pl' w') (s : Source)
    (e : Entry κ) (n : Nat) (r : RouterCall κ) (hr : r.handsOver = true)
    (hs : [RouterEvent.returned n r, .began n r, .handed s e].Sublist w'.log) : e.generation < w'.core.generation := by
  have old : [RouterEvent.returned n r, .began n r, .handed s e].Sublist w.log → e.generation < w'.core.generation :=
    fun h => Nat.lt_of_lt_of_le (hw.older s e n r hr h) hm.generation
  cases hm with
  | quiet _ _ _ log _ _ | selects _ _ _ log => exact old (log ▸ hs)
  | returned n' r' res at_ _ state =>
    subst state
    rcases List.sublist_cons_iff.mp hs with h | ⟨_, h, ht⟩
    · exact old h
    · cases h
      exact ha.older n r s e (by rw [at_]; simp [RouterPlace.handingOver, hr]) ht
  | began _ _ _ state | published _ _ _ state | sentGroot _ _ _ state | sent _ _ _ _ state
  | accepted _ _ _ _ _ _ state =>
    subst state
    exact old (sublist_of_cons hs (by simp))
  | received _ _ _ _ _ state | acceptGroot _ _ _ _ state | refuseGroot _ _ _ state | took _ _ _ _ _ _ state
  | forward _ _ _ _ _ state | discard _ _ _ _ _ state | drained _ _ _ _ _ _ _ _ state | full _ _ _ _ _ _ state
  | dropped _ _ _ _ _ state | put _ _ _ _ _ _ state | lost _ _ _ _ _ _ state =>
    subst state
    exact old hs

/-- What is sent is of the current generation, so no call has returned since it was handed over. -/
theorem HandedOver.safe_step (hw : HandedOver w) (ha : HandlesOver i pl w) (hm : RouterMoves pl w pl' w') (s : Source)
    (e : Entry κ) (n : Nat) (r : RouterCall κ) (hr : r.handsOver = true) :
    ¬[RouterEvent.sent s e, .returned n r, .began n r, .handed s e].Sublist w'.log := by
  intro hs
  have sent {s' : Source} {e' : Entry κ} (hsend : pl.sending = some (s', e')) (hl : w'.log = .sent s' e' :: w.log) : False := by
    rw [hl] at hs
    rcases List.sublist_cons_iff.mp hs with h | ⟨_, h, ht⟩
    · exact hw.safe s e n r hr h
    · cases h
      obtain ⟨-, -, hgen⟩ := ha.sending _ _ hsend
      have := hw.older _ _ n r hr ht
      omega
  cases hm with
  | quiet _ _ _ log _ _ | selects _ _ _ log => exact hw.safe s e n r hr (log ▸ hs)
  | sentGroot e' at_ _ state => exact sent (by rw [at_]; rfl) (by rw [state])
  | sent f e' at_ _ state => exact sent (by rw [at_]; rfl) (by rw [state])
  | began _ _ _ state | published _ _ _ state | returned _ _ _ _ _ state | accepted _ _ _ _ _ _ state =>
    subst state
    exact hw.safe s e n r hr (sublist_of_cons hs (by simp))
  | received _ _ _ _ _ state | acceptGroot _ _ _ _ state | refuseGroot _ _ _ state | took _ _ _ _ _ _ state
  | forward _ _ _ _ _ state | discard _ _ _ _ _ state | drained _ _ _ _ _ _ _ _ state | full _ _ _ _ _ _ state
  | dropped _ _ _ _ _ state | put _ _ _ _ _ _ state | lost _ _ _ _ _ _ state =>
    subst state
    exact hw.safe s e n r hr hs

theorem HandedOver.step (hw : HandedOver w) (ha : HandlesOver i pl w) (hm : RouterMoves pl w pl' w') : HandedOver w' :=
  ⟨hw.generations_step hm, (hw.waiting_step ha hm).1, (hw.waiting_step ha hm).2, hw.older_step ha hm, hw.safe_step ha hm⟩

/-! ### The law -/

/-- Every run that hits neither window keeps the law of the hand-off. -/
theorem router_handoff_safe {p : Pool (Router κ) (RouterPlace κ)} (h : (routerMachine κ).Reach Undisturbed p) :
    HandoffSafe p := by
  obtain ⟨hw, ha⟩ : HandedOver p.shared ∧ ∀ i, HandlesOver i (p.threads i) p.shared := by
    refine Threads.invariant h ?_ ?_ ?_
    · rintro _ rfl
      refine ⟨⟨nofun, nofun, nofun, nofun, nofun⟩, fun i => ?_⟩
      by_cases hi : i = 0
      · subst hi
        exact ⟨rfl, nofun, nofun, nofun, nofun⟩
      · simp only [routerInit, hi, if_false]
        exact ⟨by simp [RouterPlace.serving, hi], nofun, nofun, nofun, nofun⟩
    · intro p i c r _ hg hr hw ha
      exact ⟨hw.step (ha i) (router_moves hr), (ha i).own hw hr hg.2⟩
    · intro p i c r j _ hg hr _ ha hj
      refine (ha j).step (router_moves hr) fun hsend => ?_
      -- Only the router thread sends.
      obtain ⟨⟨s, e⟩, hse⟩ := Option.isSome_iff_exists.mp hsend
      obtain rfl : j = 0 := by
        have := (ha j).serving
        rw [RouterPlace.serving_of_sending hse] at this
        simpa using this.symm
      simpa [hsend] using hg.1
  refine ⟨fun i s e hse => ?_, hw.safe⟩
  obtain ⟨h₁, h₂, -⟩ := (ha i).sending s e hse
  refine ⟨h₁, h₂, (ha i).carries s e ?_⟩
  cases hpl : p.threads i <;> rw [hpl] at hse <;> simp_all [RouterPlace.sending, RouterPlace.carries]

/-! ### The window

The router thread accepts a payload and releases the lock, `halt` runs from its first step to its
return, and then the payload is sent. -/

/-- The gate is opened, and one payload is submitted and accepted by the router thread. -/
def forwarding : List (Nat × RouterChoice Nat) :=
  [(1, .call .resume), (1, .go), (1, .go), (1, .call (.submit .psi 7)), (1, .go), (1, .go), (1, .go)] ++
  List.replicate 5 (0, .go)

/-- A `halt` begins and returns before the payload is sent. -/
def haltedForwarding : List (Nat × RouterChoice Nat) :=
  forwarding ++ [(2, .call .halt)] ++ List.replicate 5 (2, .go) ++ [(0, .go)]

/-- Not every run keeps the law of the hand-off: this one sends a payload after the `halt` that follows it. -/
theorem halt_does_not_stop_send : ¬∀ p, (routerMachine Nat).Reach Machine.Free p → HandoffSafe p := by
  intro h
  obtain ⟨p, hp, hs⟩ : ∃ p ∈ (routerMachine Nat).run routerInit haltedForwarding,
      [RouterEvent.sent .psi ⟨0, 3, 7⟩, .returned 5 .halt, .began 5 .halt, .handed .psi ⟨0, 3, 7⟩].Sublist p.shared.log := by decide
  exact (h p ⟨_, rfl, Machine.path_of_run hp (Machine.meets_free _ _)⟩).unsent _ _ _ _ rfl hs

/-- A payload that waits is discarded by a `halt`, and after the gate is opened again another is accepted. -/
def haltedQueue : List (Nat × RouterChoice Nat) :=
  [(1, .call .resume), (1, .go), (1, .go), (1, .call (.submit .psi 7)), (1, .go), (1, .go), (1, .go), (2, .call .halt)] ++
  List.replicate 6 (2, .go) ++
  [(1, .call .resume), (1, .go), (1, .go), (1, .call (.submit .psi 8)), (1, .go), (1, .go), (1, .go)] ++
  List.replicate 5 (0, .go)

/-- The second payload is about to be sent after the `halt` that followed the first has returned. -/
theorem router_handoff_safe_forwarding : ∃ p : Pool (Router Nat) (RouterPlace Nat),
    (p.threads 0).sending = some (.psi, ⟨1, 10, 8⟩) ∧
    [RouterEvent.returned 5 .halt, .began 5 .halt, .handed .psi ⟨0, 3, 7⟩].Sublist p.shared.log ∧ HandoffSafe p := by
  have hmeets : (routerMachine Nat).Meets Undisturbed routerInit haltedQueue := by decide
  obtain ⟨p, hp, hsend, hlog⟩ : ∃ p ∈ (routerMachine Nat).run routerInit haltedQueue,
      (p.threads 0).sending = some (.psi, ⟨1, 10, 8⟩) ∧
      [RouterEvent.returned 5 .halt, .began 5 .halt, .handed .psi ⟨0, 3, 7⟩].Sublist p.shared.log := by decide
  exact ⟨p, hsend, hlog, router_handoff_safe ⟨_, rfl, Machine.path_of_run hp hmeets⟩⟩

end HumanoidLab
