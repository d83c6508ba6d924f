import HumanoidLab.Theorems.RouterRelay

/-! The delivery law of the router, with one producer for each source: what is sent is a subsequence of
    what was accepted, a payload that is missing was outdated or overtaken, and the newest payload of the
    current generation is never missing. A drain that runs on after its lock, the drop of a queue that is
    no longer full and a close in between lose payloads that are neither, so the law holds of the runs in
    which these take no payload of the current generation. -/

namespace HumanoidLab
open Concurrency

variable {κ : Type}

/-- The payload waits in the queue, or it is on its way through it: in a `submit` that has not returned,
    or in the router thread between its get and its send. -/
def Waiting (p : Pool (Router κ) (RouterPlace κ)) (f : Feed) (e : Entry κ) : Prop :=
  e ∈ p.shared.queue f ∨ ∃ i, (p.threads i).carries = some (f.source, e)

/-- The delivery law of a source. -/
structure Delivers (p : Pool (Router κ) (RouterPlace κ)) (f : Feed) : Prop where
  /-- What was sent is a subsequence of what was accepted, and no payload is sent twice. -/
  order : (sentOf f.source p.shared.log).Sublist (acceptedOf f.source p.shared.log)
  once : (sentOf f.source p.shared.log).Nodup
  /-- A payload is missing only if the generation has changed or two later ones were accepted. -/
  missing : ∀ e ∈ acceptedOf f.source p.shared.log, e ∈ sentOf f.source p.shared.log ∨ Waiting p f e ∨
    e.generation < p.shared.core.generation ∨ ∃ y z, [e, y, z].Sublist (acceptedOf f.source p.shared.log)
  /-- The newest payload accepted in the current generation is not missing. -/
  newest : ∀ e ∈ acceptedOf f.source p.shared.log, e.generation = p.shared.core.generation →
    (∀ e' ∈ acceptedOf f.source p.shared.log, e'.generation = p.shared.core.generation → e'.ticket ≤ e.ticket) →
    e ∈ sentOf f.source p.shared.log ∨ Waiting p f e

/-- A step that removes an entry from a queue, other than to forward it, removes none of the current
    generation, unless it is the drop of a queue that is full; and the router is not closed when an entry
    of the current generation is checked. -/
def keepsCurrent (w : Router κ) : RouterPlace κ → Bool
  | .drain _ _ f => (w.queue f).head?.all fun e => e.generation != w.core.generation
  | .drop _ f _ => queueSize ≤ (w.queue f).length || (w.queue f).head?.all fun e => e.generation != w.core.generation
  | .check _ e => !w.core.closed || e.generation != w.core.generation
  | _ => true

/-- The guard of the runs for which the law holds: one producer for each source, and no loss of the
    current generation. -/
def Orderly (producer : Feed → Nat) (p : Pool (Router κ) (RouterPlace κ)) (a : Nat × RouterChoice κ) : Prop :=
  OneProducer producer p a ∧ keepsCurrent p.shared (p.threads a.1) = true

instance (producer : Feed → Nat) (p : Pool (Router κ) (RouterPlace κ)) (a : Nat × RouterChoice κ) :
    Decidable (Orderly producer p a) :=
  inferInstanceAs (Decidable (_ ∧ _))

/-! ### What was accepted -/

/-- Entries in the order of their tickets, and of their generations. -/
def Entry.Before (e e' : Entry κ) : Prop := e.ticket < e'.ticket ∧ e.generation ≤ e'.generation

/-- What was accepted is in order; what was accepted in the current generation was accepted for the
    source that is still selected, with the gate still open, unless the router is closed. -/
structure Accepted (w : Router κ) : Prop where
  order : ∀ s, (acceptedOf s w.log).Pairwise Entry.Before
  ticket : ∀ s, ∀ e ∈ acceptedOf s w.log, e.ticket < w.log.length
  generation : ∀ s, ∀ e ∈ acceptedOf s w.log, e.generation ≤ w.core.generation
  open_ : ∀ f : Feed, ∀ e ∈ acceptedOf f.source w.log, e.generation = w.core.generation → w.core.closed = false →
    w.core.gate = true ∧ w.core.source = f.source

variable {pl pl' : RouterPlace κ} {w w' : Router κ}

theorem RouterMoves.accepts (h : RouterMoves pl w pl' w') (s : Source) :
    acceptedOf s w'.log = acceptedOf s w.log ∨
    ∃ payload, acceptedOf s w'.log = acceptedOf s w.log ++ [w.entry payload] ∧ w'.core = w.core ∧
      w.log.length < w'.log.length ∧ (s = .groot ∨ w.core.accept s = true) := by
  cases h with
  | quiet _ _ _ log _ _ | selects _ _ _ log => exact Or.inl (by rw [log])
  | published payload _ _ state =>
    subst state
    by_cases hs : s = .groot
    · exact Or.inr ⟨payload, by simp [acceptedOf, hs], rfl, Nat.lt_succ_self _, Or.inl hs⟩
    · exact Or.inl (by simp [acceptedOf, Ne.symm hs])
  | accepted n f payload accept _ _ state =>
    subst state
    by_cases hs : f.source = s
    · exact Or.inr ⟨payload, by simp [acceptedOf, hs], rfl, Nat.lt_succ_self _, Or.inr (hs ▸ accept)⟩
    · exact Or.inl (by simp [acceptedOf, hs])
  | began _ _ _ state | returned _ _ _ _ _ state | sentGroot _ _ _ state | sent _ _ _ _ state
  | received _ _ _ _ _ state | acceptGroot _ _ _ _ state | refuseGroot _ _ _ state | took _ _ _ _ _ _ state
  | forward _ _ _ _ _ state | discard _ _ _ _ _ state | drained _ _ _ _ _ _ _ _ state | full _ _ _ _ _ _ state
  | dropped _ _ _ _ _ state | put _ _ _ _ _ _ state | lost _ _ _ _ _ _ state =>
    subst state
    exact Or.inl rfl

theorem Accepted.step (ha : Accepted w) (h : RouterMoves pl w pl' w') : Accepted w' := by
  refine ⟨fun s => ?_, fun s e he => ?_, fun s e he => ?_, fun f e he hgen hcl => ?_⟩
  · rcases h.accepts s with hs | ⟨payload, hs, -⟩ <;> rw [hs]
    · exact ha.order s
    · refine List.pairwise_append.mpr ⟨ha.order s, List.pairwise_singleton _ _, fun e he e' he' => ?_⟩
      rw [List.mem_singleton.mp he']
      exact ⟨ha.ticket s e he, ha.generation s e he⟩
  · rcases h.accepts s with hs | ⟨payload, hs, -, hl, -⟩ <;> rw [hs] at he
    · exact Nat.lt_of_lt_of_le (ha.ticket s e he) h.length_log
    · rcases List.mem_append.mp he with he | he
      · exact Nat.lt_of_lt_of_le (ha.ticket s e he) h.length_log
      · rw [List.mem_singleton.mp he]; exact hl
  · rcases h.accepts s with hs | ⟨payload, hs, hc, -⟩ <;> rw [hs] at he
    · exact Nat.le_trans (ha.generation s e he) h.generation
    · rcases List.mem_append.mp he with he | he
      · exact Nat.le_trans (ha.generation s e he) h.generation
      · rw [List.mem_singleton.mp he, hc]; exact Nat.le_refl _
  · rcases h.accepts f.source with hs | ⟨payload, hs, hc, -, hacc⟩ <;> rw [hs] at he
    · rcases h.core with hsel | hsel
      · obtain ⟨e₁, e₂, e₃, e₄⟩ := RouterCore.selection_eq hsel
        rw [e₁, e₂]
        exact ha.open_ f e he (e₄ ▸ hgen) (e₃ ▸ hcl)
      · have := ha.generation _ e he
        cases hsel with
        | select _ _ _ _ core | halt _ _ _ core => rw [hgen, core] at this; exact absurd this (Nat.not_succ_le_self _)
        | resume _ _ _ _ core =>
          rw [core] at hgen hcl ⊢
          exact ⟨rfl, (ha.open_ f e he hgen hcl).2⟩
        | close _ _ _ _ core => rw [core] at hcl; cases hcl
    · rw [hc] at hgen hcl ⊢
      rcases List.mem_append.mp he with he | he
      · exact ha.open_ f e he hgen hcl
      · rcases hacc with hacc | hacc
        · exact absurd hacc f.source_ne_groot
        · simp only [RouterCore.accept, Bool.and_eq_true, beq_iff_eq] at hacc
          exact hacc.1

/-! ### Room in the queues -/

/-- No queue is longer than its capacity, and the second put of a `submit` finds room. -/
structure Room (p : Pool (Router κ) (RouterPlace κ)) : Prop where
  capacity : ∀ f, (p.shared.queue f).length ≤ queueSize
  again : ∀ i n f e, p.threads i = .putAgain n f e → (p.shared.queue f).length < queueSize

theorem RouterMoves.queue_length (h : RouterMoves pl w pl' w') (f : Feed) :
    (w'.queue f).length ≤ (w.queue f).length ∨ (pl.submits = some f ∧ (w'.queue f).length ≤ queueSize) := by
  have set {g : Feed} {q : List (Entry κ)} (hs : w' = w.setQueue g q) (hq : q.length ≤ (w.queue g).length) :
      (w'.queue f).length ≤ (w.queue f).length := by
    subst hs
    by_cases hg : f = g
    · subst hg; rw [Router.setQueue_self]; exact hq
    · exact Nat.le_of_eq (by rw [Router.setQueue_other w q hg])
  cases h with
  | quiet _ queue _ _ _ _ | selects _ queue _ _ => exact Or.inl (Nat.le_of_eq (by rw [queue]))
  | took g e es queue _ _ state | drained _ _ g e es queue _ _ state =>
    exact Or.inl (set state (by rw [queue]; exact Nat.le_succ _))
  | dropped n g z _ _ state => exact Or.inl (set state (by rw [List.length_tail]; exact Nat.sub_le _ _))
  | put n g e queue at_ _ state =>
    subst state
    by_cases hg : f = g
    · subst hg
      refine Or.inr ⟨by rcases at_ with at_ | at_ <;> rw [at_] <;> rfl, ?_⟩
      rw [Router.setQueue_self, List.length_append]
      exact queue
    · exact Or.inl (Nat.le_of_eq (by rw [Router.setQueue_other w _ hg]))
  | began _ _ _ state | returned _ _ _ _ _ state | published _ _ _ state | sentGroot _ _ _ state | sent _ _ _ _ state
  | accepted _ _ _ _ _ _ state | received _ _ _ _ _ state | acceptGroot _ _ _ _ state | refuseGroot _ _ _ state
  | forward _ _ _ _ _ state | discard _ _ _ _ _ state | full _ _ _ _ _ _ state | lost _ _ _ _ _ _ state =>
    subst state
    exact Or.inl (Nat.le_refl _)

/-- The second put of a `submit` comes after its drop. -/
theorem RouterMoves.queue_again {n : Nat} {f : Feed} {e : Entry κ} (h : RouterMoves pl w pl' w')
    (hp : pl' = .putAgain n f e) : w'.queue f = (w.queue f).tail := by
  subst hp
  cases h with
  | quiet _ _ _ _ carries _ => cases carries.2
  | selects sel _ _ _ =>
    cases sel with
    | select _ _ _ goes _ | halt _ _ goes _ | resume _ _ goes _ _ | close _ _ goes _ _ => cases goes
  | dropped n' g z _ goes state =>
    cases goes
    rw [state, Router.setQueue_self]
  | began _ _ goes _ | returned _ _ _ _ goes _ | published _ _ goes _ | sentGroot _ _ goes _ | sent _ _ _ goes _
  | received _ _ _ _ goes _ | took _ _ _ _ _ goes _ | accepted _ _ _ _ _ goes _ | acceptGroot _ _ _ goes _
  | refuseGroot _ _ goes _ | forward _ _ _ _ goes _ | discard _ _ _ _ goes _ | drained _ _ _ _ _ _ _ goes _
  | full _ _ _ _ _ goes _ | put _ _ _ _ _ goes _ | lost _ _ _ _ _ goes _ => cases goes

section
variable {producer : Feed → Nat} {p : Pool (Router κ) (RouterPlace κ)} {i : Nat} {c : RouterChoice κ}

theorem Room.step (hr : Roles producer p) (hroom : Room p) (h : RouterMoves (p.threads i) p.shared pl' w') :
    Room (p.set i (pl', w')) := by
  refine ⟨fun f => ?_, fun j n f e hj => ?_⟩ <;> rw [Pool.set_shared]
  · rcases h.queue_length f with hl | ⟨-, hl⟩
    · exact Nat.le_trans hl (hroom.capacity f)
    · exact hl
  · by_cases hij : j = i
    · subst hij
      rw [Pool.set_self] at hj
      have := hroom.capacity f
      rw [h.queue_again hj, List.length_tail]
      simp only [queueSize] at *
      omega
    · rw [Pool.set_other p _ hij] at hj
      rcases h.queue_length f with hl | ⟨hsub, -⟩
      · exact Nat.lt_of_le_of_lt hl (hroom.again j n f e hj)
      · exact absurd ((hr.submits j f (by rw [hj]; rfl)).trans (hr.submits i f hsub).symm) hij

/-! ### The account -/

/-- Why a payload may be missing. -/
def Excused (w : Router κ) (f : Feed) (e : Entry κ) : Prop :=
  e.generation < w.core.generation ∨ ∃ y z, [e, y, z].Sublist (acceptedOf f.source w.log)

/-- What holds of the relays of a run. -/
structure Accounted (producer : Feed → Nat) (p : Pool (Router κ) (RouterPlace κ)) : Prop where
  accepted : Accepted p.shared
  room : Room p
  order : ∀ f, (relay producer p f).flow.Sublist (relay producer p f).accepted
  account : ∀ f, ∀ e ∈ (relay producer p f).accepted, e ∈ (relay producer p f).flow ∨ Excused p.shared f e

/-- In an orderly run a step loses only entries of an older generation and the oldest of a full queue. -/
theorem Accounted.excused (ha : Accounted producer p) (hr : Roles producer p) (hg : keepsCurrent p.shared (p.threads i) = true)
    {f : Feed} {e : Entry κ} (hl : Loses p.shared (p.threads i) f e) : Excused p.shared f e := by
  have older (hf : e ∈ (relay producer p f).flow) (hne : e.generation ≠ p.shared.core.generation) :
      Excused p.shared f e :=
    Or.inl (Nat.lt_of_le_of_ne (ha.accepted.generation _ e ((ha.order f).subset hf)) hne)
  have queued {es : List (Entry κ)} (hq : p.shared.queue f = e :: es) : e ∈ (relay producer p f).flow := by
    simp [Relay.flow, relay, hq]
  cases hl with
  | discard at_ forwards =>
    have hi : i = 0 := by simpa [hr.serving i] using show (p.threads i).serving = true by rw [at_]; rfl
    subst hi
    have hf : e ∈ (relay producer p f).flow := by simp [Relay.flow, relay, at_, RouterPlace.hand]
    refine older hf fun hgen => ?_
    have hopen : p.shared.core.closed = false := by simpa [at_, keepsCurrent, hgen] using hg
    obtain ⟨h₁, h₂⟩ := ha.accepted.open_ f e ((ha.order f).subset hf) hgen hopen
    simp [RouterCore.forwards, h₁, h₂, hgen] at forwards
  | drained n r es at_ queue =>
    refine older (queued queue) ?_
    simpa [at_, keepsCurrent, queue] using hg
  | dropped n z es at_ queue =>
    have hi : i = producer f := hr.submits i f (by rw [at_]; rfl)
    subst hi
    cases es with
    | nil =>
      refine older (queued queue) ?_
      simpa [at_, keepsCurrent, queue, queueSize] using hg
    | cons y ys => exact Or.inr ⟨y, z, Relay.two_later queue (by simp [relay, at_, RouterPlace.pending]) (ha.order f)⟩
  | lost n at_ queue => exact absurd (ha.room.again i n f e at_) (Nat.not_lt_of_le queue)

theorem Accounted.step (ha : Accounted producer p) (hr : Roles producer p) (hg : keepsCurrent p.shared (p.threads i) = true)
    (hs : routerStep (p.threads i) c p.shared = some (pl', w')) : Accounted producer (p.set i (pl', w')) := by
  have hm := router_moves hs
  refine ⟨ha.accepted.step hm, ha.room.step hr hm, fun f => ?_, fun f => ?_⟩
  · obtain ⟨l, hl, -⟩ := relay_step hr hs f
    exact hl.sublist (ha.order f)
  · obtain ⟨l, hl, hloss⟩ := relay_step hr hs f
    have stays : ∀ e, Excused p.shared f e → Excused w' f e := fun e h =>
      h.imp (fun h => Nat.lt_of_lt_of_le h hm.generation) fun ⟨y, z, h⟩ => ⟨y, z, h.trans hl.accepted⟩
    exact hl.account (ha.account f) stays fun e he => stays e (ha.excused hr hg (hloss e he))

theorem accounted_reach (h : (routerMachine κ).Reach (Orderly producer) p) : Accounted producer p := by
  refine h.invariant ?_ ?_
  · rintro _ rfl
    refine ⟨⟨fun _ => .nil, nofun, nofun, nofun⟩, ⟨fun _ => Nat.zero_le _, fun i n f e hi => ?_⟩, fun f => ?_, fun f => nofun⟩
    · by_cases h0 : i = 0 <;> simp [routerInit, h0] at hi
    · by_cases h0 : producer f = 0 <;> simp [relay, Relay.flow, routerInit, h0, RouterPlace.pending, RouterPlace.hand, sentOf]
  · rintro p ⟨i, c⟩ q hp ha hg hs
    obtain ⟨⟨pl', w'⟩, hr, rfl⟩ := Threads.step_eq_some.mp hs
    exact ha.step (roles_reach (fun _ _ h => h.1) hp) hg.2 hr

/-! ### The law -/

/-- Every orderly run delivers the payloads of each source. -/
theorem router_delivers (h : (routerMachine κ).Reach (Orderly producer) p) (f : Feed) : Delivers p f := by
  have ha := accounted_reach h
  have hsent : (sentOf f.source p.shared.log).Sublist (relay producer p f).flow := by
    simp only [Relay.flow, List.append_assoc]
    exact List.sublist_append_left _ _
  have missing : ∀ e ∈ acceptedOf f.source p.shared.log, e ∈ sentOf f.source p.shared.log ∨ Waiting p f e ∨
      e.generation < p.shared.core.generation ∨ ∃ y z, [e, y, z].Sublist (acceptedOf f.source p.shared.log) := fun e he => by
    rcases ha.account f e he with hf | hx
    · simp only [Relay.flow, List.mem_append] at hf
      rcases hf with ((hf | hf) | hf) | hf
      · exact Or.inl hf
      · exact Or.inr (Or.inl (Or.inr ⟨0, RouterPlace.carries_of_hand hf⟩))
      · exact Or.inr (Or.inl (Or.inl hf))
      · exact Or.inr (Or.inl (Or.inr ⟨producer f, RouterPlace.carries_of_pending hf⟩))
    · exact Or.inr (Or.inr hx)
  refine ⟨hsent.trans (ha.order f), ?_, missing, fun e he hgen hnew => ?_⟩
  · refine (hsent.trans (ha.order f)).nodup ?_
    exact (ha.accepted.order f.source).imp fun h heq => absurd (heq ▸ h.1) (Nat.lt_irrefl _)
  · rcases missing e he with h | h | h | ⟨y, z, h⟩
    · exact Or.inl h
    · exact Or.inr h
    · omega
    · -- A payload accepted later is of the current generation too.
      have hy : y ∈ acceptedOf f.source p.shared.log := h.subset (by simp)
      have hbefore : e.Before y := by
        have := (ha.accepted.order f.source).sublist h
        simp only [List.pairwise_cons] at this
        exact this.1 y (by simp)
      have := hnew y hy (Nat.le_antisymm (ha.accepted.generation _ y hy) (hgen ▸ hbefore.2))
      exact absurd hbefore.1 (Nat.not_lt_of_le this)

end

/-! ### The drop of a queue that is no longer full

The put of a third payload finds the queue full, the router thread takes the first one, and the drop
removes the second: only one later payload was accepted. -/

/-- Thread 1 submits two payloads, and a third one up to its drop. -/
def fillQueue : List (Nat × RouterChoice Nat) :=
  [(2, .call .resume), (2, .go), (2, .go)] ++
  [(1, .call (.submit .psi 1)), (1, .go), (1, .go), (1, .go), (1, .call (.submit .psi 2)), (1, .go), (1, .go), (1, .go)] ++
  [(1, .call (.submit .psi 3)), (1, .go), (1, .go)]

/-- The router thread takes the first payload, and the third `submit` goes on to its return. -/
def overtakenDrop : List (Nat × RouterChoice Nat) :=
  fillQueue ++ List.replicate 4 (0, .go) ++ List.replicate 3 (1, .go)

/-- Not every run with one producer delivers: this one loses a payload with one later payload accepted. -/
theorem overtaken_drop_loses_payload :
    ¬∀ (producer : Feed → Nat) p, (routerMachine Nat).Reach (OneProducer producer) p → ∀ f, Delivers p f := by
  intro h
  have hmeets : (routerMachine Nat).Meets (OneProducer fun _ => 1) routerInit overtakenDrop := by decide
  obtain ⟨p, hp, hacc, hsent, hqueue, h0, h1, h2, hgen⟩ : ∃ p ∈ (routerMachine Nat).run routerInit overtakenDrop,
      acceptedOf .psi p.shared.log = [⟨0, 3, 1⟩, ⟨0, 6, 2⟩, ⟨0, 9, 3⟩] ∧ sentOf .psi p.shared.log = [] ∧
      p.shared.queue .psi = [⟨0, 9, 3⟩] ∧ p.threads 0 = .check .psi ⟨0, 3, 1⟩ ∧ p.threads 1 = .idle ∧
      p.threads 2 = .idle ∧ p.shared.core.generation = 0 := by decide
  have hd := h _ p ⟨_, rfl, Machine.path_of_run hp hmeets⟩ .psi
  rcases hd.missing ⟨0, 6, 2⟩ (by rw [show Feed.source .psi = .psi from rfl, hacc]; simp) with hm | hm | hm | ⟨y, z, hm⟩
  · rw [show Feed.source .psi = .psi from rfl, hsent] at hm
    cases hm
  · rcases hm with hm | ⟨i, hm⟩
    · rw [hqueue] at hm
      simp at hm
    · by_cases hi : i = 0 ∨ i = 1 ∨ i = 2
      · rcases hi with rfl | rfl | rfl
        · rw [h0] at hm; simp [RouterPlace.carries] at hm
        · rw [h1] at hm; cases hm
        · rw [h2] at hm; cases hm
      · -- No other thread takes a step.
        have hother : p.threads i = .idle := by
          refine (Threads.run_other hp fun a ha => ?_).trans (by simp [routerInit]; omega)
          have : a.1 = 0 ∨ a.1 = 1 ∨ a.1 = 2 := by
            revert a
            decide
          omega
        rw [hother] at hm
        cases hm
  · rw [hgen] at hm
    cases hm
  · rw [show Feed.source .psi = .psi from rfl, hacc] at hm
    have := hm.eq_of_length rfl
    simp at this

/-- The payloads of an orderly run, with the drop of a queue that is still full. -/
theorem router_delivers_fillQueue : ∃ p : Pool (Router Nat) (RouterPlace Nat),
    p.shared.queue .psi = [⟨0, 6, 2⟩, ⟨0, 9, 3⟩] ∧ Delivers p .psi := by
  have hmeets : (routerMachine Nat).Meets (Orderly fun _ => 1) routerInit (fillQueue ++ List.replicate 3 (1, .go)) := by decide
  obtain ⟨p, hp, hqueue⟩ : ∃ p ∈ (routerMachine Nat).run routerInit (fillQueue ++ List.replicate 3 (1, .go)),
      p.shared.queue .psi = [⟨0, 6, 2⟩, ⟨0, 9, 3⟩] := by decide
  exact ⟨p, hqueue, router_delivers ⟨_, rfl, Machine.path_of_run hp hmeets⟩ .psi⟩

end HumanoidLab
