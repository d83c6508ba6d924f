import HumanoidLab.Lib.Relay
import HumanoidLab.Theorems.RouterSteps

/-! Each queue of the router is a relay, from the block of `_submit` that accepts a payload to the port:
    the payload is pending in the caller until it is put, and in the hand of the router thread between its
    get and its send. With one producer for each source, every step of the router is a step of the relay. -/

namespace HumanoidLab
open Concurrency

variable {κ : Type}

/-- The payloads of a source that the router was handed, oldest first. -/
def acceptedOf (s : Source) : List (RouterEvent κ) → List (Entry κ)
  | [] => []
  | .handed s' e :: es => if s' = s then acceptedOf s es ++ [e] else acceptedOf s es
  | _ :: es => acceptedOf s es

/-- The payloads of a source that were sent on the public port, oldest first. -/
def sentOf (s : Source) : List (RouterEvent κ) → List (Entry κ)
  | [] => []
  | .sent s' e :: es => if s' = s then sentOf s es ++ [e] else sentOf s es
  | _ :: es => sentOf s es

/-- The payload that a caller has accepted for `f` and not put into the queue. -/
def RouterPlace.pending (f : Feed) : RouterPlace κ → List (Entry κ)
  | .put _ g e | .drop _ g e | .putAgain _ g e => if g = f then [e] else []
  | _ => []

/-- The payload that the router thread has taken from the queue of `f` and not sent. -/
def RouterPlace.hand (f : Feed) : RouterPlace κ → List (Entry κ)
  | .check g e | .send g e => if g = f then [e] else []
  | _ => []

/-- The queue that a caller submits to. -/
def RouterPlace.submits : RouterPlace κ → Option Feed
  | .lock _ (.submit f _) | .put _ f _ | .drop _ f _ | .putAgain _ f _ => some f
  | _ => none

/-- The relay of a queue, when `producer f` is the thread that submits to it. -/
def relay (producer : Feed → Nat) (p : Pool (Router κ) (RouterPlace κ)) (f : Feed) : Relay (Entry κ) where
  accepted := acceptedOf f.source p.shared.log
  pending := (p.threads (producer f)).pending f
  queue := p.shared.queue f
  hand := (p.threads 0).hand f
  sent := sentOf f.source p.shared.log

/-- A thread that calls `submit` is the producer of the queue. -/
def ownFeed (producer : Feed → Nat) (i : Nat) : RouterPlace κ → RouterChoice κ → Bool
  | .idle, .call (.submit f _) => i == producer f
  | _, _ => true

/-- The guard of one producer for each source. -/
def OneProducer (producer : Feed → Nat) (p : Pool (Router κ) (RouterPlace κ)) (a : Nat × RouterChoice κ) : Prop :=
  ownFeed producer a.1 (p.threads a.1) a.2 = true

instance (producer : Feed → Nat) (p : Pool (Router κ) (RouterPlace κ)) (a : Nat × RouterChoice κ) :
    Decidable (OneProducer producer p a) :=
  inferInstanceAs (Decidable (_ = true))

/-- The steps that lose an entry of a queue. -/
inductive Loses (w : Router κ) (pl : RouterPlace κ) (f : Feed) (e : Entry κ) : Prop
  | discard (at_ : pl = .check f e) (forwards : w.core.forwards f e.generation = false)
  | drained (n : Nat) (r : RouterCall κ) (es : List (Entry κ)) (at_ : pl = .drain n r f) (queue : w.queue f = e :: es)
  | dropped (n : Nat) (z : Entry κ) (es : List (Entry κ)) (at_ : pl = .drop n f z) (queue : w.queue f = e :: es)
  | lost (n : Nat) (at_ : pl = .putAgain n f e) (queue : queueSize ≤ (w.queue f).length)

/-! ### Who submits and who forwards -/

variable {pl pl' : RouterPlace κ} {c : RouterChoice κ} {w w' : Router κ} {f : Feed}

theorem Feed.source_injective {f g : Feed} (h : f.source = g.source) : f = g := by cases f <;> cases g <;> simp_all [source]

theorem Feed.source_ne_groot (f : Feed) : f.source ≠ .groot := by cases f <;> simp [source]

theorem RouterPlace.of_carries_none (h : pl.carries = none) : pl.hand f = [] ∧ pl.pending f = [] := by
  cases pl <;> simp_all [carries, hand, pending]

theorem RouterPlace.carries_of_hand {e : Entry κ} (h : e ∈ pl.hand f) : pl.carries = some (f.source, e) := by
  cases pl <;> simp_all [hand, carries]

theorem RouterPlace.carries_of_pending {e : Entry κ} (h : e ∈ pl.pending f) : pl.carries = some (f.source, e) := by
  cases pl <;> simp_all [pending, carries]

/-- A thread in a `submit` began it. -/
theorem step_submits (h : routerStep pl c w = some (pl', w')) :
    pl'.submits = none ∨ pl'.submits = pl.submits ∨
    ∃ f payload, pl = .idle ∧ c = .call (.submit f payload) ∧ pl'.submits = some f := by
  cases pl with
  | lock n r =>
    cases c <;> simp only [routerStep, reduceCtorEq] at h
    cases r <;> simp only [routerLock] at h <;> (try split at h) <;> cases h <;> first | exact Or.inl rfl | exact Or.inr (Or.inl rfl)
  | take f | drain _ _ f =>
    cases c <;> simp only [routerStep, reduceCtorEq] at h
    split at h <;> cases h
    · cases f <;> exact Or.inl rfl
    · exact Or.inl rfl
  | idle =>
    cases c <;> simp only [routerStep, reduceCtorEq] at h
    case call r => cases h; cases r <;> first | exact Or.inl rfl | exact Or.inr (Or.inr ⟨_, _, rfl, rfl, rfl⟩)
    case publish => cases h; exact Or.inl rfl
  | _ =>
    cases c <;> simp only [routerStep, reduceCtorEq] at h
    all_goals first
      | (cases h; exact Or.inl rfl)
      | (cases h; exact Or.inr (Or.inl rfl))
      | (split at h <;> cases h <;> first | exact Or.inl rfl | exact Or.inr (Or.inl rfl))

/-- The router thread serves, and a queue is submitted to by its producer only. -/
structure Roles (producer : Feed → Nat) (p : Pool (Router κ) (RouterPlace κ)) : Prop where
  serving : ∀ i, (p.threads i).serving = (i == 0)
  submits : ∀ i f, (p.threads i).submits = some f → i = producer f

theorem roles_reach {producer : Feed → Nat} {C : Pool (Router κ) (RouterPlace κ) → Nat × RouterChoice κ → Prop}
    {p : Pool (Router κ) (RouterPlace κ)} (hC : ∀ p a, C p a → OneProducer producer p a)
    (h : (routerMachine κ).Reach C p) : Roles producer p := by
  obtain ⟨-, hA⟩ : True ∧ ∀ i, (p.threads i).serving = (i == 0) ∧ ∀ f, (p.threads i).submits = some f → i = producer f := by
    refine Threads.invariant (I := fun _ => True) (A := fun i pl _ => pl.serving = (i == 0) ∧ ∀ f, pl.submits = some f →
      i = producer f) h ?_ ?_ ?_
    · rintro _ rfl
      refine ⟨trivial, fun i => ?_⟩
      by_cases hi : i = 0
      · subst hi; exact ⟨rfl, nofun⟩
      · simp only [routerInit, hi, if_false]
        exact ⟨by simp [RouterPlace.serving, hi], nofun⟩
    · intro p i c r _ hg hr _ hA
      refine ⟨trivial, (step_serving hr).trans (hA i).1, fun f hf => ?_⟩
      rcases step_submits hr with h | h | ⟨g, k, hpl, rfl, h⟩ <;> rw [h] at hf
      · cases hf
      · exact (hA i).2 f hf
      · cases hf
        have hown := hC _ _ hg
        simpa [OneProducer, ownFeed, hpl] using hown
    · intro p i c r j _ _ _ _ hA _
      exact hA j
  exact ⟨fun i => (hA i).1, fun i => (hA i).2⟩

/-! ### The refinement -/

section Refinement
variable {producer : Feed → Nat} {p : Pool (Router κ) (RouterPlace κ)} {i : Nat}

theorem hand_set (h : i = 0 → pl'.hand f = (p.threads i).hand f) :
    ((p.set i (pl', w')).threads 0).hand f = (p.threads 0).hand f := by
  by_cases hi : 0 = i
  · subst hi
    rw [Pool.set_self]
    exact h rfl
  · rw [Pool.set_other p _ hi]

theorem pending_set (h : i = producer f → pl'.pending f = (p.threads i).pending f) :
    ((p.set i (pl', w')).threads (producer f)).pending f = (p.threads (producer f)).pending f := by
  by_cases hi : producer f = i
  · subst hi
    rw [Pool.set_self]
    exact h rfl
  · rw [Pool.set_other p _ hi]

/-- A relay is unchanged by a step that touches neither its entries nor what is recorded of them. -/
theorem relay_same (hand : pl'.hand f = (p.threads i).hand f) (pending : pl'.pending f = (p.threads i).pending f)
    (queue : w'.queue f = p.shared.queue f) (accepted : acceptedOf f.source w'.log = acceptedOf f.source p.shared.log)
    (sent : sentOf f.source w'.log = sentOf f.source p.shared.log) :
    relay producer (p.set i (pl', w')) f = relay producer p f := by
  simp only [relay, Pool.set_shared, Relay.mk.injEq]
  exact ⟨accepted, pending_set fun _ => pending, queue, hand_set fun _ => hand, sent⟩

/-- The relay of `f` takes a step, and what it loses is lost by one of the four steps that lose an entry. -/
def RelaySteps (producer : Feed → Nat) (p : Pool (Router κ) (RouterPlace κ)) (i : Nat) (pl' : RouterPlace κ) (w' : Router κ)
    (f : Feed) : Prop :=
  ∃ l, (relay producer p f).Step l (relay producer (p.set i (pl', w')) f) ∧ ∀ e, l = some e → Loses p.shared (p.threads i) f e

theorem RelaySteps.same (h : relay producer (p.set i (pl', w')) f = relay producer p f) : RelaySteps producer p i pl' w' f := by
  unfold RelaySteps
  rw [h]
  exact ⟨none, .stay, nofun⟩

/-- A step that takes the relay to `r`. -/
theorem RelaySteps.moves {r : Relay (Entry κ)} {l : Option (Entry κ)} (h : (relay producer p f).Step l r)
    (hr : relay producer (p.set i (pl', w')) f = r) (hl : ∀ e, l = some e → Loses p.shared (p.threads i) f e) :
    RelaySteps producer p i pl' w' f := by
  subst hr
  exact ⟨l, h, hl⟩

section Router
variable {g : Feed} {e : Entry κ} {es : List (Entry κ)}

theorem relay_took (queue : p.shared.queue g = e :: es) (at_ : p.threads 0 = .take g) :
    RelaySteps producer p 0 (.check g e) (p.shared.setQueue g es) f := by
  by_cases hg : f = g
  · subst hg
    refine .moves (.take e es queue (by simp [relay, at_, RouterPlace.hand])) ?_ nofun
    simp only [relay, Pool.set_shared, Relay.mk.injEq]
    refine ⟨rfl, pending_set fun _ => by rw [at_]; rfl, Router.setQueue_self _ _ _, ?_, rfl⟩
    rw [Pool.set_self]
    simp [RouterPlace.hand]
  · refine .same (relay_same ?_ (by rw [at_]; rfl) (Router.setQueue_other _ _ hg) rfl rfl)
    simp [at_, RouterPlace.hand, Ne.symm hg]

theorem relay_discard (forwards : p.shared.core.forwards g e.generation = false) (at_ : p.threads 0 = .check g e) :
    RelaySteps producer p 0 (.take g) p.shared f := by
  by_cases hg : f = g
  · subst hg
    refine .moves (.discard e (by simp [relay, at_, RouterPlace.hand])) ?_ fun e' he => by cases he; exact .discard at_ forwards
    simp only [relay, Pool.set_shared, Relay.mk.injEq]
    exact ⟨trivial, pending_set fun _ => by rw [at_]; rfl, trivial, by rw [Pool.set_self]; rfl, trivial⟩
  · refine .same (relay_same ?_ (by rw [at_]; rfl) rfl rfl rfl)
    simp [at_, RouterPlace.hand, Ne.symm hg]

theorem relay_sent (at_ : p.threads 0 = .send g e) :
    RelaySteps producer p 0 (.record g) { p.shared with log := .sent g.source e :: p.shared.log } f := by
  by_cases hg : f = g
  · subst hg
    refine .moves (.send e (by simp [relay, at_, RouterPlace.hand])) ?_ nofun
    simp only [relay, Pool.set_shared, Relay.mk.injEq]
    exact ⟨rfl, pending_set fun _ => by rw [at_]; rfl, trivial, by rw [Pool.set_self]; rfl, by simp [sentOf]⟩
  · refine .same (relay_same ?_ (by rw [at_]; rfl) rfl rfl ?_)
    · simp [at_, RouterPlace.hand, Ne.symm hg]
    · have : g.source ≠ f.source := fun h => hg (Feed.source_injective h).symm
      simp [sentOf, this]

end Router

section Caller
variable {n : Nat} {g : Feed} {e z : Entry κ} {es : List (Entry κ)}

theorem relay_accepted {payload : κ} (hi : producer g ≠ 0) (at_ : p.threads (producer g) = .lock n (.submit g payload)) :
    RelaySteps producer p (producer g) (.put n g (p.shared.entry payload))
      { p.shared with log := .handed g.source (p.shared.entry payload) :: p.shared.log } f := by
  by_cases hg : f = g
  · subst hg
    refine .moves (.accept (p.shared.entry payload) (by simp [relay, at_, RouterPlace.pending])) ?_ nofun
    simp only [relay, Pool.set_shared, Relay.mk.injEq]
    refine ⟨by simp [acceptedOf], ?_, trivial, hand_set fun h => absurd h hi, rfl⟩
    rw [Pool.set_self]
    simp [RouterPlace.pending]
  · refine .same (relay_same (by rw [at_]; rfl) ?_ rfl ?_ rfl)
    · simp [at_, RouterPlace.pending, Ne.symm hg]
    · have : g.source ≠ f.source := fun h => hg (Feed.source_injective h).symm
      simp [acceptedOf, this]

theorem relay_drained {r : RouterCall κ} (queue : p.shared.queue g = e :: es) (at_ : p.threads i = .drain n r g) :
    RelaySteps producer p i (.drain n r g) (p.shared.setQueue g es) f := by
  by_cases hg : f = g
  · subst hg
    refine .moves (.pop e es queue) ?_ fun e' he => by cases he; exact .drained n r es at_ queue
    simp only [relay, Pool.set_shared, Relay.mk.injEq]
    exact ⟨rfl, pending_set fun _ => by rw [at_], Router.setQueue_self _ _ _, hand_set fun _ => by rw [at_], rfl⟩
  · exact .same (relay_same (by rw [at_]) (by rw [at_]) (Router.setQueue_other _ _ hg) rfl rfl)

theorem relay_dropped (at_ : p.threads i = .drop n g z) :
    RelaySteps producer p i (.putAgain n g z) (p.shared.setQueue g (p.shared.queue g).tail) f := by
  by_cases hg : f = g
  · subst hg
    cases hq : p.shared.queue f with
    | nil =>
      refine .same (relay_same (by rw [at_]; rfl) (by rw [at_]; rfl) ?_ rfl rfl)
      rw [Router.setQueue_self, hq, List.tail_nil]
    | cons e es =>
      refine .moves (.pop e es hq) ?_ fun e' he => by cases he; exact .dropped n z es at_ hq
      simp only [relay, Pool.set_shared, Relay.mk.injEq, List.tail_cons]
      exact ⟨rfl, pending_set fun _ => by rw [at_]; rfl, Router.setQueue_self _ _ _, hand_set fun _ => by rw [at_]; rfl, rfl⟩
  · exact .same (relay_same (by rw [at_]; rfl) (by rw [at_]; rfl) (Router.setQueue_other _ _ hg) rfl rfl)

theorem relay_put (hi : producer g ≠ 0)
    (at_ : p.threads (producer g) = .put n g e ∨ p.threads (producer g) = .putAgain n g e) :
    RelaySteps producer p (producer g) (.done n (.submit g e.payload) (.accepted true))
      (p.shared.setQueue g (p.shared.queue g ++ [e])) f := by
  have hpend : (p.threads (producer g)).pending f = if g = f then [e] else [] := by rcases at_ with at_ | at_ <;> rw [at_] <;> rfl
  have hhand : (p.threads (producer g)).hand f = [] := by rcases at_ with at_ | at_ <;> rw [at_] <;> rfl
  by_cases hg : f = g
  · subst hg
    refine .moves (.put e (by simp [relay, hpend])) ?_ nofun
    simp only [relay, Pool.set_shared, Relay.mk.injEq]
    exact ⟨rfl, by rw [Pool.set_self]; rfl, Router.setQueue_self _ _ _, hand_set fun h => absurd h hi, rfl⟩
  · refine .same (relay_same (by rw [hhand]; rfl) ?_ (Router.setQueue_other _ _ hg) rfl rfl)
    rw [hpend, if_neg (Ne.symm hg)]
    rfl

theorem relay_lost (hi : producer g ≠ 0) (queue : queueSize ≤ (p.shared.queue g).length)
    (at_ : p.threads (producer g) = .putAgain n g e) :
    RelaySteps producer p (producer g) (.done n (.submit g e.payload) (.raised "queue.Full")) p.shared f := by
  by_cases hg : f = g
  · subst hg
    refine .moves (.refuse e (by simp [relay, at_, RouterPlace.pending])) ?_ fun e' he => by cases he; exact .lost n at_ queue
    simp only [relay, Pool.set_shared, Relay.mk.injEq]
    exact ⟨trivial, by rw [Pool.set_self]; rfl, trivial, hand_set fun h => absurd h hi, trivial⟩
  · refine .same (relay_same (by rw [at_]; rfl) ?_ rfl rfl rfl)
    simp [at_, RouterPlace.pending, Ne.symm hg]

end Caller

theorem relay_step (hr : Roles producer p) (hs : routerStep (p.threads i) c p.shared = some (pl', w')) (f : Feed) :
    RelaySteps producer p i pl' w' f := by
  -- Only the router thread has a payload in hand, and only the producer has one pending.
  have router : (p.threads i).serving = true → i = 0 := fun h => by simpa [hr.serving i] using h
  have caller : ∀ {g}, (p.threads i).submits = some g → (p.threads i).serving = false → i = producer g ∧ producer g ≠ 0 := by
    intro g hg h
    obtain rfl := hr.submits i g hg
    exact ⟨rfl, by simpa [hr.serving (producer g)] using h⟩
  cases router_moves hs with
  | quiet _ queue _ log carries _ =>
    obtain ⟨h₁, h₂⟩ := RouterPlace.of_carries_none (f := f) carries.1
    obtain ⟨h₃, h₄⟩ := RouterPlace.of_carries_none (f := f) carries.2
    exact .same (relay_same (h₃.trans h₁.symm) (h₄.trans h₂.symm) (by rw [queue]) (by rw [log]) (by rw [log]))
  | selects sel queue _ log =>
    refine .same (relay_same ?_ ?_ (by rw [queue]) (by rw [log]) (by rw [log])) <;>
      cases sel with
      | select _ _ at_ goes _ | halt _ at_ goes _ | resume _ at_ goes _ _ | close _ at_ goes _ _ => rw [at_, goes]; rfl
  | began _ at_ goes state | returned _ _ _ at_ goes state | refuseGroot _ at_ goes state | acceptGroot _ _ at_ goes state
  | received _ _ _ at_ goes state | forward _ _ _ at_ goes state | full _ _ _ _ at_ goes state =>
    subst state goes
    exact .same (relay_same (by rw [at_]; rfl) (by rw [at_]; rfl) rfl rfl rfl)
  | published payload at_ goes state =>
    subst state goes
    refine .same (relay_same (by rw [at_]) (by rw [at_]) rfl ?_ rfl)
    simp [acceptedOf, f.source_ne_groot.symm]
  | sentGroot e at_ goes state =>
    subst state goes
    refine .same (relay_same (by rw [at_]; rfl) (by rw [at_]; rfl) rfl rfl ?_)
    simp [sentOf, f.source_ne_groot.symm]
  | took g e es queue at_ goes state =>
    subst state goes
    obtain rfl := router (by rw [at_]; rfl)
    exact relay_took queue at_
  | discard g e forwards at_ goes state =>
    subst state goes
    obtain rfl := router (by rw [at_]; rfl)
    exact relay_discard forwards at_
  | sent g e at_ goes state =>
    subst state goes
    obtain rfl := router (by rw [at_]; rfl)
    exact relay_sent at_
  | accepted n g payload _ at_ goes state =>
    subst state goes
    obtain ⟨rfl, hi⟩ := caller (by rw [at_]; rfl) (by rw [at_]; rfl)
    exact relay_accepted hi at_
  | drained n r g e es queue at_ goes state =>
    subst state goes
    exact relay_drained queue at_
  | dropped n g z at_ goes state =>
    subst state goes
    exact relay_dropped at_
  | put n g e _ at_ goes state =>
    subst state goes
    have hsub : (p.threads i).submits = some g := by rcases at_ with at_ | at_ <;> rw [at_] <;> rfl
    obtain ⟨rfl, hi⟩ := caller hsub (by rcases at_ with at_ | at_ <;> rw [at_] <;> rfl)
    exact relay_put hi at_
  | lost n g e queue at_ goes state =>
    subst state goes
    obtain ⟨rfl, hi⟩ := caller (by rw [at_]; rfl) (by rw [at_]; rfl)
    exact relay_lost hi queue at_

end Refinement
end HumanoidLab
