import HumanoidLab.Lib.Machine
import Mathlib.Logic.Function.Basic

/-! Pools: threads that take atomic steps over one shared state, in any order. An invariant of a pool is
    a relation on the shared state with an assertion for each thread; it is kept when the thread that
    steps reestablishes both and no step interferes with the assertion of another thread. -/

namespace Concurrency

universe u v w

/-- A shared state, and where each thread stands. -/
structure Pool (σ : Type u) (τ : Type v) where
  shared : σ
  threads : Nat → τ

/-- What thread `i` does where it stands, for each choice of the environment. -/
abbrev Threads (σ : Type u) (τ : Type v) (β : Type w) := Nat → τ → β → σ → Option (τ × σ)

variable {σ : Type u} {τ : Type v} {β : Type w}

namespace Pool

def set (p : Pool σ τ) (i : Nat) (r : τ × σ) : Pool σ τ := ⟨r.2, Function.update p.threads i r.1⟩

@[simp] theorem set_shared (p : Pool σ τ) (i : Nat) (r : τ × σ) : (p.set i r).shared = r.2 := rfl

@[simp] theorem set_self (p : Pool σ τ) (i : Nat) (r : τ × σ) : (p.set i r).threads i = r.1 := by simp [set]

theorem set_other (p : Pool σ τ) {i j : Nat} (r : τ × σ) (h : j ≠ i) : (p.set i r).threads j = p.threads j := by
  simp [set, h]

end Pool

namespace Threads

/-- The machine of a pool: one thread steps at a time. -/
def machine (T : Threads σ τ β) (init : Pool σ τ → Prop) : Machine (Pool σ τ) (Nat × β) where
  init := init
  step p a := (T a.1 (p.threads a.1) a.2 p.shared).map (p.set a.1)

variable {T : Threads σ τ β} {init : Pool σ τ → Prop} {C : Pool σ τ → Nat × β → Prop} {p q : Pool σ τ} {i : Nat} {b : β}

theorem step_eq_some : (T.machine init).step p (i, b) = some q ↔
    ∃ r, T i (p.threads i) b p.shared = some r ∧ q = p.set i r := by
  simp only [machine, Option.map_eq_some_iff, eq_comm (a := q)]

/-- A thread that takes no step of a run stays where it is. -/
theorem run_other {as : List (Nat × β)} (h : (T.machine init).run p as = some q) (hi : ∀ a ∈ as, a.1 ≠ i) :
    q.threads i = p.threads i := by
  induction as generalizing p with
  | nil =>
    obtain rfl : p = q := by simpa using h
    rfl
  | cons a as ih =>
    rw [Machine.run_cons, Option.bind_eq_some_iff] at h
    obtain ⟨u, hu, h⟩ := h
    obtain ⟨r, -, rfl⟩ := step_eq_some.mp hu
    rw [ih h fun b hb => hi b (List.mem_cons_of_mem _ hb)]
    exact Pool.set_other p r (hi a List.mem_cons_self).symm

/-- A global relation and thread assertions that hold initially, that the stepping thread keeps, and
    that no step of another thread breaks, hold in every reachable state. -/
theorem invariant {I : σ → Prop} {A : Nat → τ → σ → Prop} (h : (T.machine init).Reach C q)
    (start : ∀ p, init p → I p.shared ∧ ∀ i, A i (p.threads i) p.shared)
    (own : ∀ p i b r, (T.machine init).Reach C p → C p (i, b) → T i (p.threads i) b p.shared = some r →
      I p.shared → (∀ j, A j (p.threads j) p.shared) → I r.2 ∧ A i r.1 r.2)
    (others : ∀ p i b r j, (T.machine init).Reach C p → C p (i, b) → T i (p.threads i) b p.shared = some r →
      I p.shared → (∀ j, A j (p.threads j) p.shared) → j ≠ i → A j (p.threads j) r.2) :
    I q.shared ∧ ∀ i, A i (q.threads i) q.shared := by
  refine Machine.Reach.invariant (I := fun q => I q.shared ∧ ∀ i, A i (q.threads i) q.shared) h (fun p hp => start p hp) ?_
  rintro p ⟨i, b⟩ q hp ⟨hI, hA⟩ hc hs
  obtain ⟨r, hr, rfl⟩ := step_eq_some.mp hs
  obtain ⟨hI', hA'⟩ := own p i b r hp hc hr hI hA
  refine ⟨hI', fun j => ?_⟩
  by_cases hj : j = i
  · subst hj
    rw [Pool.set_self]
    exact hA'
  · rw [Pool.set_other p r hj]
    exact others p i b r j hp hc hr hI hA hj

end Threads
end Concurrency
