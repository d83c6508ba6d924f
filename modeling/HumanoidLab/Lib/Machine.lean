import Mathlib.Logic.Basic

/-! Machines: initial states and a partial step function. A label says who moves and what the
    environment chose, so that a run is a list of labels and can be evaluated. A guard on the steps
    gives the runs whose steps all meet it. -/

namespace Concurrency

universe u v

/-- Initial states, and the step that a label takes in a state where it is enabled. -/
structure Machine (σ : Type u) (α : Type v) where
  init : σ → Prop
  step : σ → α → Option σ

namespace Machine

variable {σ : Type u} {α : Type v} (M : Machine σ α)

/-- The state after a list of labels, when each label is enabled in its turn. -/
def run (s : σ) : List α → Option σ
  | [] => some s
  | a :: as => (M.step s a).bind fun t => run t as

/-- Each label of a list meets `C` in the state where it is taken. -/
def Meets (C : σ → α → Prop) (s : σ) : List α → Prop
  | [] => True
  | a :: as => C s a ∧ ((M.step s a).elim True fun t => Meets C t as)

instance decidableMeets {C : σ → α → Prop} [∀ s a, Decidable (C s a)] : ∀ s as, Decidable (M.Meets C s as)
  | _, [] => .isTrue trivial
  | s, a :: as =>
    have : Decidable ((M.step s a).elim True fun t => M.Meets C t as) :=
      match M.step s a with
      | none => .isTrue trivial
      | some t => decidableMeets t as
    inferInstanceAs (Decidable (_ ∧ _))

/-- The states that steps meeting `C` reach from `s`. -/
inductive Path (C : σ → α → Prop) (s : σ) : σ → Prop
  | refl : Path C s s
  | step {t u : σ} (a : α) : Path C s t → C t a → M.step t a = some u → Path C s u

/-- The states that steps meeting `C` reach from an initial state. -/
def Reach (C : σ → α → Prop) (t : σ) : Prop := ∃ s, M.init s ∧ M.Path C s t

/-- The guard that every step meets. -/
def Free : σ → α → Prop := fun _ _ => True

variable {M} {C D : σ → α → Prop} {s t u : σ} {a : α} {as : List α}

@[simp] theorem run_nil : M.run s [] = some s := rfl

@[simp] theorem run_cons : M.run s (a :: as) = (M.step s a).bind fun t => M.run t as := rfl

theorem meets_cons (hs : M.step s a = some t) : M.Meets C s (a :: as) ↔ C s a ∧ M.Meets C t as := by
  simp [Meets, hs]

theorem meets_free (s : σ) (as : List α) : M.Meets Free s as := by
  induction as generalizing s with
  | nil => trivial
  | cons a as ih =>
    refine ⟨trivial, ?_⟩
    cases M.step s a with
    | none => trivial
    | some t => exact ih t

theorem Path.trans (h₁ : M.Path C s t) (h₂ : M.Path C t u) : M.Path C s u := by
  induction h₂ with
  | refl => exact h₁
  | step a _ hc hs ih => exact .step a ih hc hs

theorem Path.mono (h : M.Path C s t) (hCD : ∀ s a, C s a → D s a) : M.Path D s t := by
  induction h with
  | refl => exact .refl
  | step a _ hc hs ih => exact .step a ih (hCD _ _ hc) hs

theorem Reach.init (h : M.init s) : M.Reach C s := ⟨s, h, .refl⟩

theorem Reach.step (h : M.Reach C s) (hc : C s a) (hs : M.step s a = some t) : M.Reach C t := by
  obtain ⟨s₀, h₀, hp⟩ := h
  exact ⟨s₀, h₀, .step a hp hc hs⟩

theorem Reach.path (h : M.Reach C s) (hp : M.Path C s t) : M.Reach C t := by
  obtain ⟨s₀, h₀, hp₀⟩ := h
  exact ⟨s₀, h₀, hp₀.trans hp⟩

/-! ### Invariants -/

/-- What a step keeps, given that the state is reached from `s`, a path keeps. -/
theorem Path.keeps {I : σ → Prop} (h : M.Path C s t) (hs : I s)
    (step : ∀ t a u, M.Path C s t → I t → C t a → M.step t a = some u → I u) : I t := by
  induction h with
  | refl => exact hs
  | step a hp hc hstep ih => exact step _ a _ hp ih hc hstep

/-- An invariant holds initially and is kept by every step from a reachable state. -/
theorem Reach.invariant {I : σ → Prop} (h : M.Reach C t) (init : ∀ s, M.init s → I s)
    (step : ∀ s a t, M.Reach C s → I s → C s a → M.step s a = some t → I t) : I t := by
  obtain ⟨s, hs, hp⟩ := h
  exact hp.keeps (init s hs) fun t a u hp' => step t a u ⟨s, hs, hp'⟩

/-! ### Runs and paths -/

theorem path_of_run {as : List α} {s t : σ} (hr : M.run s as = some t) (hm : M.Meets C s as) : M.Path C s t := by
  induction as generalizing s with
  | nil =>
    obtain rfl : s = t := by simpa using hr
    exact .refl
  | cons a as ih =>
    rw [run_cons, Option.bind_eq_some_iff] at hr
    obtain ⟨u, hu, hr⟩ := hr
    rw [meets_cons hu] at hm
    exact (Path.step a .refl hm.1 hu).trans (ih hr hm.2)

/-- A run that fails its guard establishes `I` at the step that fails it, and keeps `I` from there on;
    `J` is an invariant that both may use. -/
theorem of_not_meets {I J : σ → Prop} (ambient : ∀ s a t, J s → M.step s a = some t → J t)
    (broken : ∀ s a t, J s → ¬C s a → M.step s a = some t → I t)
    (kept : ∀ s a t, J s → I s → M.step s a = some t → I t) {as : List α} {s t : σ} (hJ : J s)
    (hr : M.run s as = some t) (hn : ¬M.Meets C s as) : I t := by
  have keep : ∀ {as : List α} {s : σ}, J s → I s → M.run s as = some t → I t := by
    intro as
    induction as with
    | nil =>
      intro s _ hI hr
      obtain rfl : s = t := by simpa using hr
      exact hI
    | cons a as ih =>
      intro s hJ hI hr
      rw [run_cons, Option.bind_eq_some_iff] at hr
      obtain ⟨u, hu, hr⟩ := hr
      exact ih (ambient s a u hJ hu) (kept s a u hJ hI hu) hr
  induction as generalizing s with
  | nil => exact absurd trivial hn
  | cons a as ih =>
    rw [run_cons, Option.bind_eq_some_iff] at hr
    obtain ⟨u, hu, hr⟩ := hr
    by_cases hc : C s a
    · exact ih (ambient s a u hJ hu) hr fun hm => hn ((meets_cons hu).mpr ⟨hc, hm⟩)
    · exact keep (ambient s a u hJ hu) (broken s a u hJ hc hu) hr

end Machine
end Concurrency
