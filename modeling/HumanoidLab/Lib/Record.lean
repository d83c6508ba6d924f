import Mathlib.Data.List.Basic

/-! Records: the events of a run, newest first, and laws on an event and the events before it. -/

namespace Concurrency

universe u

variable {α : Type u}

/-- Each event of a record meets `L` with the events before it. -/
def Each (L : α → List α → Prop) : List α → Prop
  | [] => True
  | e :: es => L e es ∧ Each L es

instance decidableEach {L : α → List α → Prop} [∀ e es, Decidable (L e es)] : ∀ es, Decidable (Each L es)
  | [] => .isTrue trivial
  | _ :: es =>
    have := decidableEach (L := L) es
    inferInstanceAs (Decidable (_ ∧ _))

theorem Each.law {L : α → List α → Prop} {es later earlier : List α} {e : α} (h : Each L es)
    (hes : es = later ++ e :: earlier) : L e earlier := by
  induction later generalizing es with
  | nil =>
    subst hes
    exact h.1
  | cons x later ih =>
    subst hes
    exact ih h.2 rfl

theorem Each.imp {L M : α → List α → Prop} {es : List α} (h : Each (fun e es => L e es → M e es) es) (hL : Each L es) :
    Each M es := by
  induction es with
  | nil => trivial
  | cons e es ih => exact ⟨h.1 hL.1, ih h.2 hL.2⟩

theorem Each.mono {L M : α → List α → Prop} {es : List α} (h : ∀ e es, L e es → M e es) (hL : Each L es) : Each M es := by
  induction es with
  | nil => trivial
  | cons e es ih => exact ⟨h e es hL.1, ih hL.2⟩

/-- An event of a record that goes on is the new one, or stands where it stood. -/
theorem cons_eq_split {x e : α} {es later earlier : List α} (h : x :: es = later ++ e :: earlier) :
    (later = [] ∧ x = e ∧ es = earlier) ∨ ∃ later', later = x :: later' ∧ es = later' ++ e :: earlier := by
  cases later with
  | nil =>
    obtain ⟨rfl, rfl⟩ := List.cons.inj h
    exact Or.inl ⟨rfl, rfl, rfl⟩
  | cons y later =>
    obtain ⟨rfl, rfl⟩ := List.cons.inj h
    exact Or.inr ⟨later, rfl, rfl⟩

/-- The oldest event of a record that meets `P`. -/
theorem exists_oldest {P : α → Prop} {es : List α} (h : ∃ x ∈ es, P x) :
    ∃ later e earlier, es = later ++ e :: earlier ∧ P e ∧ ∀ y ∈ earlier, ¬P y := by
  induction es with
  | nil =>
    obtain ⟨x, hx, -⟩ := h
    cases hx
  | cons a es ih =>
    by_cases hs : ∃ x ∈ es, P x
    · obtain ⟨later, e, earlier, rfl, he, hn⟩ := ih hs
      exact ⟨a :: later, e, earlier, rfl, he, hn⟩
    · obtain ⟨x, hx, hp⟩ := h
      rcases List.mem_cons.mp hx with rfl | hx
      · exact ⟨[], x, es, rfl, hp, fun y hy hp' => hs ⟨y, hy, hp'⟩⟩
      · exact absurd ⟨x, hx, hp⟩ hs

end Concurrency
