import Mathlib.Algebra.BigOperators.Group.List.Basic
import Mathlib.Algebra.BigOperators.Ring.List
import Mathlib.Algebra.CharZero.Defs
import Mathlib.Algebra.Field.Basic
import Mathlib.Order.Bounds.Basic
import Mathlib.Order.Lattice
import Mathlib.Tactic.FieldSimp
import Mathlib.Tactic.Ring

/-! The moments of a list of numbers, and how those of two lists give those of the list of both: the mean and the sum of the
    squared deviations are merged with weights. The least and the greatest entry are folds. -/

namespace Moments

/-! ### The mean and the squared deviations -/

section
variable {K : Type} [Field K]

def mean (xs : List K) : K := xs.sum / xs.length

/-- The sum of the squares of the differences to the mean. -/
def squares (xs : List K) : K := (xs.map fun x => (x - mean xs) ^ 2).sum

/-- The population variance. -/
def variance (xs : List K) : K := squares xs / xs.length

variable {xs ys : List K}

theorem mean_perm (h : xs.Perm ys) : mean xs = mean ys := by
  rw [mean, mean, h.sum_eq, h.length_eq]

theorem squares_perm (h : xs.Perm ys) : squares xs = squares ys := by
  rw [squares, squares, mean_perm h]
  exact (h.map _).sum_eq

theorem sum_sq_sub (xs : List K) (a : K) :
    (xs.map fun x => (x - a) ^ 2).sum = (xs.map (· ^ 2)).sum - 2 * a * xs.sum + xs.length * a ^ 2 := by
  induction xs with
  | nil => simp
  | cons x xs ih =>
    simp only [List.map_cons, List.sum_cons, List.length_cons, ih]
    push_cast
    ring

variable [CharZero K]

theorem length_ne_zero (h : xs ≠ []) : (xs.length : K) ≠ 0 := by
  rw [Nat.cast_ne_zero]
  exact fun hlen => h (List.length_eq_zero_iff.mp hlen)

theorem length_add_ne_zero (h : xs ≠ []) : (xs.length + ys.length : K) ≠ 0 := by
  rw [← Nat.cast_add, Nat.cast_ne_zero]
  exact fun hlen => h (List.length_eq_zero_iff.mp (by omega))

theorem squares_eq (h : xs ≠ []) : squares xs = (xs.map (· ^ 2)).sum - xs.sum ^ 2 / xs.length := by
  have hlen : (xs.length : K) ≠ 0 := length_ne_zero h
  rw [squares, sum_sq_sub, mean]
  field_simp
  ring

theorem mean_append (hx : xs ≠ []) (hy : ys ≠ []) :
    mean (xs ++ ys) = mean xs + (mean ys - mean xs) * (ys.length / (xs.length + ys.length)) := by
  have hxlen : (xs.length : K) ≠ 0 := length_ne_zero hx
  have hylen : (ys.length : K) ≠ 0 := length_ne_zero hy
  have htotal : (xs.length + ys.length : K) ≠ 0 := length_add_ne_zero hx
  rw [mean, mean, mean, List.sum_append, List.length_append, Nat.cast_add]
  field_simp
  ring

/-- The deviations of both lists, corrected by how far their means lie apart. -/
theorem squares_append (hx : xs ≠ []) (hy : ys ≠ []) :
    squares (xs ++ ys) =
      squares xs + squares ys + (mean ys - mean xs) ^ 2 * (xs.length * ys.length / (xs.length + ys.length)) := by
  have hxlen : (xs.length : K) ≠ 0 := length_ne_zero hx
  have hylen : (ys.length : K) ≠ 0 := length_ne_zero hy
  have htotal : (xs.length + ys.length : K) ≠ 0 := length_add_ne_zero hx
  rw [squares_eq hx, squares_eq hy, squares_eq (List.append_ne_nil_of_left_ne_nil hx ys), List.map_append, List.sum_append,
    List.sum_append, List.length_append, mean, mean, Nat.cast_add]
  field_simp
  ring

end

/-! ### The least and the greatest entry -/

section
variable {K : Type}

/-- A fold of a choice gives an entry. -/
theorem foldl_mem {f : K → K → K} (hf : ∀ a b, f a b = a ∨ f a b = b) (x : K) (xs : List K) : xs.foldl f x ∈ x :: xs := by
  induction xs generalizing x with
  | nil => simp
  | cons y ys ih =>
    rw [List.foldl_cons]
    have hmem := ih (f x y)
    rcases List.mem_cons.mp hmem with heq | hys
    · rcases hf x y with h | h
      · rw [heq, h]
        exact List.mem_cons_self
      · rw [heq, h]
        exact List.mem_cons_of_mem _ List.mem_cons_self
    · exact List.mem_cons_of_mem _ (List.mem_cons_of_mem _ hys)

/-- What a choice keeps of either argument, a fold keeps of every entry. -/
theorem foldl_keeps {f : K → K → K} {p : K → Prop} (hleft : ∀ a b, p a → p (f a b)) (hright : ∀ a b, p b → p (f a b)) (x : K)
    (xs : List K) (h : ∃ y ∈ x :: xs, p y) : p (xs.foldl f x) := by
  induction xs generalizing x with
  | nil =>
    obtain ⟨y, hy, hp⟩ := h
    rw [List.mem_singleton] at hy
    exact hy ▸ hp
  | cons y ys ih =>
    rw [List.foldl_cons]
    obtain ⟨z, hz, hp⟩ := h
    rcases List.mem_cons.mp hz with rfl | hz
    · exact ih (f z y) ⟨f z y, List.mem_cons_self, hleft z y hp⟩
    rcases List.mem_cons.mp hz with rfl | hz
    · exact ih (f x z) ⟨f x z, List.mem_cons_self, hright x z hp⟩
    · exact ih (f x y) ⟨z, List.mem_cons_of_mem _ hz, hp⟩

theorem isLeast_foldl_min [LinearOrder K] (x : K) (xs : List K) : IsLeast {y | y ∈ x :: xs} (xs.foldl min x) := by
  refine ⟨foldl_mem (fun a b => min_choice a b) x xs, fun y hy => ?_⟩
  exact foldl_keeps (p := (· ≤ y)) (fun _ _ h => (min_le_left _ _).trans h) (fun _ _ h => (min_le_right _ _).trans h) x xs
    ⟨y, hy, le_refl y⟩

theorem isGreatest_foldl_max [LinearOrder K] (x : K) (xs : List K) : IsGreatest {y | y ∈ x :: xs} (xs.foldl max x) := by
  refine ⟨foldl_mem (fun a b => max_choice a b) x xs, fun y hy => ?_⟩
  exact foldl_keeps (p := (y ≤ ·)) (fun _ _ h => h.trans (le_max_left _ _)) (fun _ _ h => h.trans (le_max_right _ _)) x xs
    ⟨y, hy, le_refl y⟩

theorem isLeast_append [LinearOrder K] {xs ys : List K} {a b : K} (hx : IsLeast {y | y ∈ xs} a) (hy : IsLeast {y | y ∈ ys} b) :
    IsLeast {y | y ∈ xs ++ ys} (min a b) := by
  have hset : {y | y ∈ xs ++ ys} = {y | y ∈ xs} ∪ {y | y ∈ ys} := Set.ext fun y => List.mem_append
  exact hset ▸ hx.union hy

theorem isGreatest_append [LinearOrder K] {xs ys : List K} {a b : K} (hx : IsGreatest {y | y ∈ xs} a)
    (hy : IsGreatest {y | y ∈ ys} b) : IsGreatest {y | y ∈ xs ++ ys} (max a b) := by
  have hset : {y | y ∈ xs ++ ys} = {y | y ∈ xs} ∪ {y | y ∈ ys} := Set.ext fun y => List.mem_append
  exact hset ▸ hx.union hy

end
end Moments
