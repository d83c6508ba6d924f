import Mathlib.Algebra.Order.Field.Basic
import Mathlib.Algebra.Order.AbsoluteValue.Basic
import Mathlib.Tactic.Linarith
import Mathlib.Tactic.Ring

/-! Bisection: a bracket is halved at the side of a test. A root that the test tells apart stays in the bracket, so that the middle of the
    last bracket is near it; and the middle of a bracket is not near its ends. -/

namespace Bisection

section
variable {α : Type}

/-- A round: the middle replaces the end on its side. -/
def narrow (middle : α → α → α) (below : α → Bool) (bracket : α × α) : α × α :=
  if below (middle bracket.1 bracket.2) then (middle bracket.1 bracket.2, bracket.2) else (bracket.1, middle bracket.1 bracket.2)

def bisect (middle : α → α → α) (below : α → Bool) : Nat → α × α → α × α
  | 0, bracket => bracket
  | n + 1, bracket => bisect middle below n (narrow middle below bracket)

end

variable {K : Type} [Field K] [LinearOrder K] {middle : K → K → K} {below : K → Bool} {root : K} {bracket : K × K}

/-- The middle of two numbers. -/
def IsMiddle (middle : K → K → K) : Prop := ∀ x y, middle x y + middle x y = x + y

/-- The test tells which numbers are at which side of the root. -/
structure Tells (below : K → Bool) (root : K) : Prop where
  left : ∀ x, below x = true → x ≤ root
  right : ∀ x, below x = false → root ≤ x

variable [IsStrictOrderedRing K]

theorem narrow_width (hmiddle : IsMiddle middle) :
    2 * ((narrow middle below bracket).2 - (narrow middle below bracket).1) = bracket.2 - bracket.1 := by
  have hmid := hmiddle bracket.1 bracket.2
  unfold narrow
  split <;> linarith

omit [Field K] [IsStrictOrderedRing K] in
theorem narrow_brackets (middle : K → K → K) (h : Tells below root) (hlow : bracket.1 ≤ root) (hhigh : root ≤ bracket.2) :
    (narrow middle below bracket).1 ≤ root ∧ root ≤ (narrow middle below bracket).2 := by
  unfold narrow
  split
  · exact ⟨h.left _ ‹_›, hhigh⟩
  · exact ⟨hlow, h.right _ (Bool.eq_false_of_not_eq_true ‹_›)⟩

theorem narrow_inside (below : K → Bool) (hmiddle : IsMiddle middle) (h : bracket.1 ≤ bracket.2) :
    bracket.1 ≤ (narrow middle below bracket).1 ∧ (narrow middle below bracket).1 ≤ (narrow middle below bracket).2 := by
  have hmid := hmiddle bracket.1 bracket.2
  unfold narrow
  split <;> constructor <;> linarith

theorem bisect_width (hmiddle : IsMiddle middle) (n : Nat) :
    2 ^ n * ((bisect middle below n bracket).2 - (bisect middle below n bracket).1) = bracket.2 - bracket.1 := by
  induction n generalizing bracket with
  | zero => rw [pow_zero, one_mul, bisect]
  | succ n ih =>
    rw [bisect, pow_succ', mul_assoc, ih]
    exact narrow_width hmiddle

omit [Field K] [IsStrictOrderedRing K] in
theorem bisect_brackets (middle : K → K → K) (h : Tells below root) (n : Nat) (hlow : bracket.1 ≤ root) (hhigh : root ≤ bracket.2) :
    (bisect middle below n bracket).1 ≤ root ∧ root ≤ (bisect middle below n bracket).2 := by
  induction n generalizing bracket with
  | zero => exact ⟨hlow, hhigh⟩
  | succ n ih =>
    obtain ⟨hlow, hhigh⟩ := narrow_brackets middle h hlow hhigh
    exact ih hlow hhigh

theorem bisect_inside (below : K → Bool) (hmiddle : IsMiddle middle) (n : Nat) (h : bracket.1 ≤ bracket.2) :
    bracket.1 ≤ (bisect middle below n bracket).1 := by
  induction n generalizing bracket with
  | zero => exact le_rfl
  | succ n ih =>
    obtain ⟨hlow, hordered⟩ := narrow_inside below hmiddle h
    exact hlow.trans (ih hordered)

/-- What `n` rounds find, with the middle of the last bracket. -/
def found (middle : K → K → K) (below : K → Bool) (n : Nat) (bracket : K × K) : K :=
  middle (bisect middle below n bracket).1 (bisect middle below n bracket).2

/-- The middle of the last bracket is near the root. -/
theorem abs_found_sub_le (hmiddle : IsMiddle middle) (h : Tells below root) (n : Nat) (hlow : bracket.1 ≤ root)
    (hhigh : root ≤ bracket.2) : 2 ^ (n + 1) * |found middle below n bracket - root| ≤ bracket.2 - bracket.1 := by
  obtain ⟨hleft, hright⟩ := bisect_brackets middle h n hlow hhigh
  have hmid := hmiddle (bisect middle below n bracket).1 (bisect middle below n bracket).2
  have hnear : 2 * |found middle below n bracket - root| ≤ (bisect middle below n bracket).2 - (bisect middle below n bracket).1 := by
    rw [← abs_two, ← abs_mul, abs_le]
    unfold found
    constructor <;> linarith
  calc 2 ^ (n + 1) * |found middle below n bracket - root|
      = 2 ^ n * (2 * |found middle below n bracket - root|) := by rw [pow_succ, mul_assoc]
    _ ≤ 2 ^ n * ((bisect middle below n bracket).2 - (bisect middle below n bracket).1) :=
        mul_le_mul_of_nonneg_left hnear (pow_nonneg zero_le_two n)
    _ = bracket.2 - bracket.1 := bisect_width hmiddle n

/-- The middle of the last bracket keeps off the low end. -/
theorem le_found (hmiddle : IsMiddle middle) (n : Nat) (h : bracket.1 ≤ bracket.2) :
    bracket.2 - bracket.1 ≤ 2 ^ (n + 1) * (found middle below n bracket - bracket.1) := by
  have hlow := bisect_inside below hmiddle n h
  have hmid := hmiddle (bisect middle below n bracket).1 (bisect middle below n bracket).2
  have hoff : (bisect middle below n bracket).2 - (bisect middle below n bracket).1 ≤ 2 * (found middle below n bracket - bracket.1) := by
    unfold found
    linarith
  calc bracket.2 - bracket.1
      = 2 ^ n * ((bisect middle below n bracket).2 - (bisect middle below n bracket).1) := (bisect_width hmiddle n).symm
    _ ≤ 2 ^ n * (2 * (found middle below n bracket - bracket.1)) := mul_le_mul_of_nonneg_left hoff (pow_nonneg zero_le_two n)
    _ = 2 ^ (n + 1) * (found middle below n bracket - bracket.1) := by rw [pow_succ, mul_assoc]

end Bisection
