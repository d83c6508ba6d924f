import Mathlib.Algebra.Order.Floor.Defs
import Mathlib.Data.Rat.Cast.OfScientific

/-! Rounding in an ordered field. -/

namespace Rounding

variable {K : Type} [Field K] [LinearOrder K] [FloorRing K]

/-- A half goes to the even integer. -/
def roundHalfEven (x : K) : Int :=
  if x - ⌊x⌋ < 0.5 then ⌊x⌋
  else if 0.5 < x - ⌊x⌋ then ⌊x⌋ + 1
  else if ⌊x⌋ % 2 = 0 then ⌊x⌋
  else ⌊x⌋ + 1

/-- `round` to a number of digits. -/
def roundDigits (digits : Nat) (x : K) : K := roundHalfEven (x * (10 ^ digits : Nat)) / (10 ^ digits : Nat)

end Rounding
