import HumanoidLab.Datasets.Convert
import HumanoidLab.Lib.Json

/-! What Python's builtins do with the values of `json.loads`: the floats of its numbers, `int`, the truth of a value, and what
    a loop over it yields. -/

namespace HumanoidLab
open Psi0Dex3 (FloatEntry float64)

abbrev JsonValue := Json.Value FloatEntry

/-- An exception of the interpreter or of a library, by its class. -/
inductive PyError
  | type
  | value
  | unicode
  | overflow
  | key
  | index
  | attribute
  | recursion
  deriving DecidableEq, Repr

/-- The Unicode database: the value of a decimal digit, and what is a space, beyond ASCII. -/
structure Unicode where
  decimal : Nat → Option Nat
  space : Nat → Bool

/-- `sys.get_int_max_str_digits()`. -/
def intMaxStrDigits : Nat := 4300

/-- The nearest float, which is infinite beyond the largest. -/
def nearestFloat (x : ℚ) : FloatEntry := if (2 : ℚ) ^ 1024 ≤ |float64 x| then .infinite (decide (x < 0)) else .finite (float64 x)

def pythonFloats : Json.Floats FloatEntry where
  nan := .nan
  infinity := .infinite
  decimal negative digits power := nearestFloat ((if negative then -(digits : ℚ) else digits) * 10 ^ power)

namespace JsonValue

/-- The ASCII form of a character of a number. -/
def asciiOf (unicode : Unicode) (c : Nat) : Nat :=
  if c < 127 then c
  else if unicode.space c then 32
  else (unicode.decimal c).elim 63 (48 + ·)

def isSpace (c : Nat) : Bool := c = 32 || (9 ≤ c && c ≤ 13)

/-- The digits of an integer, with single underscores between them, and spaces at the end: its value and how many there are. -/
def readDigits : (value count : Nat) → (afterDigit : Bool) → List Nat → Option (Nat × Nat)
  | value, count, afterDigit, [] => if afterDigit then some (value, count) else none
  | value, count, afterDigit, c :: rest =>
    if 48 ≤ c ∧ c ≤ 57 then readDigits (value * 10 + (c - 48)) (count + 1) true rest
    else if !afterDigit then none
    else if c = 95 then readDigits value count false rest
    else if isSpace c && rest.all isSpace then some (value, count)
    else none

/-- The integer that a string is, if it is one that `int` reads. -/
def readInt (unicode : Unicode) (s : Json.Text) : Option Int := do
  let s := (s.map (asciiOf unicode)).dropWhile isSpace
  let (negative, s) := match s with
    | 43 :: rest => (false, rest)
    | 45 :: rest => (true, rest)
    | s => (false, s)
  let (value, count) ← readDigits 0 0 false s
  if intMaxStrDigits < count then none else some (if negative then -(value : Int) else value)

/-- `int(x)`. -/
def toInt (unicode : Unicode) : JsonValue → Except PyError Int
  | .bool b => .ok (if b then 1 else 0)
  | .int n => .ok n
  | .float .nan => .error .value
  | .float (.infinite _) => .error .overflow
  | .float (.finite x) => .ok (if 0 ≤ x then ⌊x⌋ else ⌈x⌉)
  | .str s => (readInt unicode s).elim (.error .value) .ok
  | _ => .error .type

/-- `bool(x)`. -/
def truth : JsonValue → Bool
  | .null => false
  | .bool b => b
  | .int n => n ≠ 0
  | .float (.finite x) => x ≠ 0
  | .float _ => true
  | .str s => s ≠ []
  | .arr items => !items.isEmpty
  | .obj members => !members.isEmpty

/-- What a loop over a value yields: the keys of an object, the characters of a string. -/
def iterate : JsonValue → Except PyError (List JsonValue)
  | .arr items => .ok items
  | .obj members => .ok (members.map fun m => .str m.1)
  | .str s => .ok (s.map fun c => .str [c])
  | _ => .error .type

/-- `int(x)` of each value that a loop over a value yields. -/
def toInts (unicode : Unicode) (x : JsonValue) : Except PyError (List Int) := do
  let items ← iterate x
  items.mapM (toInt unicode)

end JsonValue

end HumanoidLab
