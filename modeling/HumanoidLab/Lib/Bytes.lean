import Mathlib.Data.List.Basic
import Mathlib.Data.List.DropRight
import Mathlib.Tactic.Ring

/-! Bytes: little-endian words, UTF-8 and base64. -/

namespace Bytes

/-! ### Words -/

/-- The low bytes of a number, the lowest first. -/
def ofWord : Nat → Nat → List UInt8
  | 0, _ => []
  | width + 1, x => UInt8.ofNat x :: ofWord width (x / 256)

def toWord (bytes : List UInt8) : Nat := bytes.foldr (fun b x => b.toNat + 256 * x) 0

@[simp] theorem ofWord_length (width x : Nat) : (ofWord width x).length = width := by
  induction width generalizing x with
  | zero => rfl
  | succ width ih => exact congrArg (· + 1) (ih _)

/-- A word that fits is read back. -/
theorem toWord_ofWord {width x : Nat} (h : x < 256 ^ width) : toWord (ofWord width x) = x := by
  induction width generalizing x with
  | zero =>
    obtain rfl : x = 0 := Nat.lt_one_iff.mp (by simpa using h)
    rfl
  | succ width ih =>
    have hrest : x / 256 < 256 ^ width := Nat.div_lt_of_lt_mul (by rwa [mul_comm, ← pow_succ])
    have hlow : (UInt8.ofNat x).toNat = x % 256 := UInt8.toNat_ofNat'
    show (UInt8.ofNat x).toNat + 256 * toWord (ofWord width (x / 256)) = x
    rw [hlow, ih hrest]
    exact Nat.mod_add_div x 256

/-- Padding is stripped again where the last byte is not of it. -/
theorem rdropWhile_rightpad {bytes : List UInt8} {pad last : UInt8} (hlast : bytes.getLast? = some last) (hpad : last ≠ pad) (n : Nat) :
    (bytes.rightpad n pad).rdropWhile (· = pad) = bytes := by
  obtain ⟨init, rfl⟩ := List.getLast?_eq_some_iff.mp hlast
  unfold List.rightpad
  induction n - (init ++ [last]).length with
  | zero =>
    rw [List.replicate_zero, List.append_nil]
    exact List.rdropWhile_concat_neg _ _ _ (by simpa using hpad)
  | succ k ih =>
    rw [List.replicate_succ', ← List.append_assoc, List.rdropWhile_concat_pos _ _ _ (by simp)]
    exact ih

/-! ### UTF-8 -/

/-- The payload of a byte that continues a character. -/
def continuation? (b : UInt8) : Option Nat := if 0x80 ≤ b.toNat ∧ b.toNat < 0xC0 then some (b.toNat - 0x80) else none

/-- A code point of at least a size, which is not a surrogate. -/
def codePoint? (least code : Nat) : Option Char :=
  if least ≤ code ∧ code < 0x110000 ∧ ¬(0xD800 ≤ code ∧ code < 0xE000) then some (Char.ofNat code) else none

/-- Strict decoding: no overlong form, no surrogate, nothing beyond the last code point. -/
def decodeUtf8 : List UInt8 → Option (List Char)
  | [] => some []
  | a :: rest =>
    if a.toNat < 0x80 then (decodeUtf8 rest).map (Char.ofNat a.toNat :: ·)
    else match rest with
      | [] => none
      | b :: rest =>
        if 0xC0 ≤ a.toNat ∧ a.toNat < 0xE0 then do
          let low ← continuation? b
          let c ← codePoint? 0x80 ((a.toNat - 0xC0) * 0x40 + low)
          (decodeUtf8 rest).map (c :: ·)
        else match rest with
          | [] => none
          | d :: rest =>
            if 0xE0 ≤ a.toNat ∧ a.toNat < 0xF0 then do
              let high ← continuation? b
              let low ← continuation? d
              let c ← codePoint? 0x800 (((a.toNat - 0xE0) * 0x40 + high) * 0x40 + low)
              (decodeUtf8 rest).map (c :: ·)
            else match rest with
              | [] => none
              | e :: rest =>
                if 0xF0 ≤ a.toNat ∧ a.toNat < 0xF8 then do
                  let high ← continuation? b
                  let middle ← continuation? d
                  let low ← continuation? e
                  let c ← codePoint? 0x10000 ((((a.toNat - 0xF0) * 0x40 + high) * 0x40 + middle) * 0x40 + low)
                  (decodeUtf8 rest).map (c :: ·)
                else none

def encodeUtf8 (s : List Char) : List UInt8 := s.flatMap String.utf8EncodeChar

/-! ### Base64 -/

/-- The six bits of a character, by its code point. -/
def sextet? (c : Nat) : Option Nat :=
  if 65 ≤ c ∧ c ≤ 90 then some (c - 65)
  else if 97 ≤ c ∧ c ≤ 122 then some (c - 71)
  else if 48 ≤ c ∧ c ≤ 57 then some (c + 4)
  else if c = 43 then some 62
  else if c = 47 then some 63
  else none

/-- `binascii.a2b_base64`, not strict: the place in a group of four, the bits that are left over, and the pads in a row. What is not
    of the alphabet is skipped, and a group that its pads complete ends the text. -/
def decodeBase64 (place left pads : Nat) : List Nat → Option (List UInt8)
  | [] => if place = 0 then some [] else none
  | c :: rest =>
    if c = 61 then
      if place < 2 then decodeBase64 place left pads rest
      else if 4 ≤ place + pads + 1 then some []
      else decodeBase64 place left (pads + 1) rest
    else
      match sextet? c, place with
      | none, _ => decodeBase64 place left pads rest
      | some v, 0 => decodeBase64 1 v 0 rest
      | some v, 1 => (decodeBase64 2 (v % 16) 0 rest).map (UInt8.ofNat (left * 4 + v / 16) :: ·)
      | some v, 2 => (decodeBase64 3 (v % 4) 0 rest).map (UInt8.ofNat (left * 16 + v / 4) :: ·)
      | some v, _ => (decodeBase64 0 0 0 rest).map (UInt8.ofNat (left * 64 + v) :: ·)

end Bytes
