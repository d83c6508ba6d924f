import Mathlib.Data.List.Basic

/-! JSON as Python's `json.loads` reads it: a lexer and a parser that take one character and one token at a time, with the error that
    comes first in the text. Integers are exact; how the other numbers are read is a parameter, and so are the depth of the
    containers and the number of digits of an integer that are allowed. -/

namespace Json

/-- A string: its code points, which may be lone surrogates. -/
abbrev Text := List Nat

def text (s : String) : Text := s.toList.map Char.toNat

inductive Value (F : Type)
  | null
  | bool (b : Bool)
  | int (n : Int)
  | float (x : F)
  | str (s : Text)
  | arr (items : List (Value F))
  | obj (members : List (Text × Value F))

/-- The numbers that are not integers: a decimal has a sign, digits and a power of ten. -/
structure Floats (F : Type) where
  nan : F
  infinity : Bool → F
  decimal : Bool → Nat → Int → F

structure Limits where
  depth : Nat
  digits : Nat

/-- What a text that is not read ends with: a syntax error, too many containers in one another, or too many digits. -/
inductive LoadsError
  | decode
  | recursion
  | digits
  deriving DecidableEq, Repr

variable {F : Type}

/-! ### Objects -/

/-- An assignment to a member keeps its place. -/
def insert {V : Type} (key : Text) (v : V) : List (Text × V) → List (Text × V)
  | [] => [(key, v)]
  | (k, w) :: rest => if k = key then (k, v) :: rest else (k, w) :: insert key v rest

/-- A new member comes last. -/
theorem insert_new {V : Type} {key : Text} {members : List (Text × V)} (h : key ∉ members.map Prod.fst) (v : V) :
    insert key v members = members ++ [(key, v)] := by
  induction members with
  | nil => rfl
  | cons m members ih =>
    rw [List.map_cons, List.mem_cons, not_or] at h
    show (if m.1 = key then _ else m :: insert key v members) = _
    rw [if_neg (Ne.symm h.1), ih h.2]
    rfl

def Value.get (members : List (Text × Value F)) (key : String) : Option (Value F) := members.lookup (text key)

/-! ### The lexer -/

inductive Token (F : Type)
  | openArr
  | closeArr
  | openObj
  | closeObj
  | colon
  | comma
  | value (v : Value F)
  | tooLong
  | bad

/-- Where the lexer stands in a number. -/
inductive Phase
  | minus
  | zero
  | int
  | dot
  | frac
  | exponent
  | sign
  | power
  deriving DecidableEq, Repr

/-- A number as far as it is read: its digits, how many of them are before and after the point, and its power. -/
structure Number where
  negative : Bool := false
  digits : Nat := 0
  count : Nat := 0
  scale : Nat := 0
  powerNegative : Bool := false
  power : Nat := 0

inductive Lexer (F : Type)
  | idle
  | string (read : Text)
  | escape (read : Text)
  | unicode (read : Text) (left code : Nat)
  | word (rest : List Char) (v : Value F)
  | number (n : Number) (phase : Phase)

section
variable (maxDigits : Nat) (floats : Floats F)

/-- The surrogates that stand for one code point, joined. -/
def joinSurrogates : Text → Text
  | high :: low :: rest =>
    if 0xD800 ≤ high ∧ high < 0xDC00 ∧ 0xDC00 ≤ low ∧ low < 0xE000 then
      (0x10000 + (high - 0xD800) * 0x400 + (low - 0xDC00)) :: joinSurrogates rest
    else high :: joinSurrogates (low :: rest)
  | s => s

def digit? (c : Char) : Option Nat := if '0' ≤ c ∧ c ≤ '9' then some (c.toNat - 48) else none

def hexDigit? (c : Char) : Option Nat :=
  if '0' ≤ c ∧ c ≤ '9' then some (c.toNat - 48)
  else if 'a' ≤ c ∧ c ≤ 'f' then some (c.toNat - 87)
  else if 'A' ≤ c ∧ c ≤ 'F' then some (c.toNat - 55)
  else none

namespace Number

def intToken (n : Number) : Token F :=
  if maxDigits < n.count then .tooLong else .value (.int (if n.negative then -(n.digits : Int) else n.digits))

def decimalToken (n : Number) : Token F :=
  .value (.float (floats.decimal n.negative n.digits ((if n.powerNegative then -(n.power : Int) else n.power) - n.scale)))

/-- The tokens of a number that ends here: what does not belong to it is an error of its own. -/
def tokens (n : Number) : Phase → List (Token F)
  | .minus => [.bad]
  | .zero | .int => [n.intToken maxDigits]
  | .dot => [n.intToken maxDigits, .bad]
  | .frac | .power => [n.decimalToken floats]
  | .exponent | .sign => [if n.scale = 0 then n.intToken maxDigits else n.decimalToken floats, .bad]

def intDigit (n : Number) (d : Nat) : Number := { n with digits := n.digits * 10 + d, count := n.count + 1 }

def fracDigit (n : Number) (d : Nat) : Number := { n with digits := n.digits * 10 + d, scale := n.scale + 1 }

def powerDigit (n : Number) (d : Nat) : Number := { n with power := n.power * 10 + d }

/-- One more character of a number, if it belongs to it. -/
def next (n : Number) (phase : Phase) (c : Char) : Option (Number × Phase) :=
  match phase, digit? c with
  | .minus, some 0 => some (n.intDigit 0, .zero)
  | .minus, some d | .int, some d => some (n.intDigit d, .int)
  | .dot, some d | .frac, some d => some (n.fracDigit d, .frac)
  | .exponent, some d | .sign, some d | .power, some d => some (n.powerDigit d, .power)
  | .zero, none | .int, none =>
    if c = '.' then some (n, .dot) else if c = 'e' ∨ c = 'E' then some (n, .exponent) else none
  | .frac, none => if c = 'e' ∨ c = 'E' then some (n, .exponent) else none
  | .exponent, none =>
    if c = '+' then some (n, .sign) else if c = '-' then some ({ n with powerNegative := true }, .sign) else none
  | _, _ => none

end Number

namespace Lexer

/-- A character between two tokens. -/
def start (c : Char) : List (Token F) × Lexer F :=
  match c with
  | ' ' | '\t' | '\n' | '\r' => ([], .idle)
  | '[' => ([.openArr], .idle)
  | ']' => ([.closeArr], .idle)
  | '\x7b' => ([.openObj], .idle)
  | '\x7d' => ([.closeObj], .idle)
  | ':' => ([.colon], .idle)
  | ',' => ([.comma], .idle)
  | '"' => ([], .string [])
  | 'n' => ([], .word "ull".toList .null)
  | 't' => ([], .word "rue".toList (.bool true))
  | 'f' => ([], .word "alse".toList (.bool false))
  | 'N' => ([], .word "aN".toList (.float floats.nan))
  | 'I' => ([], .word "nfinity".toList (.float (floats.infinity false)))
  | '-' => ([], .number { negative := true } .minus)
  | c =>
    match digit? c with
    | some 0 => ([], .number (Number.intDigit {} 0) .zero)
    | some d => ([], .number (Number.intDigit {} d) .int)
    | none => ([.bad], .idle)

def escaped (read : Text) (c : Char) : List (Token F) × Lexer F :=
  match c with
  | 'u' => ([], .unicode read 4 0)
  | '"' | '\\' | '/' => ([], .string (c.toNat :: read))
  | 'b' => ([], .string (8 :: read))
  | 'f' => ([], .string (12 :: read))
  | 'n' => ([], .string (10 :: read))
  | 'r' => ([], .string (13 :: read))
  | 't' => ([], .string (9 :: read))
  | _ => ([.bad], .idle)

/-- One character. What is read of a string is kept in reverse. -/
def step : Lexer F → Char → List (Token F) × Lexer F
  | .idle, c => start floats c
  | .string read, c =>
    if c = '"' then ([.value (.str (joinSurrogates read.reverse))], .idle)
    else if c = '\\' then ([], .escape read)
    else if c.toNat < 32 then ([.bad], .idle)
    else ([], .string (c.toNat :: read))
  | .escape read, c => escaped read c
  | .unicode read left code, c =>
    match hexDigit? c with
    | none => ([.bad], .idle)
    | some d => if left ≤ 1 then ([], .string ((code * 16 + d) :: read)) else ([], .unicode read (left - 1) (code * 16 + d))
  | .word [] _, _ => ([.bad], .idle)
  | .word (x :: rest) v, c =>
    if c = x then (if rest = [] then ([.value v], .idle) else ([], .word rest v)) else ([.bad], .idle)
  | .number n phase, c =>
    if phase = .minus ∧ c = 'I' then ([], .word "nfinity".toList (.float (floats.infinity true)))
    else
      match n.next phase c with
      | some (n, phase) => ([], .number n phase)
      | none => (n.tokens maxDigits floats phase ++ (start floats c).1, (start floats c).2)

/-- The end of the text. -/
def finish : Lexer F → List (Token F)
  | .idle => []
  | .number n phase => n.tokens maxDigits floats phase
  | _ => [.bad]

def lex : Lexer F → List Char → List (Token F)
  | s, [] => s.finish maxDigits floats
  | s, c :: rest => (s.step maxDigits floats c).1 ++ lex (s.step maxDigits floats c).2 rest

end Lexer

end

/-! ### The parser -/

/-- A container that is open, with what is read of it; an object also has its last key. -/
inductive Frame (F : Type)
  | arr (items : List (Value F))
  | obj (members : List (Text × Value F)) (key : Text)

inductive Expect (F : Type)
  | value
  | firstItem
  | firstKey
  | key
  | colon
  | more
  | done (v : Value F)

structure Parser (F : Type) where
  stack : List (Frame F)
  expect : Expect F

namespace Parser
section
variable (depth : Nat)

/-- A value that is complete, in its container. -/
def complete (v : Value F) : List (Frame F) → Parser F
  | [] => ⟨[], .done v⟩
  | .arr items :: rest => ⟨.arr (items ++ [v]) :: rest, .more⟩
  | .obj members key :: rest => ⟨.obj (insert key v members) key :: rest, .more⟩

def enter (frame : Frame F) (expect : Expect F) (stack : List (Frame F)) : Except LoadsError (Parser F) :=
  if depth ≤ stack.length then .error .recursion else .ok ⟨frame :: stack, expect⟩

/-- A token where a value may start. -/
def value (stack : List (Frame F)) : Token F → Except LoadsError (Parser F)
  | .value v => .ok (complete v stack)
  | .tooLong => .error .digits
  | .openArr => enter depth (.arr []) .firstItem stack
  | .openObj => enter depth (.obj [] []) .firstKey stack
  | _ => .error .decode

def key (members : List (Text × Value F)) (rest : List (Frame F)) : Token F → Except LoadsError (Parser F)
  | .value (.str k) => .ok ⟨.obj members k :: rest, .colon⟩
  | _ => .error .decode

/-- One token. -/
def step (p : Parser F) (t : Token F) : Except LoadsError (Parser F) :=
  match p.expect, p.stack with
  | .value, stack => value depth stack t
  | .firstItem, .arr items :: rest =>
    match t with
    | .closeArr => .ok (complete (.arr items) rest)
    | t => value depth p.stack t
  | .firstKey, .obj members _ :: rest =>
    match t with
    | .closeObj => .ok (complete (.obj members) rest)
    | t => key members rest t
  | .key, .obj members _ :: rest => key members rest t
  | .colon, stack =>
    match t with
    | .colon => .ok ⟨stack, .value⟩
    | _ => .error .decode
  | .more, .arr items :: rest =>
    match t with
    | .comma => .ok ⟨.arr items :: rest, .value⟩
    | .closeArr => .ok (complete (.arr items) rest)
    | _ => .error .decode
  | .more, .obj members k :: rest =>
    match t with
    | .comma => .ok ⟨.obj members k :: rest, .key⟩
    | .closeObj => .ok (complete (.obj members) rest)
    | _ => .error .decode
  | _, _ => .error .decode

end
end Parser

/-- `json.loads` of a text. -/
def loads (limits : Limits) (floats : Floats F) (s : List Char) : Except LoadsError (Value F) := do
  let p ← (Lexer.lex limits.digits floats .idle s).foldlM (Parser.step limits.depth) ⟨[], .value⟩
  match p.expect with
  | .done v => .ok v
  | _ => .error .decode

/-! ### More depth -/

namespace Parser
variable {depth depth' : Nat} {p q : Parser F} {t : Token F} {stack : List (Frame F)}

theorem enter_mono (hle : depth ≤ depth') {frame : Frame F} {expect : Expect F} (h : enter depth frame expect stack = .ok q) :
    enter depth' frame expect stack = .ok q := by
  unfold enter at h ⊢
  split at h
  · cases h
  · rename_i hlt
    rw [if_neg fun hge => hlt (Nat.le_trans hle hge)]
    exact h

theorem value_mono (hle : depth ≤ depth') (h : value depth stack t = .ok q) : value depth' stack t = .ok q := by
  cases t with
  | openArr => exact enter_mono hle h
  | openObj => exact enter_mono hle h
  | _ => exact h

theorem step_mono (hle : depth ≤ depth') (h : step depth p t = .ok q) : step depth' p t = .ok q := by
  obtain ⟨stack, expect⟩ := p
  cases expect with
  | value => exact value_mono hle h
  | firstItem =>
    cases stack with
    | nil => exact h
    | cons frame rest =>
      cases frame with
      | obj members k => exact h
      | arr items =>
        cases t with
        | closeArr => exact h
        | openArr => exact enter_mono hle h
        | openObj => exact enter_mono hle h
        | _ => exact h
  | colon => exact h
  | done v => exact h
  | _ =>
    cases stack with
    | nil => exact h
    | cons frame rest => cases frame <;> exact h

end Parser

/-- A text that is read is read alike where more containers may nest. -/
theorem loads_mono {limits limits' : Limits} {floats : Floats F} {s : List Char} {v : Value F} (hdepth : limits.depth ≤ limits'.depth)
    (hdigits : limits'.digits = limits.digits) (h : loads limits floats s = .ok v) : loads limits' floats s = .ok v := by
  have hfold : ∀ (ts : List (Token F)) (p q : Parser F), ts.foldlM (Parser.step limits.depth) p = .ok q →
      ts.foldlM (Parser.step limits'.depth) p = .ok q := by
    intro ts
    induction ts with
    | nil => exact fun p q h => h
    | cons t ts ih =>
      intro p q h
      rw [List.foldlM_cons] at h ⊢
      cases hstep : Parser.step limits.depth p t with
      | error e =>
        rw [hstep] at h
        cases h
      | ok p' =>
        rw [hstep] at h
        rw [Parser.step_mono hdepth hstep]
        exact ih p' q h
  unfold loads at h ⊢
  rw [hdigits]
  cases hrun : (Lexer.lex limits.digits floats .idle s).foldlM (Parser.step limits.depth) ⟨[], .value⟩ with
  | error e =>
    rw [hrun] at h
    cases h
  | ok p =>
    rw [hrun] at h
    rw [hfold _ _ _ hrun]
    exact h

/-! ### Equality -/

section
variable [DecidableEq F]

mutual

def Value.beq : Value F → Value F → Bool
  | .null, .null => true
  | .bool a, .bool b => a = b
  | .int a, .int b => a = b
  | .float a, .float b => a = b
  | .str a, .str b => a = b
  | .arr as, .arr bs => beqItems as bs
  | .obj as, .obj bs => beqMembers as bs
  | _, _ => false
termination_by structural v => v

def beqItems : List (Value F) → List (Value F) → Bool
  | [], [] => true
  | a :: as, b :: bs => a.beq b && beqItems as bs
  | _, _ => false
termination_by structural items => items

def beqMembers : List (Text × Value F) → List (Text × Value F) → Bool
  | [], [] => true
  | (k, a) :: as, (l, b) :: bs => k = l && a.beq b && beqMembers as bs
  | _, _ => false
termination_by structural members => members

end

mutual

theorem Value.eq_of_beq (a b : Value F) (h : a.beq b = true) : a = b := by
  match a, b with
  | .null, .null => rfl
  | .bool _, .bool _ => exact congrArg _ (of_decide_eq_true h)
  | .int _, .int _ => exact congrArg _ (of_decide_eq_true h)
  | .float _, .float _ => exact congrArg _ (of_decide_eq_true h)
  | .str _, .str _ => exact congrArg _ (of_decide_eq_true h)
  | .arr as, .arr bs => exact congrArg _ (eq_of_beqItems as bs h)
  | .obj as, .obj bs => exact congrArg _ (eq_of_beqMembers as bs h)

theorem eq_of_beqItems (as bs : List (Value F)) (h : beqItems as bs = true) : as = bs := by
  match as, bs with
  | [], [] => rfl
  | a :: as, b :: bs =>
    obtain ⟨ha, has⟩ := (Bool.and_eq_true _ _).mp h
    rw [a.eq_of_beq b ha, eq_of_beqItems as bs has]

theorem eq_of_beqMembers (as bs : List (Text × Value F)) (h : beqMembers as bs = true) : as = bs := by
  match as, bs with
  | [], [] => rfl
  | (k, a) :: as, (l, b) :: bs =>
    obtain ⟨hka, has⟩ := (Bool.and_eq_true _ _).mp h
    obtain ⟨hk, ha⟩ := (Bool.and_eq_true _ _).mp hka
    rw [of_decide_eq_true hk, a.eq_of_beq b ha, eq_of_beqMembers as bs has]

end

end

/-! ### `json.dumps` -/

def hexChar (n : Nat) : Char := Char.ofNat (if n < 10 then 48 + n else 87 + n)

/-- The escape of a code unit. -/
def escapeUnit (n : Nat) : List Char := ['\\', 'u', hexChar (n / 4096), hexChar (n / 256 % 16), hexChar (n / 16 % 16), hexChar (n % 16)]

/-- A character of a string, in ASCII. -/
def escapeChar (c : Nat) : List Char :=
  if c = 34 then ['\\', '"']
  else if c = 92 then ['\\', '\\']
  else if c = 8 then ['\\', 'b']
  else if c = 12 then ['\\', 'f']
  else if c = 10 then ['\\', 'n']
  else if c = 13 then ['\\', 'r']
  else if c = 9 then ['\\', 't']
  else if 32 ≤ c ∧ c < 127 then [Char.ofNat c]
  else if c < 0x10000 then escapeUnit c
  else escapeUnit (0xD800 + (c - 0x10000) / 0x400) ++ escapeUnit (0xDC00 + (c - 0x10000) % 0x400)

def quote (s : Text) : List Char := '"' :: s.flatMap escapeChar ++ ['"']

section
variable (showFloat : F → List Char)

mutual

/-- `json.dumps` with the separators `,` and `:`. -/
def dumps : Value F → List Char
  | .null => "null".toList
  | .bool b => if b then "true".toList else "false".toList
  | .int n => (toString n).toList
  | .float x => showFloat x
  | .str s => quote s
  | .arr items => '[' :: dumpsItems items ++ [']']
  | .obj members => '\x7b' :: dumpsMembers members ++ ['\x7d']
termination_by structural v => v

def dumpsItems : List (Value F) → List Char
  | [] => []
  | [v] => dumps v
  | v :: rest => dumps v ++ ',' :: dumpsItems rest
termination_by structural items => items

def dumpsMembers : List (Text × Value F) → List Char
  | [] => []
  | [(k, v)] => quote k ++ ':' :: dumps v
  | (k, v) :: rest => quote k ++ ':' :: dumps v ++ ',' :: dumpsMembers rest
termination_by structural members => members

end

end

end Json
