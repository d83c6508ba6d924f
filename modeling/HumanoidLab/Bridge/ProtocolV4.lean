import HumanoidLab.Bridge.Builtins
import HumanoidLab.Lib.Bytes
import Mathlib.Algebra.BigOperators.Group.List.Basic
import Mathlib.Data.List.DropRight

/-! The bytes of a `pose` message: `pack_latent_action_message` (`datasets/sonic/protocol_v4.py`) and `decode_protocol_v4`
    (`psi0_bridge/telemetry.py`). A float32 is its 32 bits. -/

namespace HumanoidLab.ProtocolV4

/-! ### Packing -/

def headerSize : Nat := 1280

/-- `b"pose"`. -/
def topic : List UInt8 := Bytes.encodeUtf8 "pose".toList

/-- A float32 array: its shape, and its words in row-major order. -/
structure Float32Array where
  shape : List Nat
  words : List (BitVec 32)
  size : words.length = shape.prod

/-- `np.isfinite`: the exponent is not the last. -/
def isFinite (w : BitVec 32) : Bool := w.toNat / 2 ^ 23 % 256 ≠ 255

inductive PackError
  | value (text : String)
  | overflow
  deriving DecidableEq, Repr

/-- The text of a shape. -/
def shapeText : List Nat → String
  | [n] => s!"({n},)"
  | shape => "(" ++ String.intercalate ", " (shape.map toString) ++ ")"

/-- A field of a message, with the bytes of its array. -/
structure Field where
  name : String
  dtype : String
  shape : List Nat
  bytes : List UInt8
  deriving DecidableEq, Repr

/-- The words of a finite array of one row. -/
def oneRow (name : String) (width : Nat) (a : Float32Array) : Except PackError (List (BitVec 32)) :=
  let shape := if a.shape = [width] then [1, width] else a.shape
  if shape ≠ [1, width] ∨ !a.words.all isFinite then
    .error (.value s!"{name} must be finite [{width}] or [1,{width}], got {shapeText shape}")
  else .ok a.words

def wordsField (name : String) (words : List (BitVec 32)) : Field :=
  ⟨name, "f32", [1, words.length], words.flatMap fun w => Bytes.ofWord 4 w.toNat⟩

def indexField (index : BitVec 64) : Field := ⟨"frame_index", "i64", [1], Bytes.ofWord 8 index.toNat⟩

/-- The one frame index, as an int64. -/
def readIndex (frameIndex : List Int) : Except PackError (BitVec 64) :=
  if !frameIndex.all fun n => -2 ^ 63 ≤ n ∧ n < 2 ^ 63 then .error .overflow
  else
    match frameIndex with
    | [n] => .ok (BitVec.ofInt 64 n)
    | _ => .error (.value s!"frame_index must contain one value, got {shapeText [frameIndex.length]}")

/-- The field of a hand, if it is given. -/
def handField (name : String) (hand : Option Float32Array) : Except PackError (List Field) :=
  match hand with
  | none => .ok []
  | some a => (oneRow name 7 a).map fun words => [wordsField name words]

def Field.descriptor (f : Field) : JsonValue :=
  .obj [(Json.text "name", .str (Json.text f.name)), (Json.text "dtype", .str (Json.text f.dtype)),
    (Json.text "shape", .arr (f.shape.map fun n : Nat => .int n))]

def headerValue (fields : List Field) : JsonValue :=
  .obj [(Json.text "v", .int 4), (Json.text "endian", .str (Json.text "le")), (Json.text "count", .int 1),
    (Json.text "fields", .arr (fields.map Field.descriptor))]

/-- The JSON of a header, which has no floats. -/
def headerBytes (fields : List Field) : List UInt8 := Bytes.encodeUtf8 (Json.dumps (fun _ => []) (headerValue fields))

/-- The message of some fields. -/
def assemble (fields : List Field) : Except PackError (List UInt8) :=
  if headerSize < (headerBytes fields).length then .error (.value "Protocol v4 header exceeds fixed size")
  else .ok (topic ++ (headerBytes fields).rightpad headerSize 0 ++ fields.flatMap Field.bytes)

/-- `pack_latent_action_message`. A frame index that is an integer is an array of one. -/
def packLatentActionMessage (motionToken : Float32Array) (frameIndex : List Int) (leftHandJoints rightHandJoints : Option Float32Array) :
    Except PackError (List UInt8) := do
  let token ← oneRow "motion_token" 64 motionToken
  let index ← readIndex frameIndex
  let left ← handField "left_hand_joints" leftHandJoints
  let right ← handField "right_hand_joints" rightHandJoints
  assemble ([wordsField "token_state" token, indexField index] ++ left ++ right)

/-! ### Decoding -/

/-- What `decode_protocol_v4` raises: a `TelemetryError`, with what its text shows, or another exception. -/
inductive DecodeError
  | notPose (start : List UInt8)
  | shortHeader (length : Nat)
  | unsupported (dtype : Option JsonValue)
  | python (e : PyError)

/-- The types of the entries that are decoded. -/
inductive Dtype
  | f32
  | i64
  deriving DecidableEq, Repr

def Dtype.itemsize : Dtype → Nat
  | .f32 => 4
  | .i64 => 8

/-- An entry of a decoded field. -/
inductive Entry
  | f32 (word : BitVec 32)
  | i64 (n : Int)
  deriving DecidableEq, Repr

/-- A decoded field: the nested list that `tolist` makes, as its shape and its entries. -/
structure FieldValue where
  shape : List Nat
  entries : List Entry
  deriving DecidableEq, Repr

structure Message where
  fields : List (Json.Text × FieldValue)
  bytes : Nat
  deriving DecidableEq, Repr

/-- The interpreter: its Unicode database, how many containers `json.loads` lets nest, and `str` of what is not a string. -/
structure Interpreter where
  unicode : Unicode
  jsonDepth : Nat
  str : JsonValue → Json.Text

section
variable (i : Interpreter)

/-- `_DTYPES`. -/
def dtypes : List (Json.Text × Dtype) := [(Json.text "f32", .f32), (Json.text "i64", .i64)]

def readEntry (dtype : Dtype) (bytes : List UInt8) : Entry :=
  match dtype with
  | .f32 => .f32 (BitVec.ofNat 32 (Bytes.toWord bytes))
  | .i64 => .i64 (BitVec.ofNat 64 (Bytes.toWord bytes)).toInt

/-- The entries of some bytes, so many of them. -/
def readEntries (dtype : Dtype) : Nat → List UInt8 → List Entry
  | 0, _ => []
  | count + 1, bytes => readEntry dtype (bytes.take dtype.itemsize) :: readEntries dtype count (bytes.drop dtype.itemsize)

/-- `np.frombuffer`: a negative count takes what is left. -/
def frombuffer (payload : List UInt8) (dtype : Dtype) (count offset : Int) : Except PyError (List Entry) :=
  if ¬(-2 ^ 63 ≤ count ∧ count < 2 ^ 63) then .error .overflow
  else if offset < 0 ∨ (payload.length : Int) < offset then .error .value
  else
    let rest := payload.drop offset.toNat
    if count < 0 then
      if rest.length % dtype.itemsize ≠ 0 then .error .value
      else .ok (readEntries dtype (rest.length / dtype.itemsize) rest)
    else if rest.length < count.toNat * dtype.itemsize then .error .value
    else .ok (readEntries dtype count.toNat rest)

/-- `reshape`, where one size may be unknown. -/
def reshape (size : Nat) (shape : List Int) : Except PyError (List Nat) :=
  let known := ((shape.filter (0 ≤ ·)).map Int.toNat).prod
  match shape.countP (· < 0) with
  | 0 => if known = size then .ok (shape.map Int.toNat) else .error .value
  | 1 =>
    if known = 0 ∨ size % known ≠ 0 then .error .value
    else .ok (shape.map fun n => if n < 0 then size / known else n.toNat)
  | _ => .error .value

/-- `value.get(key)`, which only an object has. -/
def getAttr (v : JsonValue) (key : String) : Except PyError (Option JsonValue) :=
  match v with
  | .obj members => .ok (Json.Value.get members key)
  | _ => .error .attribute

/-- One descriptor: the name and the value of its field, and where the next one starts. -/
def decodeField (payload : List UInt8) (descriptor : JsonValue) (offset : Int) : Except DecodeError (Json.Text × FieldValue × Int) := do
  let named ← (getAttr descriptor "dtype").mapError .python
  let dtype ← match named with
    | some (.str s) => (dtypes.lookup s).elim (.error (.unsupported named)) .ok
    | _ => .error (.unsupported named)
  let sizes ← (getAttr descriptor "shape").mapError .python
  let shape ← (JsonValue.toInts i.unicode (sizes.getD (.arr []))).mapError .python
  let entries ← (frombuffer payload dtype shape.prod offset).mapError .python
  let sizes ← (reshape entries.length shape).mapError .python
  let name ← (getAttr descriptor "name").mapError .python
  match name with
  | none => .error (.python .key)
  | some (.str s) => .ok (s, ⟨sizes, entries⟩, offset + shape.prod * dtype.itemsize)
  | some v => .ok (i.str v, ⟨sizes, entries⟩, offset + shape.prod * dtype.itemsize)

def decodeFields (payload : List UInt8) : List JsonValue → Int → List (Json.Text × FieldValue) →
    Except DecodeError (List (Json.Text × FieldValue))
  | [], _, fields => .ok fields
  | descriptor :: rest, offset, fields => do
    let (name, value, offset) ← decodeField i payload descriptor offset
    decodeFields payload rest offset (Json.insert name value fields)

/-- The descriptors of a header, once its padding is stripped. -/
def readHeader (header : List UInt8) : Except PyError (List JsonValue) :=
  match Bytes.decodeUtf8 header with
  | none => .error .unicode
  | some text =>
    match Json.loads ⟨i.jsonDepth, intMaxStrDigits⟩ pythonFloats text with
    | .error .recursion => .error .recursion
    | .error _ => .error .value
    | .ok specification => do
      let fields ← getAttr specification "fields"
      JsonValue.iterate (fields.getD (.arr []))

/-- `decode_protocol_v4`. -/
def decodeProtocolV4 (payload : List UInt8) : Except DecodeError Message :=
  if !topic.isPrefixOf payload then .error (.notPose (payload.take 4))
  else if payload.length < 4 + headerSize then .error (.shortHeader payload.length)
  else do
    let descriptors ← (readHeader i (((payload.take (4 + headerSize)).drop 4).rdropWhile (· = 0))).mapError .python
    let fields ← decodeFields i payload descriptors (4 + headerSize : Nat) []
    .ok ⟨fields, payload.length⟩

end

end HumanoidLab.ProtocolV4
