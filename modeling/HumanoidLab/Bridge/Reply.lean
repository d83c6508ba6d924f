import HumanoidLab.Bridge.Builtins
import HumanoidLab.Bridge.Stream
import HumanoidLab.Lib.Bytes

/-! The decoding of a reply of the policy server (`psi0_bridge/psi0_client.py`, `decode_response`): JSON, the numpy envelopes in
    its action, and the fields of the reply. The `err` of a reply is read and not kept, as nothing here uses it. -/

namespace HumanoidLab
open Psi0Dex3 (FloatEntry float64)

/-- A value of `json.loads` with its numpy envelopes decoded. -/
inductive Decoded (A : Type)
  | plain (v : JsonValue)
  | array (a : A)
  | list (items : List (Decoded A))
  | dict (members : List (Json.Text × Decoded A))

/-- The functions of numpy, over its dtypes and arrays. -/
structure Numpy (K D A : Type) where
  dtype : JsonValue → Except PyError D
  frombuffer : List UInt8 → D → Except PyError A
  reshape : A → List Int → Except PyError A
  first : A → Except PyError A
  asarray : Decoded A → Except PyError (NdArray K)

/-- What `decode_response` raises: a `Psi0ClientError`, or an exception that it does not catch. -/
inductive ReplyError
  | client
  | python (e : PyError)
  deriving DecidableEq, Repr

/-- The interpreter: its Unicode database, and how many containers `json.loads` and how many calls of `_convert` it lets nest. -/
structure Interpreter where
  unicode : Unicode
  jsonDepth : Nat
  convertDepth : Nat

def Interpreter.limits (i : Interpreter) : Json.Limits := ⟨i.jsonDepth, intMaxStrDigits⟩

/-- `base64.b64decode`. -/
def b64decode : JsonValue → Except PyError (List UInt8)
  | .str s => if s.all (· < 128) then (Bytes.decodeBase64 0 0 0 s).elim (.error .value) .ok else .error .value
  | _ => .error .type

/-- `value[key]`. -/
def member (members : List (Json.Text × JsonValue)) (key : String) : Except PyError JsonValue :=
  (Json.Value.get members key).elim (.error .key) .ok

section
variable {K D A : Type} (i : Interpreter) (np : Numpy K D A)

/-- `numpy_deserialize` of an envelope. -/
def numpyDeserialize (members : List (Json.Text × JsonValue)) : Except PyError A := do
  let payload ← member members "__numpy__"
  let bytes ← b64decode payload
  let descr ← member members "dtype"
  let dtype ← np.dtype descr
  let buffer ← np.frombuffer bytes dtype
  let shape := (Json.Value.get members "shape").getD .null
  if JsonValue.truth shape then do
    let dims ← JsonValue.toInts i.unicode shape
    np.reshape buffer dims
  else np.first buffer

/-- `_convert` with `numpy_deserialize`: the number counts the calls that may still nest. -/
def convert : Nat → JsonValue → Except PyError (Decoded A)
  | 0, _ => .error .recursion
  | depth + 1, .obj members =>
    if (Json.Value.get members "__numpy__").isSome then (numpyDeserialize i np members).map .array
    else (members.mapM fun m => (convert depth m.2).map (m.1, ·)).map .dict
  | depth + 1, .arr items => (items.mapM (convert depth)).map .list
  | _ + 1, v => .ok (.plain v)

/-- `float(err)`, whose `TypeError` and `ValueError` are caught. -/
def checkErr : JsonValue → Except PyError Unit
  | .int n => if (2 : ℚ) ^ 1024 ≤ |float64 n| then .error .overflow else .ok ()
  | _ => .ok ()

/-- The fields of a reply. -/
def readReply (members : List (Json.Text × JsonValue)) (action : JsonValue) : Except PyError (ActionReply K) := do
  let decoded ← convert i np i.convertDepth action
  let array ← np.asarray decoded
  let version ← JsonValue.toInt i.unicode ((Json.Value.get members "version").getD (.int 0))
  checkErr ((Json.Value.get members "err").getD (.float (.finite 0)))
  .ok ⟨version, ⟨[array.values.length], array.values, (Nat.mul_one _).symm⟩⟩

/-- `decode_response` of a text. -/
def decodeResponse (payload : List Char) : Except ReplyError (ActionReply K) :=
  match Json.loads i.limits pythonFloats payload with
  | .error .decode => .error .client
  | .error .recursion => .error (.python .recursion)
  | .error .digits => .error (.python .value)
  | .ok (.obj members) =>
    match Json.Value.get members "action" with
    | none => .error .client
    | some action => (readReply i np members action).mapError .python
  | .ok _ => .error .client

/-- The decoder of a stream. -/
def streamDecode (payload : List Char) : Except DecodeError (ActionReply K) :=
  (decodeResponse i np payload).mapError fun
    | .client => .client
    | .python _ => .other

end

end HumanoidLab
