import Mathlib.Order.Lattice

/-! Joint commands (`contracts/commands.py`): what a controller hands to the simulator, with the tick up
    to which it is valid, and the joint layouts that they are checked against. -/

namespace HumanoidLab

/-- A floating-point value: a finite number, or an infinity or NaN. -/
inductive Value (K : Type)
  | fin (x : K)
  | nonFinite
  deriving DecidableEq, Repr

/-- What a provider raises: a `CommandError` with its text, or an `IndexError`. -/
inductive Raised
  | command (text : String)
  | index
  deriving DecidableEq, Repr

variable {K : Type}

def finite (values : List (Value K)) (name : String) : Except Raised (List K) :=
  values.mapM fun
    | .fin x => .ok x
    | .nonFinite => .error (.command s!"{name} must contain only finite values")

/-- The five vectors of a command, before they are checked. -/
structure Vectors (K : Type) where
  q : List (Value K)
  dq : List (Value K)
  tau : List (Value K)
  kp : List (Value K)
  kd : List (Value K)
  deriving DecidableEq, Repr

/-- One group of joints, the body or a single hand. -/
structure JointCommand (K : Type) where
  schema : String
  sequence : Nat
  jointNames : List String
  q : List K
  dq : List K
  tau : List K
  kp : List K
  kd : List K
  validUntilTick : Int
  deriving DecidableEq, Repr

namespace JointCommand

def build (schema : String) (sequence : Nat) (jointNames : List String) (v : Vectors K) (validUntilTick : Int) :
    Except Raised (JointCommand K) :=
  if jointNames = [] then .error (.command "a joint command needs at least one joint")
  else do
    let q ← finite v.q "q"
    let dq ← finite v.dq "dq"
    let tau ← finite v.tau "tau"
    let kp ← finite v.kp "kp"
    let kd ← finite v.kd "kd"
    return ⟨schema, sequence, jointNames, q, dq, tau, kp, kd, validUntilTick⟩

def isValidAt (c : JointCommand K) (tick : Int) : Bool := tick ≤ c.validUntilTick

end JointCommand

/-- Everything the simulator needs to drive one robot for one tick. -/
structure CompleteRobotCommand (K : Type) where
  episodeId : Nat
  body : JointCommand K
  leftHand : Option (JointCommand K)
  rightHand : Option (JointCommand K)
  deriving DecidableEq, Repr

namespace CompleteRobotCommand

def sequence (c : CompleteRobotCommand K) : Nat := c.body.sequence

def isValidAt (c : CompleteRobotCommand K) (tick : Int) : Bool :=
  c.body.isValidAt tick && [c.leftHand, c.rightHand].all fun hand => hand.all (·.isValidAt tick)

end CompleteRobotCommand

/-! ### Layouts -/

/-- A string as `repr` writes it, and a tuple of strings. -/
def quoted (s : String) : String := "'" ++ s ++ "'"

def tupleText : List String → String
  | [x] => "(" ++ quoted x ++ ",)"
  | xs => "(" ++ ", ".intercalate (xs.map quoted) ++ ")"

/-- Declared joint order, and where each name lives in the articulation. -/
structure JointLayout where
  names : List String
  indices : List Nat
  deriving DecidableEq, Repr

namespace JointLayout

/-- The joint of a name, which the asset has exactly once. -/
def lookup (available : List String) (what name : String) : Except Raised Nat :=
  match available.zipIdx.filter (·.1 = name) with
  | [] => .error (.command s!"{what} joint {quoted name} is not present in the asset")
  | [(_, index)] => .ok index
  | _ => .error (.command s!"{what} joint {quoted name} is ambiguous in the asset")

def resolve (names available : List String) (what : String) : Except Raised JointLayout :=
  if names.Nodup then do
    let indices ← names.mapM (lookup available what)
    return ⟨names, indices⟩
  else .error (.command s!"{what} declares duplicate joint names")

end JointLayout

namespace JointCommand

/-- The five vectors of a command, by name. -/
def fields (c : JointCommand K) : List (String × List K) :=
  [("q", c.q), ("dq", c.dq), ("tau", c.tau), ("kp", c.kp), ("kd", c.kd)]

def validate (layout : JointLayout) (c : JointCommand K) : Except Raised Unit :=
  if c.jointNames ≠ layout.names then
    .error (.command (c.schema ++ " joint names do not match the declared layout: expected " ++ tupleText layout.names ++
      ", got " ++ tupleText c.jointNames))
  else match c.fields.find? (·.2.length ≠ layout.names.length) with
    | some (field, values) =>
      .error (.command s!"{c.schema}.{field} has {values.length} values, expected {layout.names.length}")
    | none => .ok ()

end JointCommand

end HumanoidLab
