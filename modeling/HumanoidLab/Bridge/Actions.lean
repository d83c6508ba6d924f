import HumanoidLab.Contracts.Commands
import HumanoidLab.Lib.Fallible
import HumanoidLab.Lib.Machine
import HumanoidLab.Lib.Rounding
import Mathlib.Algebra.Order.AbsoluteValue.Basic

/-! The action adapter (`psi0_bridge/actions.py`): it splits an action of the model into the fields of a `pose`
    message and numbers the messages that it packs. The fields of a message stand for its bytes. -/

namespace HumanoidLab
open Fallible Rounding

def handDim : Nat := 7
def tokenDim : Nat := 64
def hand14Dim : Nat := 2 * handDim
def neckDim : Nat := 2
def actionDims : List Nat := [78, 80]

/-- A numeric array: its shape, and its values in row-major order. -/
structure NdArray (K : Type) where
  shape : List Nat
  values : List (Value K)
  size : values.length = shape.prod

/-- How a neck block outside the tolerance is treated. -/
inductive NeckPolicy
  | error
  | discard
  deriving DecidableEq, Repr

/-- What the adapter is built with. -/
structure AdapterConfig (K : Type) where
  neckTolerance : K
  expectedDim : Option Nat := none
  neckPolicy : NeckPolicy := .error
  known : ∀ n ∈ expectedDim, n ∈ actionDims

/-- What `adapt` and `pack` raise, with the values that the texts show. -/
inductive ActionError (K : Type)
  | shape (shape : List Nat)
  | width (width : Nat)
  | notFinite
  | dimension (expected actual : Nat)
  | neck (values : List K) (tolerance : K)
  | notAnIndex
  | negative (index : Int)
  | notMonotonic (index last : Nat)
  | message (text : String)
  | overflow
  deriving DecidableEq, Repr

/-- One model action, split into its protocol fields. -/
structure AdaptedAction (K : Type) where
  token : List K
  leftHand : List K
  rightHand : List K
  neck : Option (List K)
  frameIndex : Nat
  sourceDim : Nat
  discardedNeck : Option (List K)
  deriving DecidableEq, Repr

/-- The fields of a packed `pose` message. -/
structure PoseMessage (K : Type) where
  token : List K
  frameIndex : Nat
  leftHand : List K
  rightHand : List K
  deriving DecidableEq, Repr

/-- A frame index that a caller gives: an integer, or a value of another type. -/
inductive FrameIndex
  | int (index : Int)
  | other
  deriving DecidableEq, Repr

structure AdapterState (K : Type) where
  nextIndex : Nat := 0
  lastSent : Option Nat := none
  neckDiscards : Nat := 0
  lastAdapted : Option (AdaptedAction K) := none
  deriving DecidableEq, Repr

section
variable {K : Type}

def NdArray.flatten (a : NdArray K) : Except (ActionError K) (List (Value K)) :=
  match a.shape with
  | [width] | [1, width] => if width ∈ actionDims then .ok a.values else .error (.width width)
  | shape => .error (.shape shape)

/-- The values of an array that has no NaN and no infinity. -/
def allFinite (values : List (Value K)) : Except (ActionError K) (List K) :=
  values.mapM fun
    | .fin x => .ok x
    | .nonFinite => .error .notFinite

/-- The frame index of a message: the given one, else the next one. -/
def AdapterState.index (s : AdapterState K) (frameIndex : Option FrameIndex) : Except (ActionError K) Nat := do
  let index ← match frameIndex with
    | none => .ok (s.nextIndex : Int)
    | some (.int i) => .ok i
    | some .other => .error .notAnIndex
  if index < 0 then .error (.negative index)
  else match s.lastSent.filter (index.toNat ≤ ·) with
    | some last => .error (.notMonotonic index.toNat last)
    | none => .ok index.toNat

/-- `pack_latent_action_message`, of finite values. -/
def packLatentActionMessage (token : List K) (frameIndex : Nat) (leftHand rightHand : List K) : Except (ActionError K) (PoseMessage K) :=
  if token.length ≠ tokenDim then .error (.message s!"motion_token must be finite [64] or [1,64], got ({token.length},)")
  else if 2 ^ 63 ≤ frameIndex then .error .overflow
  else if leftHand.length ≠ handDim then .error (.message s!"left_hand_joints must be finite [7] or [1,7], got ({leftHand.length},)")
  else if rightHand.length ≠ handDim then
    .error (.message s!"right_hand_joints must be finite [7] or [1,7], got ({rightHand.length},)")
  else .ok ⟨token, frameIndex, leftHand, rightHand⟩

variable [Field K] [LinearOrder K]

/-- `FSQ_MIN`, `FSQ_MAX` and `FSQ_STEP`. -/
def fsqMin : K := -5 / 8

def fsqMax : K := 5 / 8

def fsqStep : K := 1 / 16

/-- `np.clip`. -/
def clip (x lo hi : K) : K := min (max x lo) hi

namespace AdapterConfig

variable (c : AdapterConfig K)

/-- The part of `adapt` that judges a neck block: the block that it keeps and the one that it drops. -/
def neck (values : List K) : EStateM (ActionError K) (AdapterState K) (Option (List K) × Option (List K)) := do
  if values.length = 78 + neckDim then
    let raw := values.drop (tokenDim + hand14Dim)
    if raw.any (c.neckTolerance < |·|) then
      match c.neckPolicy with
      | .error => throw (.neck raw c.neckTolerance)
      | .discard =>
        modify fun s => { s with neckDiscards := s.neckDiscards + 1 }
        return (none, some raw)
    else return (some raw, none)
  else return (none, none)

end AdapterConfig

variable [FloorRing K]

def fsqQuantize (values : List K) : List K :=
  values.map fun x => clip (roundHalfEven (clip x fsqMin fsqMax / fsqStep) * fsqStep) fsqMin fsqMax

namespace AdapterConfig

variable (c : AdapterConfig K)

def adapt (action : NdArray K) (frameIndex : Option FrameIndex) : EStateM (ActionError K) (AdapterState K) (AdaptedAction K) := do
  let array ← lift action.flatten
  let array ← lift (allFinite array)
  match c.expectedDim.filter (· ≠ array.length) with
  | some expected => throw (.dimension expected array.length)
  | none => pure ()
  let hands := (array.drop tokenDim).take hand14Dim
  let (neck, discarded) ← c.neck array
  let index ← lift ((← get).index frameIndex)
  return {
    token := fsqQuantize (array.take tokenDim)
    leftHand := hands.take handDim
    rightHand := hands.drop handDim
    neck
    frameIndex := index
    sourceDim := array.length
    discardedNeck := discarded }

def pack (action : NdArray K) (frameIndex : Option FrameIndex) : EStateM (ActionError K) (AdapterState K) (PoseMessage K) := do
  let adapted ← c.adapt action frameIndex
  let payload ← lift (packLatentActionMessage adapted.token adapted.frameIndex adapted.leftHand adapted.rightHand)
  modify fun s => { s with
    lastSent := some adapted.frameIndex
    nextIndex := adapted.frameIndex + 1
    lastAdapted := some adapted }
  return payload

end AdapterConfig

/-! ### Sequences of calls -/

/-- `reset`. -/
def AdapterState.reset (s : AdapterState K) : AdapterState K := { s with nextIndex := 0, lastSent := none }

inductive AdapterCall (K : Type)
  | adapt (action : NdArray K) (frameIndex : Option FrameIndex)
  | pack (action : NdArray K) (frameIndex : Option FrameIndex)
  | reset

/-- A call on an adapter, with what it returned or raised and the states around it. -/
structure AdapterEvent (K : Type) where
  call : AdapterCall K
  result : Except (ActionError K) (Option (PoseMessage K))
  before : AdapterState K
  after : AdapterState K

/-- An adapter in use: the indices of the messages packed since the last reset and the calls, newest first. -/
structure AdapterUse (K : Type) where
  adapter : AdapterState K := {}
  packed : List Nat := []
  calls : List (AdapterEvent K) := []

namespace AdapterConfig

/-- One call, and the message that it packs. -/
def call (c : AdapterConfig K) : AdapterCall K → EStateM (ActionError K) (AdapterState K) (Option (PoseMessage K))
  | .adapt action frameIndex => do
    let _ ← c.adapt action frameIndex
    return none
  | .pack action frameIndex => do
    let message ← c.pack action frameIndex
    return some message
  | .reset => do
    modify AdapterState.reset
    return none

/-- The indices packed since the last reset, after a call. -/
def packedAfter (packed : List Nat) (message : Option (PoseMessage K)) : AdapterCall K → List Nat
  | .adapt _ _ | .pack _ _ => message.toList.map (·.frameIndex) ++ packed
  | .reset => []

/-- An adapter from its construction on. -/
def machine (c : AdapterConfig K) : Concurrency.Machine (AdapterUse K) (AdapterCall K) where
  init s := s = {}
  step s a :=
    match (c.call a).run s.adapter with
    | .ok message after => some ⟨after, packedAfter s.packed message a, ⟨a, .ok message, s.adapter, after⟩ :: s.calls⟩
    | .error e after => some ⟨after, s.packed, ⟨a, .error e, s.adapter, after⟩ :: s.calls⟩

end AdapterConfig

end
end HumanoidLab
