import HumanoidLab.Bridge.Actions

/-! The open-loop chunk controller (`psi0_bridge/open_loop.py`): it emits a horizon of rows of a chunk, asks for the next
    prediction and holds the last row meanwhile. A step is atomic, under the lock; the inference thread moves between
    its waits and its locks. -/

namespace HumanoidLab

variable {K Obs : Type} {h : Nat}

/-- A chunk that is long enough for the horizon. -/
structure Chunk (K : Type) (h : Nat) where
  rows : List (List K)
  positive : 0 < h
  enough : h ≤ rows.length
  deriving DecidableEq, Repr

namespace Chunk

def row (c : Chunk K h) (i : Nat) (hi : i < h) : List K := c.rows.get ⟨i, hi.trans_le c.enough⟩

/-- The row that is held. -/
def last (c : Chunk K h) : List K := c.row (h - 1) (Nat.sub_lt c.positive Nat.one_pos)

end Chunk

/-- What `predict` does. -/
inductive Prediction (K : Type)
  | raised (error : String)
  | returned (chunk : NdArray K)

def shapeText : List Nat → String
  | [n] => s!"({n},)"
  | ns => "(" ++ ", ".intercalate (ns.map toString) ++ ")"

/-- The rows of a matrix of `n` columns. -/
def rowsOf (n : Nat) (values : List K) : Nat → List (List K)
  | 0 => []
  | k + 1 => values.take n :: rowsOf n (values.drop n) k

/-- `_validate_chunk`. -/
def validateChunk (chunk : NdArray K) : Except String (List (List K)) :=
  match chunk.shape with
  | [k + 1, n] =>
    match allFinite chunk.values with
    | .ok values => .ok (rowsOf n values (k + 1))
    | .error _ => .error "predicted action chunk contains NaN or Inf"
  | shape => .error s!"predicted action chunk must be [H, D], got {shapeText shape}"

/-- What the two threads share, with the event and the flag to stop. -/
structure OpenLoop (Obs K : Type) (h : Nat) where
  latestObs : Obs
  chunk : Chunk K h
  index : Nat := 0
  pending : Option (Chunk K h) := none
  inferenceError : Option String := none
  inflight : Bool := false
  wake : Bool := false
  stop : Bool := false
  deriving DecidableEq, Repr

namespace OpenLoop

/-- `__init__`, with what the first prediction returns. -/
def start (initialObs : Obs) (predicted : NdArray K) (executionHorizon : Int) : Except String (Σ h, OpenLoop Obs K h) := do
  let rows ← validateChunk predicted
  if fits : 0 < executionHorizon ∧ executionHorizon ≤ rows.length then
    return ⟨executionHorizon.toNat, {
      latestObs := initialObs
      chunk := ⟨rows, by omega, by omega⟩ }⟩
  else throw s!"execution_horizon {executionHorizon} is not in (0, {rows.length}]"

/-- A pending chunk is installed at row zero. -/
def install (s : OpenLoop Obs K h) : OpenLoop Obs K h :=
  match s.pending with
  | some c => { s with chunk := c, pending := none, index := 0, inflight := false }
  | none => s

/-- The row that is emitted; the last one of the horizon asks for a prediction. -/
def advance (s : OpenLoop Obs K h) : List K × OpenLoop Obs K h :=
  if hi : s.index < h then
    let row := s.chunk.row s.index hi
    let s := { s with index := s.index + 1 }
    if s.index = h ∧ s.inflight = false then (row, { s with inflight := true, wake := true }) else (row, s)
  else (s.chunk.last, s)

/-- `step`; the error is the cause of its `RuntimeError`. -/
def step (obs : Obs) (s : OpenLoop Obs K h) : Except String (List K) × OpenLoop Obs K h :=
  let s := { s with latestObs := obs }
  match s.inferenceError with
  | some error => (.error error, { s with inferenceError := none })
  | none =>
    let (row, s) := s.install.advance
    (.ok row, s)

/-- What the inference thread makes of a prediction. -/
def accept (s : OpenLoop Obs K h) : Prediction K → Except String (Chunk K h)
  | .raised error => .error error
  | .returned chunk => do
    let rows ← validateChunk chunk
    if long : h ≤ rows.length then return ⟨rows, s.chunk.positive, long⟩
    else throw s!"execution_horizon {h} exceeds new chunk {rows.length}"

end OpenLoop

/-! ### The two threads -/

/-- Where the inference thread is: before the test of its loop, at the wait, before it clears the event, before the test
    of the flag, before it reads the observation, in `predict`, before it hands over what it has, and out of its loop. -/
inductive InferencePoint (Obs K : Type) (h : Nat)
  | top
  | waiting
  | woken
  | cleared
  | reading
  | predicting (obs : Obs)
  | succeeded (chunk : Chunk K h)
  | failed (error : String)
  | finished
  deriving DecidableEq, Repr

/-- Who moves: a call of `step`, the inference thread, `predict`, and the two actions of `stop`. -/
inductive OpenLoopAct (Obs K : Type)
  | step (obs : Obs)
  | infer
  | predict (outcome : Prediction K)
  | stop
  | stopWake

/-- The controller with its thread, and what has happened, oldest first: the observations, the rows emitted and the errors
    reported, the chunks installed and predicted and the ones that a stop discards, the failures, the observations whose
    steps ask for a prediction, and the ones that predictions read, each with its number. -/
structure OpenLoopRun (Obs K : Type) (h : Nat) where
  controller : OpenLoop Obs K h
  point : InferencePoint Obs K h := .top
  observations : List Obs
  emitted : List (List K) := []
  reported : List String := []
  installed : List (Chunk K h)
  predicted : List (Chunk K h)
  discarded : List (Chunk K h) := []
  failures : List String := []
  requests : List Nat := []
  reads : List (Nat × Obs) := []
  deriving DecidableEq, Repr

namespace OpenLoopRun

/-- The run at the end of `__init__`. -/
def begun (c : OpenLoop Obs K h) : OpenLoopRun Obs K h where
  controller := c
  observations := [c.latestObs]
  installed := [c.chunk]
  predicted := [c.chunk]

/-- Whether a step asks for a prediction. -/
def asks (c : OpenLoop Obs K h) : Bool := c.inferenceError.isNone && c.install.index + 1 = h && !c.install.inflight

def step (obs : Obs) (s : OpenLoopRun Obs K h) : OpenLoopRun Obs K h :=
  let (result, c) := s.controller.step obs
  { s with
    controller := c
    observations := s.observations ++ [obs]
    emitted := s.emitted ++ result.toOption.toList
    reported := s.reported ++ s.controller.inferenceError.toList
    installed := if s.controller.inferenceError.isNone then s.installed ++ s.controller.pending.toList else s.installed
    requests := if asks s.controller then s.requests ++ [s.observations.length] else s.requests }

/-- The next action of the inference thread, `predict` apart. -/
def infer (s : OpenLoopRun Obs K h) : Option (OpenLoopRun Obs K h) :=
  match s.point with
  | .top => some { s with point := if s.controller.stop then .finished else .waiting }
  | .waiting => if s.controller.wake then some { s with point := .woken } else none
  | .woken => some { s with controller := { s.controller with wake := false }, point := .cleared }
  | .cleared => some { s with point := if s.controller.stop then .finished else .reading }
  | .reading => some { s with
      point := .predicting s.controller.latestObs
      reads := s.reads ++ [(s.observations.length - 1, s.controller.latestObs)] }
  | .predicting _ => none
  | .succeeded c =>
    if s.controller.stop then some { s with point := .top, discarded := s.discarded ++ [c] }
    else some { s with point := .top, controller := { s.controller with pending := some c } }
  | .failed error => some { s with
      controller := { s.controller with inflight := false, inferenceError := some error }
      point := .top
      failures := s.failures ++ [error] }
  | .finished => none

def predict (outcome : Prediction K) (s : OpenLoopRun Obs K h) : Option (OpenLoopRun Obs K h) :=
  match s.point with
  | .predicting _ =>
    match s.controller.accept outcome with
    | .ok c => some { s with point := .succeeded c, predicted := s.predicted ++ [c] }
    | .error error => some { s with point := .failed error }
  | _ => none

end OpenLoopRun

open OpenLoopRun in
/-- A controller from its construction on. -/
def openLoop (Obs K : Type) (h : Nat) : Concurrency.Machine (OpenLoopRun Obs K h) (OpenLoopAct Obs K) where
  init s := ∃ obs predicted executionHorizon c, OpenLoop.start obs predicted executionHorizon = .ok ⟨h, c⟩ ∧ s = begun c
  step s
    | .step obs => some (s.step obs)
    | .infer => s.infer
    | .predict outcome => s.predict outcome
    | .stop => some { s with controller := { s.controller with stop := true } }
    | .stopWake => if s.controller.stop then some { s with controller := { s.controller with wake := true } } else none

end HumanoidLab
