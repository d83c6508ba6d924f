import HumanoidLab.Bridge.OpenLoop
import HumanoidLab.Datasets.Convert

/-! The chunk scheduler of the Dex3 node (`flux_dex3/executor.py`) and the motor slots of a row of a chunk (`flux_dex3/mapping.py`).
    Numbers are float64s and float32s: every operation rounds. -/

namespace HumanoidLab.FluxDex3
open Psi0Dex3 (float32 float64)

/-! ### The mapping -/

/-- `ARM_MOTORS`. -/
def armMotors : List Nat := List.range' 15 14

/-- `HAND_MOTORS`. -/
def handMotors : List Nat := List.range 7

/-- The values of an array, when all are finite. -/
def finiteOr (text : String) (values : List (Value ℚ)) : Except String (List ℚ) :=
  values.mapM fun
    | .fin x => .ok x
    | .nonFinite => .error text

/-- `measured_state`, of the positions in the motor slots of the three messages. -/
def measuredState (low left right : List (Value ℚ)) : Except String (List ℚ) :=
  if low.length < 29 ∨ left.length ≠ 7 ∨ right.length ≠ 7 then .error "expected 29 body and seven motors per hand"
  else finiteOr "invalid measured joint position" ((low.drop 15).take 14 ++ left ++ right)

/-- `split_action`: the targets of the arm motors and of the motors of the two hands. -/
def splitAction (action : List ℚ) : Except String (List (Nat × ℚ) × List (Nat × ℚ) × List (Nat × ℚ)) :=
  if action.length ≠ 28 then .error "expected 28 finite joint targets"
  else .ok (armMotors.zip (action.take 14), handMotors.zip ((action.drop 14).take 7), handMotors.zip (action.drop 21))

/-! ### The scheduler -/

/-- A session: the hexadecimal digits of a UUID. -/
abbrev Session := String

/-- The rows of an accepted chunk: 32 rows of 28 targets. -/
structure Chunk where
  rows : List (List ℚ)
  length : rows.length = 32
  widths : ∀ row ∈ rows, row.length = 28
  deriving DecidableEq, Repr

namespace Chunk

def row (c : Chunk) (i : Nat) (hi : i < 32) : List ℚ := c.rows.get ⟨i, c.length ▸ hi⟩

theorem row_length (c : Chunk) (i : Nat) (hi : i < 32) : (c.row i hi).length = 28 := c.widths _ (List.get_mem _ _)

end Chunk

/-- What the scheduler is built with. -/
structure ExecutorConfig where
  rateHz : ℚ := 30
  maxChunkAge : ℚ
  limits : Option (List (ℚ × ℚ)) := none
  deriving DecidableEq, Repr

def ExecutorConfig.period (config : ExecutorConfig) : ℚ := float64 (1 / config.rateHz)

/-- A chunk that is played: since when, the row that was due last, and since when its last row is held. -/
structure Executor where
  session : Option Session := none
  current : Option Chunk := none
  nextChunk : Option Chunk := none
  lastSeq : Int := -1
  started : ℚ := 0
  index : Nat := 0
  heldSince : Option ℚ := none
  reason : String := "stopped"
  deriving DecidableEq, Repr

/-- A number as a float32, by way of a float64. -/
def single (x : ℚ) : ℚ := float32 (float64 x)

/-- A row within the limits of the hardware. -/
def clipRow (limits : List (ℚ × ℚ)) (row : List ℚ) : List ℚ :=
  List.zipWith (fun x l => min (max x (single l.1)) (single l.2)) row limits

theorem clipRow_length {limits : List (ℚ × ℚ)} {row : List ℚ} (h : limits.length = 28) (hrow : row.length = 28) :
    (clipRow limits row).length = 28 := by
  rw [clipRow, List.length_zipWith, h, hrow]
  rfl

theorem rowsOf_length (n : Nat) (values : List ℚ) (k : Nat) : (rowsOf n values k).length = k := by
  induction k generalizing values with
  | zero => rfl
  | succ k ih => simp [rowsOf, ih]

theorem rowsOf_widths {n : Nat} {values : List ℚ} {k : Nat} (h : values.length = k * n) : ∀ row ∈ rowsOf n values k, row.length = n := by
  induction k generalizing values with
  | zero =>
    intro row hrow
    cases hrow
  | succ k ih =>
    intro row hrow
    rw [rowsOf, List.mem_cons] at hrow
    rcases hrow with rfl | hrow
    · rw [List.length_take, h]
      exact Nat.min_eq_left (Nat.le_mul_of_pos_left n (Nat.succ_pos k))
    · refine ih ?_ row hrow
      rw [List.length_drop, h, Nat.succ_mul, Nat.add_sub_cancel]

/-- The chunk of an array that is finite and of the right shape. -/
def readChunk (actions : NdArray ℚ) : Except String Chunk :=
  if shaped : actions.shape = [32, 28] then
    match hfinite : finiteOr "invalid action chunk" actions.values with
    | .error e => .error e
    | .ok values => .ok {
        rows := rowsOf 28 values 32
        length := rowsOf_length 28 values 32
        widths := rowsOf_widths (by
          have hlength := actions.size
          rw [shaped] at hlength
          rw [← (Fallible.mapM_ok hfinite).length_eq, hlength]
          rfl) }
  else .error "invalid action chunk"

/-- A chunk within the limits; without limits a coarse bound is checked. -/
def limitChunk (limits : Option (List (ℚ × ℚ))) (c : Chunk) : Except String Chunk :=
  match limits with
  | some limits =>
    if sized : limits.length = 28 then
      .ok {
        rows := c.rows.map (clipRow limits)
        length := by rw [List.length_map, c.length]
        widths := by
          intro row hrow
          obtain ⟨r, hr, rfl⟩ := List.mem_map.mp hrow
          exact clipRow_length sized (c.widths r hr) }
    else .error "invalid hardware limit configuration"
  | none =>
    if c.rows.any fun row => row.any fun x => float32 (32 / 10) < |x| then .error "action exceeds coarse dry-run bound"
    else .ok c

namespace Executor

def start (session : Session) : Executor := { session := some session, reason := "waiting for first chunk" }

/-- A chunk is installed: it is the first one, or the one before has run out; else it waits. -/
def install (c : Chunk) (seq : Nat) (now : ℚ) (e : Executor) : Executor :=
  let e := if e.current.isNone ∨ e.heldSince.isSome then
      { e with current := some c, nextChunk := none, started := now, index := 0, heldSince := none }
    else { e with nextChunk := some c }
  { e with lastSeq := seq, reason := "running" }

/-- `accept`. -/
def accept (config : ExecutorConfig) (session : Session) (seq : Nat) (observationAge : ℚ) (actions : NdArray ℚ) (now : ℚ)
    (e : Executor) : Except String Executor :=
  if e.session ≠ some session ∨ seq ≤ e.lastSeq then .error "stale session or sequence"
  else if observationAge < 0 ∨ config.maxChunkAge < observationAge then .error "stale observation"
  else do
    let read ← readChunk actions
    let chunk ← limitChunk config.limits read
    if e.current.isSome ∧ e.nextChunk.isSome then .error "next chunk is already queued"
    else .ok (e.install chunk seq now)

/-- The row that is due. -/
def due (config : ExecutorConfig) (now : ℚ) (e : Executor) : Nat :=
  ⌊max 0 (float64 (float64 (float64 (now - e.started) + float64 (1 / 10 ^ 9)) / config.period))⌋₊

/-- `tick`: the row to publish. -/
def tick (config : ExecutorConfig) (now : ℚ) (e : Executor) : Option (List ℚ) × Executor :=
  match e.session, e.current with
  | some _, some current =>
    if hdue : e.due config now < 32 then (some (current.row (e.due config now) hdue), { e with index := e.due config now })
    else
      match e.nextChunk with
      | none =>
        (some (current.row 31 (by omega)),
          { e with heldSince := some (e.heldSince.getD now), index := 31, reason := "holding last target" })
      | some next =>
        (some (next.row 0 (by omega)),
          { e with current := some next, nextChunk := none, started := now, heldSince := none, index := 0 })
  | _, _ => (none, e)

end Executor
end HumanoidLab.FluxDex3
