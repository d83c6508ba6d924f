import HumanoidLab.Bridge.Stream
import Mathlib.Data.Rat.Cast.OfScientific

/-! The clocks that follow the simulator's time, in exact arithmetic: `SimulationClockPacer` (`psi0_bridge/sim_clock.py`),
    which counts the action rows that are due, and `PolicyClock` (`psi0_bridge/policy_clock.py`), which reads the file
    that the simulator replaces. -/

namespace HumanoidLab
open Fallible

variable {K : Type}

/-! ### The pacer -/

/-- What `SimulationClockPacer` is built with. -/
structure SimulationClockPacer (K : Type) [Zero K] [LT K] where
  rateHz : K
  rate_positive : 0 < rateHz

structure PacerState (K : Type) where
  episodeId : Option Int := none
  origin : Option K := none
  emitted : Int := 0
  last : Option K := none
  deriving DecidableEq, Repr

structure ClockUpdate where
  rowsDue : Int
  reset : Bool
  stalled : Bool
  deriving DecidableEq, Repr

section
variable [Field K] [LinearOrder K]

/-- The tolerance of a row boundary. -/
def rowTolerance : K := 1e-9

namespace SimulationClockPacer

/-- The rows of a timeline up to a time, counted from its origin. -/
def target [FloorRing K] (p : SimulationClockPacer K) (origin simS : K) : Int := ⌊max 0 (simS - origin) * p.rateHz + rowTolerance⌋ + 1

/-- A sample starts a timeline. -/
def start (x : K) (episodeId : Int) (reset : Bool) : EStateM String (PacerState K) ClockUpdate := do
  set (⟨some episodeId, some x, 1, some x⟩ : PacerState K)
  return ⟨1, reset, false⟩

/-- `update`; it raises a `SimulationClockError`. -/
def update [FloorRing K] (p : SimulationClockPacer K) (simS : Value K) (episodeId : Int) :
    EStateM String (PacerState K) ClockUpdate := do
  match simS with
  | .nonFinite => throw "simulator timestamp must be finite"
  | .fin x =>
    let s ← get
    match s.origin with
    | none => start x episodeId false
    | some origin =>
      if s.episodeId ≠ some episodeId ∨ s.last.any (x < ·) then start x episodeId true
      else
        let emitted := p.target origin x
        set { s with last := some x, emitted }
        return ⟨max 0 (emitted - s.emitted), false, s.last = some x⟩

variable [FloorRing K] (p : SimulationClockPacer K)

/-- The state after a list of updates, some of which may raise. -/
def afterUpdates (s : PacerState K) : List (Value K × Int) → PacerState K
  | [] => s
  | (x, e) :: samples => afterUpdates (after (p.update x e) s) samples

/-- What a list of updates returns, in order. -/
def updates (s : PacerState K) : List (Value K × Int) → List ClockUpdate
  | [] => []
  | (x, e) :: samples =>
    match (p.update x e).run s with
    | .ok u t => u :: updates t samples
    | .error _ t => updates t samples

/-- The rows that a list of updates makes due. -/
def rows (s : PacerState K) (samples : List (Value K × Int)) : Int := ((p.updates s samples).map (·.rowsDue)).sum

end SimulationClockPacer

/-! ### The policy clock -/

/-- One reading: `PolicyTime`. -/
structure PolicyTime (K : Type) where
  seconds : K
  generation : Nat
  deriving DecidableEq, Repr

/-- The state of a `PolicyClock`; a revision stands for the identity of the file that was read. -/
structure PolicyClockState (K : Type) where
  lastValue : Option K := none
  lastRevision : Option Nat := none
  lastAdvanceWall : K
  generation : Nat := 0
  deriving DecidableEq, Repr

structure PolicyClock (K : Type) where
  mode : ClockMode
  staleTimeoutS : K

/-- How far a reading may go back. -/
def backwardTolerance : K := 1e-9

namespace PolicyClock

/-- `now`, with what `_read_file` finds and the wall time; it raises a `PolicyClockError`. -/
def now (c : PolicyClock K) (file : Except String (K × Nat)) (wall : K) : EStateM String (PolicyClockState K) (PolicyTime K) := do
  match c.mode with
  | .wall => return ⟨wall, 0⟩
  | .simulation =>
    let (value, revision) ← lift file
    if (← get).lastValue.any (value < · - backwardTolerance) then
      modify fun s => { s with generation := s.generation + 1 }
    let s ← get
    if s.lastValue ≠ some value ∨ s.lastRevision ≠ some revision then
      set { s with lastAdvanceWall := wall }
    else if c.staleTimeoutS ≤ wall - s.lastAdvanceWall then
      throw "Isaac simulation clock stopped advancing"
    modify fun s => { s with lastValue := some value, lastRevision := some revision }
    return ⟨value, s.generation⟩

/-- `latency_seconds` between two readings. -/
def latencySeconds (start finish : PolicyTime K) : Except String K :=
  if finish.generation ≠ start.generation ∨ finish.seconds < start.seconds then
    .error "inference crossed an Isaac simulation reset"
  else .ok (finish.seconds - start.seconds)

end PolicyClock

/-! ### The clock file -/

/-- A reading of a runner: the resets of the simulation before it, and whether the simulator has written the file since
    the last one. -/
structure ClockReading (K : Type) where
  time : PolicyTime K
  resets : Nat
  fresh : Bool
  deriving DecidableEq, Repr

/-- The simulator's clock file, and the clock of a runner that reads it; `simS` is the last time written since the last
    reset, and the readings are newest first. -/
structure ClockHistory (K : Type) where
  file : Option (K × Nat) := none
  simS : Option K := none
  writes : Nat := 0
  resets : Nat := 0
  clock : PolicyClockState K
  readings : List (ClockReading K) := []
  deriving DecidableEq, Repr

/-- The simulator writes its time or is reset, and the runner calls `now`, which may fail to read the file. -/
inductive ClockInput (K : Type)
  | write (simS : K)
  | reset
  | now (failure : Option String) (wall : K)
  deriving DecidableEq, Repr

namespace ClockHistory

/-- The simulator replaces the file; its time does not go back but for a reset. -/
def write (x : K) (s : ClockHistory K) : Option (ClockHistory K) :=
  if 0 ≤ x ∧ s.simS.all (· ≤ x) then some { s with file := some (x, s.writes + 1), simS := some x, writes := s.writes + 1 }
  else none

/-- What `_read_file` finds. The text of its error also has the path of the file. -/
def found (failure : Option String) (s : ClockHistory K) : Except String (K × Nat) :=
  match failure, s.file with
  | some text, _ => .error text
  | none, some file => .ok file
  | none, none => .error "Isaac simulation clock unavailable"

def now (staleTimeoutS : K) (failure : Option String) (wall : K) (s : ClockHistory K) : ClockHistory K :=
  match ((⟨.simulation, staleTimeoutS⟩ : PolicyClock K).now (s.found failure) wall).run s.clock with
  | .ok time clock => { s with clock, readings := ⟨time, s.resets, s.simS.isSome⟩ :: s.readings }
  | .error _ clock => { s with clock }

end ClockHistory

/-- The histories of a clock file and of a runner's clock, from the file's absence on. -/
def clockMachine (staleTimeoutS : K) : Concurrency.Machine (ClockHistory K) (ClockInput K) where
  init s := ∃ wall, s = { clock := { lastAdvanceWall := wall } }
  step s
    | .write x => s.write x
    | .reset => some { s with simS := none, resets := s.resets + 1 }
    | .now failure wall => some (s.now staleTimeoutS failure wall)

end
end HumanoidLab
