import HumanoidLab.Lib.Machine
import Mathlib.Algebra.Order.Floor.Defs
import Mathlib.Data.Rat.Cast.OfScientific

/-! The warm-start stream on the simulation clock (`psi0_bridge/warmstart.py`), in exact arithmetic: it waits for a
    first sample of the clock after a reset, and publishes the rows of a prepared stream as the clock advances. -/

namespace HumanoidLab

variable {K : Type}

/-- One stable observation of the clock file: `SimulationClockSample`. -/
structure ClockSample (K : Type) where
  simS : K
  revision : Nat
  deriving DecidableEq, Repr

/-- One row of a prepared stream. -/
structure StreamRow (K : Type) where
  token : List K
  leftHandJoints : List K
  rightHandJoints : List K
  deriving DecidableEq, Repr

/-- What the stream is built and armed with. -/
structure WarmStart (K : Type) [Zero K] [LT K] [LE K] where
  rows : List (StreamRow K)
  controlHz : K
  delayS : K
  clockTimeoutS : K
  rows_nonempty : rows ≠ []
  rate_positive : 0 < controlHz
  delay_nonneg : 0 ≤ delayS

/-- Where `_serve_simulation_clock` stands: at its wait for the origin, at the head of the second loop, in the inner
    loop with the rows that are due, or at its end. -/
inductive WarmStartPc
  | waiting
  | polling
  | publishing (due : Int)
  | ended
  deriving DecidableEq, Repr

/-- The locals of `_serve_simulation_clock`, and what it published, newest first. The baseline is the one it is armed
    with, else its first read; `sample` is the last one of the second loop, and `stop` is set by `halt`. -/
structure WarmStartState (K : Type) where
  pc : WarmStartPc := .waiting
  baseline : Option (ClockSample K)
  freshDeadline : K
  originSimS : K
  last : K
  sample : Option K := none
  lastAdvanceWall : K
  index : Nat := 0
  published : List (Nat × StreamRow K) := []
  sent : Nat := 0
  error : Option String := none
  stop : Bool := false
  deriving DecidableEq, Repr

/-- A read of the clock at a wall time, the publishing of one row with the router's answer (none when it raises), and
    `halt`. -/
inductive WarmStartInput (K : Type)
  | poll (read : Option (ClockSample K)) (wall : K)
  | publish (answer : Option Bool)
  | halt
  deriving DecidableEq, Repr

section
variable [Field K] [LinearOrder K]

/-- The tolerance of the clock comparisons. -/
def clockTolerance : K := 1e-9

/-- A baseline up to here is taken as one of a clock that has just started. -/
def smallBaseline : K := 0.1

/-- The origin wait takes a sample: it is new, and of the time after a reset as far as the baseline tells. -/
def ClockSample.accepts (baseline : Option (ClockSample K)) (sample : ClockSample K) : Bool :=
  decide (some sample.revision ≠ baseline.map (·.revision)) &&
    baseline.all fun b => decide (b.simS ≤ smallBaseline) || decide (sample.simS < b.simS - clockTolerance)

/-- The origin wait on what it reads until the deadline. -/
def awaitOrigin (baseline : Option (ClockSample K)) : List (Option (ClockSample K)) → Option (ClockSample K)
  | [] => none
  | read :: reads =>
    match read.filter (·.accepts baseline) with
    | some start => some start
    | none => awaitOrigin baseline reads

namespace WarmStart

/-- The row of an index: the last one is held. -/
def row (w : WarmStart K) (index : Nat) : StreamRow K :=
  w.rows.get ⟨min index (w.rows.length - 1), by
    have := List.length_pos_iff.mpr w.rows_nonempty
    omega⟩

variable [FloorRing K] (w : WarmStart K)

/-- The last index that is due at an elapsed time. -/
def due (elapsed : K) : Int := ⌊max 0 (elapsed - w.delayS) * w.controlHz + clockTolerance⌋

/-- `_clock_error`. -/
def clockError (message : String) (s : WarmStartState K) : WarmStartState K := { s with pc := .ended, error := some message }

/-- A pass of the origin wait. -/
def await (read : Option (ClockSample K)) (wall : K) (s : WarmStartState K) : WarmStartState K :=
  if s.stop then { s with pc := .ended }
  else if s.freshDeadline ≤ wall then clockError "no fresh post-reset Isaac simulation clock sample" s
  else match read.filter (·.accepts s.baseline) with
    | some start =>
      { s with pc := .polling, originSimS := start.simS, last := start.simS, lastAdvanceWall := wall }
    | none => s

/-- A pass of the second loop, up to the inner loop. -/
def follow (read : Option (ClockSample K)) (now : K) (s : WarmStartState K) : WarmStartState K :=
  if s.stop then { s with pc := .ended }
  else match read with
    | none =>
      if w.clockTimeoutS ≤ now - s.lastAdvanceWall then clockError "Isaac simulation clock became unavailable or stale" s
      else s
    | some sample =>
      if sample.simS < s.last - clockTolerance then clockError "Isaac simulation clock moved backwards" s
      else if ¬s.last + clockTolerance < sample.simS ∧ w.clockTimeoutS ≤ now - s.lastAdvanceWall then
        clockError "Isaac simulation clock stopped advancing" s
      else
        let s := if s.last + clockTolerance < sample.simS then { s with lastAdvanceWall := now, last := sample.simS } else s
        let elapsed := sample.simS - s.originSimS
        { s with
          sample := some sample.simS
          pc := if w.delayS ≤ elapsed + clockTolerance then .publishing (w.due elapsed) else .polling }

/-- `_publish_index`, and the end of the thread when the router raises. -/
def publishIndex (answer : Option Bool) (s : WarmStartState K) : WarmStartState K :=
  match answer with
  | none => { s with pc := .ended }
  | some accepted =>
    { s with
      published := (s.index, w.row s.index) :: s.published
      sent := if accepted then s.sent + 1 else s.sent
      index := s.index + 1 }

/-- A pass of the inner loop. -/
def publish (due : Int) (answer : Option Bool) (s : WarmStartState K) : WarmStartState K :=
  if s.index ≤ due ∧ s.stop = false then w.publishIndex answer s else { s with pc := .polling }

/-- An armed stream, from its origin wait on. -/
def machine : Concurrency.Machine (WarmStartState K) (WarmStartInput K) where
  init s := s.pc = .waiting ∧ s.sample = none ∧ s.index = 0 ∧ s.published = [] ∧ s.sent = 0 ∧ s.error = none ∧ s.stop = false
  step s
    | .poll read wall =>
      match s.pc with
      | .waiting => some (await read wall s)
      | .polling => some (w.follow read wall s)
      | _ => none
    | .publish answer =>
      match s.pc with
      | .publishing due => some (w.publish due answer s)
      | _ => none
    | .halt => some { s with stop := true }

end WarmStart
end
end HumanoidLab
