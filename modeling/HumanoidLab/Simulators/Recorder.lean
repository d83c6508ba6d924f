import HumanoidLab.Simulators.Control

/-! The tracking rows of the simulator (`_append_tracking_row` in `simulators/isaac/service.py`), as far as they are scored, and the
    replay of a token stream that is paced by the simulator's clock file (`scripts/replay-sonic-latent.py`). -/

namespace HumanoidLab
open Concurrency

/-- What a tick sent to the joints and what they did; a hand without a command has no target. -/
structure TrackingRow (K : Type) where
  tick : Nat
  simS : K
  wallTimeNs : Int
  supportActive : Bool
  bodyTarget : List K
  bodyMeasured : List K
  handTarget : Side → Option (List K)
  handMeasured : Side → List K
  rootPosition : List K
  rootQuaternionWxyz : List K

/-- A row that was recorded without the support. -/
def TrackingRow.isFree {K : Type} (row : TrackingRow K) : Bool := !row.supportActive

/-- What the recorder reads besides the joints: the root and the wall clock. -/
structure RootSample (K : Type) where
  position : List K
  quaternionWxyz : List K
  wallTimeNs : Int

section
variable {K : Type} [Field K] [LinearOrder K]

/-- `_hand_positions`. -/
def Control.handPositions (C : Control K) (plant : Plant K) (side : Side) : List K :=
  ((C.hands side).elim C.asset.handIds JointLayout.indices).map plant.jointPos

/-- `_append_tracking_row`, of a command that is applied before the support is updated. -/
def Control.trackingRow (C : Control K) (plant : Plant K) (root : RootSample K) (s : ControlState K)
    (c : CompleteRobotCommand K) : TrackingRow K where
  tick := s.tick
  simS := s.tick * C.physicsDt
  wallTimeNs := root.wallTimeNs
  supportActive := s.support.active && s.support.releaseTick.isNone
  bodyTarget := c.body.q
  bodyMeasured := C.body.indices.map plant.jointPos
  handTarget := fun | .left => c.leftHand.map (·.q) | .right => c.rightHand.map (·.q)
  handMeasured := C.handPositions plant
  rootPosition := root.position
  rootQuaternionWxyz := root.quaternionWxyz

end

/-! ### A replay -/

/-- The clock file: the time that its text is read back as, and the episode and the number of its ticks when it was written, which the
    file does not name. -/
structure ReplayReading (K : Type) where
  episodeId : Nat
  tick : Nat
  simS : K
  deriving DecidableEq, Repr

def ReplayReading.moment {K : Type} (reading : ReplayReading K) : Nat × Nat := (reading.episodeId, reading.tick)

/-- A token that was sent, with what the publisher had read in the clock file. The timeline does not say how many ticks the simulator had
    made in all its episodes. -/
structure SentToken (K : Type) where
  reading : Option (ReplayReading K)
  wallTimeNs : Int
  elapsed : Nat
  deriving DecidableEq, Repr

/-- A row when it was recorded. The trace does not say in which episode that was, how many tokens had been sent, and how many ticks the
    simulator had made in all its episodes. -/
structure RecordedRow (K : Type) where
  episodeId : Nat
  sent : Nat
  elapsed : Nat
  row : TrackingRow K

def RecordedRow.moment {K : Type} (recorded : RecordedRow K) : Nat × Nat := (recorded.episodeId, recorded.row.tick)

/-- The simulator and the publisher. -/
structure TokenReplay (K : Type) where
  state : ControlState K
  elapsed : Nat := 0
  rows : List (RecordedRow K) := []
  clock : Option (ReplayReading K) := none
  start : Option K := none
  tokens : List (SentToken K) := []

/-- What happens: a tick, a reset, or the publisher begins or sends its next token. -/
inductive TokenReplayInput (K : Type)
  | tick (plant : Plant K) (polled : Except Raised (Option (CompleteRobotCommand K))) (root : RootSample K)
  | reset
  | start
  | send (wallTimeNs : Int)

section
variable {K : Type} [Field K] [LinearOrder K]

/-- `simulation_frame_due`. -/
def simulationFrameDue (currentSimS startSimS : K) (frameIndex : Nat) : Bool :=
  startSimS + frameIndex / (50 : ℕ) ≤ currentSimS + 1e-6

/-- The rows after a tick: every fourth one is recorded, when it applies a command. -/
def TokenReplay.record (C : Control K) (plant : Plant K) (root : RootSample K) (s : TokenReplay K) :
    Option (CompleteRobotCommand K) → List (RecordedRow K)
  | some c =>
    if s.state.tick % 4 = 0 then
      s.rows ++ [⟨s.state.episodeId, s.tokens.length, s.elapsed, C.trackingRow plant root s.state c⟩]
    else s.rows
  | none => s.rows

/-- A run of a replay, which is paced where a clock file is given; `shown` is how its text is read back. A reset keeps the rows, and the
    text of the clock until a fourth tick. The publisher sends a token as soon as it has read the clock. -/
def tokenReplayMachine (C : Control K) (shown : K → K) (paced : Bool) : Machine (TokenReplay K) (TokenReplayInput K) where
  init s := s = { state := C.started }
  step s
    | .tick plant polled root =>
      match (C.applyControl plant polled).run s.state with
      | .ok command t =>
        let tick := t.tick + 1
        some { s with
          state := { t with tick }
          elapsed := s.elapsed + 1
          rows := s.record C plant root command
          clock := if tick % 4 = 0 then some ⟨t.episodeId, tick, shown (tick * C.physicsDt)⟩ else s.clock }
      | .error _ _ => none
    | .reset => some { s with state := C.resetEpisode s.state }
    | .start => if paced && s.start.isNone then s.clock.map fun reading => { s with start := some reading.simS } else none
    | .send wallTimeNs =>
      if paced then
        match s.start, s.clock with
        | some start, some reading =>
          if simulationFrameDue reading.simS start s.tokens.length then
            some { s with tokens := s.tokens ++ [⟨some reading, wallTimeNs, s.elapsed⟩] }
          else none
        | _, _ => none
      else some { s with tokens := s.tokens ++ [⟨none, wallTimeNs, s.elapsed⟩] }

end
end HumanoidLab
