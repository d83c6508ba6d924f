import HumanoidLab.Lib.Rounding
import HumanoidLab.Simulators.Control
import Mathlib.Algebra.Order.Group.Unbundled.Abs

/-! The reset-pose hold of the Isaac service (`simulators/isaac/service.py`, `_rearm_reset_pose_hold` and
    `_update_reset_pose_hold`): the arms are kept at their reset pose until the controller takes them over. -/

namespace HumanoidLab
open Rounding

variable {K : Type}

/-- What a run fixes of the hold: the physics step, whether the run has a reset pose and holds it, the joints of
    the pose in the articulation, and their places in the body layout. -/
structure HoldSpec (K : Type) [Zero K] [LT K] where
  physicsDt : K
  dt_positive : 0 < physicsDt
  resetPoseFile : Bool
  resetPoseHold : Bool
  resetPoseIndices : List Nat
  armTargetIndices : List Nat

namespace HoldSpec

variable [Zero K] [LT K]

/-- `hold_requested`. -/
def requested (spec : HoldSpec K) : Bool :=
  spec.resetPoseFile && spec.resetPoseHold && !spec.resetPoseIndices.isEmpty && !spec.armTargetIndices.isEmpty

/-- The arm setpoint of a body command, which has a value for each joint of the layout. -/
def target (spec : HoldSpec K) (q : List K) : List K := spec.armTargetIndices.map (q.getD · 0)

end HoldSpec

/-- The state of the hold; `history` is oldest first, and `releaseDeviation` the number in the release reason. -/
structure PoseHold (K : Type) where
  active : Bool := false
  reference : Option (List K) := none
  releaseCandidate : Option Nat := none
  releasedTick : Option Nat := none
  releaseDeviation : Option K := none
  history : List (List K) := []
  deriving DecidableEq, Repr

section
variable [Field K] [LinearOrder K]

/-! ### The constants -/

def armHoldMinSeconds : K := 24

def armHoldStableWindowS : K := 2.0

def armHoldStableRad : K := 0.02

def armHoldReleaseRad : K := 0.10

def armHoldReleaseSustainS : K := 0.20

variable [FloorRing K]

namespace HoldSpec

/-- `_arm_hold_history_ticks`. -/
def historyTicks (spec : HoldSpec K) : Nat := max 2 (roundHalfEven (armHoldStableWindowS / max spec.physicsDt 1e-6)).toNat

/-- `_arm_hold_release_ticks`. -/
def releaseTicks (spec : HoldSpec K) : Nat := max 1 (roundHalfEven (armHoldReleaseSustainS / max spec.physicsDt 1e-6)).toNat

end HoldSpec

namespace PoseHold

/-- `_rearm_reset_pose_hold`. -/
def rearm (spec : HoldSpec K) : PoseHold K := { active := spec.requested }

/-- `append` of a deque that keeps the newest `limit` elements. -/
def push (limit : Nat) (target : List K) (history : List (List K)) : List (List K) :=
  if history.length < limit then history ++ [target] else history.tail ++ [target]

/-- The setpoints of the history stand still: none is further than the bound from the oldest. -/
def still (history : List (List K)) : Bool :=
  match history with
  | [] => true
  | oldest :: _ => history.all fun q => setpointDelta q oldest ≤ armHoldStableRad

/-- `_update_reset_pose_hold`. -/
def update (spec : HoldSpec K) (tick : Nat) (q : List K) (s : PoseHold K) : PoseHold K :=
  if !s.active || spec.armTargetIndices.isEmpty then s
  else
    let target := spec.target q
    if tick * spec.physicsDt < armHoldMinSeconds then { s with history := [target] }
    else match s.reference with
      | none =>
        let settled := spec.historyTicks ≤ s.history.length && still s.history
        let s := if settled then { s with reference := some target, releaseCandidate := none } else s
        { s with history := push (spec.historyTicks) target s.history }
      | some reference =>
        let deviation := setpointDelta target reference
        if deviation ≤ armHoldReleaseRad then { s with releaseCandidate := none }
        else match s.releaseCandidate with
          | none => { s with releaseCandidate := some tick }
          | some candidate =>
            if spec.releaseTicks ≤ tick - candidate then
              { s with active := false, releasedTick := some tick, releaseDeviation := some deviation }
            else s

end PoseHold

/-! ### Runs -/

/-- What is recorded of a tick: the body setpoint that came, and the hold before and after it. -/
structure HoldTick (K : Type) where
  tick : Nat
  setpoint : Option (List K)
  before : PoseHold K
  after : PoseHold K
  deriving DecidableEq, Repr

/-- The hold between two ticks, with the record of the present episode, newest first. -/
structure HoldRun (K : Type) where
  tick : Nat := 0
  hold : PoseHold K
  episode : List (HoldTick K) := []
  deriving DecidableEq, Repr

/-- A tick with the body setpoint of its valid command, if there is one, or a reset. -/
inductive HoldInput (K : Type)
  | tick (setpoint : Option (List K))
  | reset

/-- The hold over the ticks and the resets of a run. -/
def poseHoldMachine (spec : HoldSpec K) : Concurrency.Machine (HoldRun K) (HoldInput K) where
  init s := s = { hold := PoseHold.rearm spec }
  step s
    | .tick setpoint =>
      let after := setpoint.elim s.hold fun q => s.hold.update spec s.tick q
      some ⟨s.tick + 1, after, ⟨s.tick, setpoint, s.hold, after⟩ :: s.episode⟩
    | .reset => some { hold := PoseHold.rearm spec }

end
end HumanoidLab
