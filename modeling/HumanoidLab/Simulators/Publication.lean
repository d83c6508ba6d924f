import HumanoidLab.Simulators.Control

/-! What the Isaac service publishes of the joints (`simulators/isaac/service.py`, `_publish_robot_state`), and the joint
    layouts by which it is gathered (`contracts/commands.py`, `resolve_layouts`). -/

namespace HumanoidLab
open Fallible

/-- The layouts of a robot: the one of the body, and those of the hands that are declared. -/
structure Layouts where
  body : JointLayout
  hand : Side → Option JointLayout

def resolveLayouts (available bodyNames : List String) (handNames : Side → List String) : Except Raised Layouts := do
  let body ← JointLayout.resolve bodyNames available "body"
  let left ← resolveHand (handNames .left) available .left
  let right ← resolveHand (handNames .right) available .right
  return ⟨body, fun | .left => left | .right => right⟩

variable {K : Type}

/-- The values of the joints at indices, in order. -/
def gather (indices : List Nat) (values : Nat → K) : List K := indices.map values

/-- The joints of a `RobotStateSample`, in the controller's declared order. -/
structure Published (K : Type) where
  bodyQ : List K
  bodyDq : List K
  bodyTau : List K
  handQ : Side → List K
  handDq : Side → List K

/-- The joints of `_publish_robot_state`, with the efforts that are staged. -/
def Binding.publish (b : Binding K) (plant : Plant K) (effort : Nat → K) : Published K where
  bodyQ := gather b.body.indices plant.jointPos
  bodyDq := gather b.body.indices plant.jointVel
  bodyTau := gather b.body.indices effort
  handQ side := gather (b.joints (.hand side)) plant.jointPos
  handDq side := gather (b.joints (.hand side)) plant.jointVel

section
variable [Field K]

/-- The torque that a command asks at a position, from the position and velocity that are published there. -/
def JointCommand.law (c : JointCommand K) (k : Nat) (q dq : K) : K :=
  c.tau.getD k 0 + c.kp.getD k 0 * (c.q.getD k 0 - q) + c.kd.getD k 0 * (c.dq.getD k 0 - dq)

end

/-- The efforts staged by a law that reads the vectors published for a layout and writes at the same positions. -/
def JointLayout.stageLaw (l : JointLayout) (law : Nat → K → K → K) (q dq : List K) (effort : Nat → K) : Nat → K :=
  stage l.indices ((q.zip dq).mapIdx fun k x => law k x.1 x.2) effort

def Layouts.layout (ls : Layouts) : Group → Option JointLayout
  | .body => some ls.body
  | .hand side => ls.hand side

/-- The efforts staged by a law for each group, in the order of the tick: the body and then the hands. -/
def Layouts.stageLaws (ls : Layouts) (laws : Group → Nat → K → K → K) (pos vel effort : Nat → K) : Nat → K :=
  [Group.body, .hand .left, .hand .right].foldl
    (fun effort g => (ls.layout g).elim effort fun l =>
      l.stageLaw (laws g) (gather l.indices pos) (gather l.indices vel) effort) effort

end HumanoidLab
