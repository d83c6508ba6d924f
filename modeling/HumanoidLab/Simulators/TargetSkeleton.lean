import HumanoidLab.Datasets.Heading
import HumanoidLab.Lib.Dict

/-! The skeleton of a commanded pose (`simulators/isaac/target_skeleton.py`): the frames of the links of a URDF, and the lines between
    those that are shown. Loops that may not end are given a number of rounds. -/

namespace HumanoidLab.Skeleton
open Arithmetic

inductive KinematicsError
  | lacksLink
  | unknownTargets (names : List String)
  | unsupported (kind : String)
  | noVisibleAncestor (joint : String)
  | disconnected
  deriving DecidableEq, Repr

/-- Why nothing is returned: an error that is raised, or the rounds are over. -/
inductive Stop
  | raised (error : KinematicsError)
  | unfinished
  deriving DecidableEq, Repr

/-! ### Transforms -/

/-- A matrix of four rows. -/
abbrev Transform (K : Type) := Fin 4 → Fin 4 → K

/-- A rotation matrix, by its rows. -/
structure Rotation (K : Type) where
  x : Vec3 K
  y : Vec3 K
  z : Vec3 K

section
variable {K : Type} [Arithmetic K]

/-- A rotation and a translation in one matrix. -/
def Transform.of (r : Rotation K) (p : Vec3 K) : Transform K :=
  ![![r.x.x, r.x.y, r.x.z, p.x], ![r.y.x, r.y.y, r.y.z, p.y], ![r.z.x, r.z.y, r.z.z, p.z], ![ofRat 0, ofRat 0, ofRat 0, ofRat 1]]

/-- `a @ b`. -/
def Transform.mul (a b : Transform K) : Transform K := fun i j => a i 0 * b 0 j + a i 1 * b 1 j + a i 2 * b 2 j + a i 3 * b 3 j

/-- `pose[:3, 3]`. -/
def Transform.position (t : Transform K) : Vec3 K := ⟨t 0 3, t 1 3, t 2 3⟩

def Rotation.identity : Rotation K :=
  ⟨⟨ofRat 1, ofRat 0, ofRat 0⟩, ⟨ofRat 0, ofRat 1, ofRat 0⟩, ⟨ofRat 0, ofRat 0, ofRat 1⟩⟩

def Vec3.zero : Vec3 K := ⟨ofRat 0, ofRat 0, ofRat 0⟩

def rotationRpy (rpy : Vec3 K) : Rotation K :=
  let cr := cos rpy.x
  let sr := sin rpy.x
  let cp := cos rpy.y
  let sp := sin rpy.y
  let cy := cos rpy.z
  let sy := sin rpy.z
  ⟨⟨cy * cp, cy * sp * sr - sy * cr, cy * sp * cr + sy * sr⟩,
   ⟨sy * cp, sy * sp * sr + cy * cr, sy * sp * cr - cy * sr⟩,
   ⟨-sp, cp * sr, cp * cr⟩⟩

def rotationAxis (axis : Vec3 K) (angle : K) : Rotation K :=
  let norm := sqrt (axis.x * axis.x + axis.y * axis.y + axis.z * axis.z)
  let x := axis.x / norm
  let y := axis.y / norm
  let z := axis.z / norm
  let c := cos angle
  let s := sin angle
  let t := ofRat 1 - c
  ⟨⟨c + t * (x * x) + s * ofRat 0, t * (x * y) + s * -z, t * (x * z) + s * y⟩,
   ⟨t * (y * x) + s * z, c + t * (y * y) + s * ofRat 0, t * (y * z) + s * -x⟩,
   ⟨t * (z * x) + s * -y, t * (z * y) + s * x, c + t * (z * z) + s * ofRat 0⟩⟩

def rootTransform (position : Vec3 K) (quaternionWxyz : Quat K) : Transform K :=
  let norm := quaternionWxyz.norm
  let w := quaternionWxyz.w / norm
  let x := quaternionWxyz.x / norm
  let y := quaternionWxyz.y / norm
  let z := quaternionWxyz.z / norm
  .of ⟨⟨ofRat 1 - ofRat 2 * (y * y + z * z), ofRat 2 * (x * y - z * w), ofRat 2 * (x * z + y * w)⟩,
       ⟨ofRat 2 * (x * y + z * w), ofRat 1 - ofRat 2 * (x * x + z * z), ofRat 2 * (y * z - x * w)⟩,
       ⟨ofRat 2 * (x * z - y * w), ofRat 2 * (y * z + x * w), ofRat 1 - ofRat 2 * (x * x + y * y)⟩⟩ position

end

/-! ### The joints -/

inductive JointKind
  | revolute
  | continuous
  | prismatic
  | fixed
  | other (name : String)
  deriving DecidableEq, Repr

structure Joint (K : Type) where
  name : String
  kind : JointKind
  parent : String
  child : String
  origin : Transform K
  axis : Vec3 K

/-- A joint element of the URDF, with what its `origin` and `axis` say. -/
structure JointElement (K : Type) where
  name : String
  kind : JointKind
  parent : Option String
  child : Option String
  xyz : Option (Vec3 K)
  rpy : Option (Vec3 K)
  axis : Option (Vec3 K)

section
variable {K : Type} [Arithmetic K]

/-- `UrdfKinematics.__init__`. -/
def loadJoints (elements : List (JointElement K)) : Except KinematicsError (List (Joint K)) :=
  elements.mapM fun element =>
    match element.parent, element.child with
    | some parent, some child => .ok {
        name := element.name
        kind := element.kind
        parent, child
        origin := .of (rotationRpy (element.rpy.getD Vec3.zero)) (element.xyz.getD Vec3.zero)
        axis := element.axis.getD ⟨ofRat 1, ofRat 0, ofRat 0⟩ }
    | _, _ => .error .lacksLink

def JointKind.actuated : JointKind → Bool
  | .revolute | .continuous | .prismatic => true
  | _ => false

def actuated (joints : List (Joint K)) : List String := (joints.filter (·.kind.actuated)).map (·.name)

/-- The motion of a joint at its target. -/
def Joint.motion (j : Joint K) (q : List (String × K)) : Except KinematicsError (Transform K) :=
  let value := (q.lookup j.name).getD (ofRat 0)
  match j.kind with
  | .revolute | .continuous => .ok (.of (rotationAxis j.axis value) Vec3.zero)
  | .prismatic => .ok (.of Rotation.identity ⟨j.axis.x * value, j.axis.y * value, j.axis.z * value⟩)
  | .fixed => .ok (.of Rotation.identity Vec3.zero)
  | .other kind => .error (.unsupported kind)

/-- A joint is shown if it has a target, or if it holds a palm. -/
def Joint.shown (j : Joint K) (q : List (String × K)) (includePalms : Bool) : Bool :=
  (q.lookup j.name).isSome || (includePalms && "hand_palm_link".toList.isSuffixOf j.child.toList)

/-! ### The frames -/

/-- What the sweeps build: the frame of each link, the points, and the index of each link that is shown. -/
structure Frames (K : Type) where
  poses : List (String × Transform K)
  points : List (Vec3 K)
  indices : List (String × Nat)
  edges : List (Nat × Nat)

/-- The search for a visible ancestor, which follows the first joint that lists a link as its child. -/
def visibleAncestor (joints : List (Joint K)) (indices : List (String × Nat)) (name : String) : Nat → String → Except Stop String
  | 0, _ => .error .unfinished
  | rounds + 1, parent =>
    if (indices.lookup parent).isSome then .ok parent
    else
      match joints.find? (·.child = parent) with
      | none => .error (.raised (.noVisibleAncestor name))
      | some predecessor => visibleAncestor joints indices name rounds predecessor.parent

section
variable (joints : List (Joint K)) (q : List (String × K)) (includePalms : Bool) (rounds : Nat)

/-- The frame of a joint, and its point and line where it is shown. -/
def place (j : Joint K) (parentPose : Transform K) (s : Frames K) : Except Stop (Frames K) := do
  let motion ← (j.motion q).mapError .raised
  let pose := (parentPose.mul j.origin).mul motion
  let s := { s with poses := Dict.set s.poses j.child pose }
  if j.shown q includePalms then
    let parent ← visibleAncestor joints s.indices j.name rounds j.parent
    let index := s.points.length
    let indices := Dict.set s.indices j.child index
    return { s with
      indices
      points := s.points ++ [pose.position]
      edges := s.edges ++ [((indices.lookup parent).getD 0, index)] }
  else return s

/-- One sweep over the remaining joints; those whose parent has no frame are left. -/
def sweepJoints : List (Joint K) → Frames K → List (Joint K) → Except Stop (Frames K × List (Joint K))
  | [], s, pending => .ok (s, pending)
  | j :: rest, s, pending =>
    match s.poses.lookup j.parent with
    | none => sweepJoints rest s (pending ++ [j])
    | some parentPose => do
      let s ← place joints q includePalms rounds j parentPose s
      sweepJoints rest s pending

/-- The sweeps, until no joint remains or one changes nothing. -/
def sweepAll : Nat → List (Joint K) → Frames K → Except Stop (Frames K)
  | 0, _, _ => .error .unfinished
  | n + 1, remaining, s =>
    if remaining.isEmpty then .ok s
    else do
      let (s, pending) ← sweepJoints joints q includePalms rounds remaining s []
      if pending.length = remaining.length then .error (.raised .disconnected) else sweepAll n pending s

/-- `UrdfKinematics.points`, with a number of rounds for each of its loops. -/
def points (rootPosition : Vec3 K) (rootQuaternion : Quat K) : Except Stop (List (Vec3 K) × List (Nat × Nat)) :=
  let unknown := (Dict.keys q).filter fun name => name ∉ actuated joints
  if unknown ≠ [] then .error (.raised (.unknownTargets (unknown.mergeSort fun a b => a ≤ b)))
  else do
    let start : Frames K := ⟨[("pelvis", rootTransform rootPosition rootQuaternion)], [rootPosition], [("pelvis", 0)], []⟩
    let s ← sweepAll joints q includePalms rounds rounds joints start
    return (s.points, s.edges)

end
end
end HumanoidLab.Skeleton
