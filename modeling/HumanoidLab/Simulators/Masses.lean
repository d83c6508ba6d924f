import HumanoidLab.Lib.Dict

/-! The masses of a URDF (`simulators/isaac/masses.py`): those of its links as authored, and those of the plant that the training
    rig spawns, which folds every link that hangs by a fixed joint into its parent. -/

namespace HumanoidLab.Masses

/-- A `link` element: its name, and the value of the mass in its inertial element. -/
structure LinkElement where
  name : Option String
  mass : Option String
  deriving DecidableEq, Repr

/-- A `joint` element. The elements of its parent and its child may be missing, and so may their links. -/
structure JointElement where
  type : Option String
  parent : Option (Option String)
  child : Option (Option String)
  deriving DecidableEq, Repr

/-- The elements of a file, in its order. -/
structure Urdf where
  links : List LinkElement
  joints : List JointElement

inductive MassError
  | noLinkMasses
  | notANumber (text : String)
  deriving DecidableEq, Repr

/-- The parent and the child of a joint that has both. -/
def JointElement.edge (j : JointElement) : Option (String × String) :=
  match j.child.join, j.parent.join with
  | some child, some parent => if child = "" ∨ parent = "" then none else some (parent, child)
  | _, _ => none

def JointElement.fixedEdge (j : JointElement) : Option (String × String) :=
  if j.type = some "fixed" then j.edge else none

/-- The joints of a file, as pairs of a parent and a child. -/
def Urdf.edges (u : Urdf) : List (String × String) := u.joints.filterMap JointElement.edge

section
variable {M : Type}

def addLinkMass (float : String → Option M) (masses : List (String × M)) (link : LinkElement) : Except MassError (List (String × M)) :=
  match link.name, link.mass with
  | some name, some value =>
    if name = "" then .ok masses
    else
      match float value with
      | some mass => .ok (Dict.set masses name mass)
      | none => .error (.notANumber value)
  | _, _ => .ok masses

/-- The first loop of `_parse_urdf_links`. -/
def linkMasses (float : String → Option M) (links : List LinkElement) : Except MassError (List (String × M)) :=
  links.foldlM (addLinkMass float) []

def addFixedParent (fixed : List (String × String)) (joint : JointElement) : List (String × String) :=
  match joint.fixedEdge with
  | some (parent, child) => Dict.set fixed child parent
  | none => fixed

/-- The second one: the parent of each child of a fixed joint. -/
def fixedParents (joints : List JointElement) : List (String × String) := joints.foldl addFixedParent []

def parseUrdfLinks (float : String → Option M) (u : Urdf) : Except MassError (List (String × M) × List (String × String)) := do
  let masses ← linkMasses float u.links
  if masses = [] then .error .noLinkMasses
  else return (masses, fixedParents u.joints)

variable [Zero M] [Add M]

/-- `masses.get(name, 0.0)`. -/
def massOf (masses : List (String × M)) (name : String) : M := (masses.lookup name).getD 0

def addChildMass (masses : List (String × M)) (merged : List (String × M)) : String × String → List (String × M)
  | (child, parent) => Dict.set merged parent (massOf merged parent + massOf masses child)

/-- The masses after the loop that adds each child's to its parent's. -/
def addedMasses (masses : List (String × M)) (fixed : List (String × String)) : List (String × M) :=
  fixed.foldl (addChildMass masses) masses

def mergedMasses (masses : List (String × M)) (fixed : List (String × String)) : List (String × M) :=
  fixed.foldl (fun merged (child, _) => Dict.pop merged child) (addedMasses masses fixed)

def loadUrdfMergedBodyMasses (float : String → Option M) (u : Urdf) : Except MassError (List (String × M) × List String) := do
  let (masses, fixed) ← parseUrdfLinks float u
  return (mergedMasses masses fixed, (Dict.keys fixed).mergeSort (· ≤ ·))

end
end HumanoidLab.Masses
