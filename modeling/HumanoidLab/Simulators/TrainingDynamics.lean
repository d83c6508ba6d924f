import HumanoidLab.Lib.Dict

/-! The armature of the training rig (`simulators/isaac/training_dynamics.py`), read from the syntax tree of its configuration:
    each actuator group selects joints by patterns, and gives them one armature, one by pattern, or none. -/

namespace HumanoidLab.TrainingDynamics

variable {K : Type}

/-- A node of the syntax tree of a Python module. `absent` stands for a key that is `None`, and `other` for any node that is not
    told apart, with its children. -/
inductive Node (K : Type)
  | number (value : K)
  | string (value : String)
  | name (id : String)
  | mult (left right : Node K)
  | sequence (elts : List (Node K))
  | dict (keys values : List (Node K))
  | absent
  | call (func : Node K) (args keywords : List (Node K))
  | keyword (arg : Option String) (value : Node K)
  | assign (targets : List (Node K)) (value : Node K)
  | other (children : List (Node K))

inductive DynamicsError
  | unknownConstant (id : String)
  | unsupportedExpression
  | expectedStrings
  | expansion
  | noArticulation
  | noActuators
  | notACall
  | noArmature
  | conflicting (name : String)
  deriving DecidableEq, Repr

/-! ### The order of `ast.walk` -/

/-- The levels of two trees that stand side by side. -/
def joinLevels {α : Type} : List (List α) → List (List α) → List (List α)
  | [], right => right
  | left, [] => left
  | l :: left, r :: right => (l ++ r) :: joinLevels left right

mutual

/-- A node and those below it, level by level. -/
def Node.levels : Node K → List (List (Node K))
  | .number value => [[.number value]]
  | .string value => [[.string value]]
  | .name id => [[.name id]]
  | .mult left right => [.mult left right] :: joinLevels left.levels right.levels
  | .sequence elts => [.sequence elts] :: levelsAll elts
  | .dict keys values => [.dict keys values] :: joinLevels (levelsAll keys) (levelsAll values)
  | .absent => [[.absent]]
  | .call func args keywords =>
    [.call func args keywords] :: joinLevels func.levels (joinLevels (levelsAll args) (levelsAll keywords))
  | .keyword arg value => [.keyword arg value] :: value.levels
  | .assign targets value => [.assign targets value] :: joinLevels (levelsAll targets) value.levels
  | .other children => [.other children] :: levelsAll children

def levelsAll : List (Node K) → List (List (Node K))
  | [] => []
  | node :: rest => joinLevels node.levels (levelsAll rest)

end

def Node.walk (node : Node K) : List (Node K) := node.levels.flatten

/-! ### Values -/

section
variable [Mul K]

/-- `_literal`: a number, a known constant, or a product of the two. -/
def literal (names : List (String × K)) : Node K → Except DynamicsError K
  | .number value => .ok value
  | .name id =>
    match names.lookup id with
    | some value => .ok value
    | none => .error (.unknownConstant id)
  | .mult left right => do return (← literal names left) * (← literal names right)
  | _ => .error .unsupportedExpression

end

mutual

/-- `_strings`. -/
def strings : Node K → Except DynamicsError (List String)
  | .string value => .ok [value]
  | .sequence elts => stringsAll elts
  | _ => .error .expectedStrings

def stringsAll : List (Node K) → Except DynamicsError (List String)
  | [] => .ok []
  | element :: rest => do return (← strings element) ++ (← stringsAll rest)

end

/-! ### Groups -/

/-- An actuator group: the patterns of its joints, and its armature by pattern, if it has one. A single armature has the pattern
    of every joint. -/
structure Group (K : Type) where
  patterns : List String
  armature : Option (List (String × K))
  deriving DecidableEq, Repr

def everyJoint : String := ".*"

section
variable [Mul K]

/-- `_armature_entries`. -/
def armatureEntries (names : List (String × K)) : Node K → Except DynamicsError (List (String × K))
  | .dict keys values => do
    let items ← (keys.zip values).mapM fun (key, value) =>
      match key with
      | .absent => .error .expansion
      | key => do
        let patterns ← strings key
        patterns.mapM fun pattern => do return (pattern, ← literal names value)
    return items.flatten
  | node => do return [(everyJoint, ← literal names node)]

/-- The last keyword of a call that has a name. -/
def keywordOf (arg : String) (keywords : List (Node K)) : Option (Node K) :=
  keywords.foldl (fun found keyword =>
    match keyword with
    | .keyword (some name) value => if name = arg then some value else found
    | _ => found) none

/-- What the loop over the groups reads of one. -/
def readGroup (constants : List (String × K)) : Node K → Except DynamicsError (Group K)
  | .call _ _ keywords => do
    let patterns ← match keywordOf "joint_names_expr" keywords with
      | some node => strings node
      | none => .ok []
    match keywordOf "armature" keywords with
    | some node => return ⟨patterns, some (← armatureEntries constants node)⟩
    | none => return ⟨patterns, none⟩
  | _ => .error .notACall

/-- The entries of a group. A key of its mapping stands for itself, unless it is the pattern of every joint. -/
def groupEntries [Zero K] (g : Group K) : List (String × K) :=
  match g.armature with
  | none => g.patterns.map fun pattern => (pattern, 0)
  | some group => g.patterns.flatMap fun pattern => group.map fun (subPattern, armature) =>
    if subPattern = everyJoint then (pattern, armature) else (subPattern, armature)

/-! ### The configuration -/

/-- The `ARMATURE_*` constants of a module, as far as they can be evaluated. -/
def moduleConstants (body : List (Node K)) : List (String × K) :=
  body.foldl (fun constants node =>
    match node with
    | .assign [.name id] value =>
      if id.startsWith "ARMATURE_" then
        match literal constants value with
        | .ok armature => Dict.set constants id armature
        | .error _ => constants
      else constants
    | _ => constants) []

def trainingArticulation : String := "G1_CYLINDER_MODEL_12_DEX_CFG"

/-- The actuator groups of a module, and its constants. -/
def loadGroups (body : List (Node K)) : Except DynamicsError (List (Group K) × List (String × K)) := do
  let constants := moduleConstants body
  let assigned : Option (Node K) := (Node.other body).walk.findSome? fun node =>
    match node with
    | .assign [.name id] value => if id = trainingArticulation then some value else none
    | _ => none
  match assigned with
  | none => .error .noArticulation
  | some articulation =>
    let actuators : Option (Node K) := articulation.walk.findSome? fun node =>
      match node with
      | .keyword (some arg) value => if arg = "actuators" then some value else none
      | _ => none
    match actuators with
    | some (.dict _ values) => return (← values.mapM (readGroup constants), constants)
    | _ => .error .noActuators

def loadTrainingJointArmature [Zero K] (body : List (Node K)) :
    Except DynamicsError (List (String × K) × List (String × K)) := do
  let (groups, constants) ← loadGroups body
  let entries := groups.flatMap groupEntries
  if entries.isEmpty then .error .noArmature else return (entries, constants)

/-! ### Joints -/

/-- The armatures of the entries whose pattern a joint matches. -/
def matching (fullmatch : String → String → Bool) (entries : List (String × K)) (name : String) : List K :=
  (entries.filter fun entry => fullmatch entry.1 name).map (·.2)

/-- The armature of each joint, and the joints that no entry matches. -/
def resolveArmature [Zero K] [DecidableEq K] (fullmatch : String → String → Bool) (entries : List (String × K)) :
    List String → Except DynamicsError (List K × List String)
  | [] => .ok ([], [])
  | name :: rest =>
    let matched := matching fullmatch entries name
    if 1 < matched.dedup.length then .error (.conflicting name)
    else do
      let (values, unset) ← resolveArmature fullmatch entries rest
      match matched with
      | [] => return (0 :: values, name :: unset)
      | armature :: _ => return (armature :: values, unset)

end
end HumanoidLab.TrainingDynamics
