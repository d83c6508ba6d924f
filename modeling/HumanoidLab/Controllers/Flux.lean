import HumanoidLab.Controllers.Sources
import Mathlib.Data.Rat.Cast.OfScientific

/-! What the Flux provider reads at its construction (`controllers/flux_dds.py`): the position ranges of the pinned model,
    by joint name, and the gains of the deployment (`controllers/sonic.py`, `deploy_gains`). -/

namespace HumanoidLab

variable {K : Type}

/-! ### The pinned ranges -/

/-- An entry of the file of joint limits: its text, and its bounds when they are numbers. -/
structure PinnedEntry (K : Type) where
  name : String
  bounds : Option (Value K × Value K)
  text : String

section
variable [LT K] [DecidableRel (α := K) (· < ·)]

/-- The range of an entry. -/
def PinnedEntry.range (entry : PinnedEntry K) : Except Raised (String × K × K) :=
  match entry.bounds with
  | none => .error (.command s!"pinned joint limits for {quoted entry.name} are malformed: {entry.text}")
  | some (.fin lower, .fin upper) =>
    if lower < upper then .ok (entry.name, lower, upper)
    else .error (.command s!"pinned joint limits for {quoted entry.name} are invalid: {entry.text}")
  | some _ => .error (.command s!"pinned joint limits for {quoted entry.name} are invalid: {entry.text}")

/-- `pinned_position_limits`, of a file that was read. -/
def pinnedPositionLimits (joints : List (PinnedEntry K)) : Except Raised (List (String × K × K)) :=
  joints.mapM PinnedEntry.range

end

/-- A list of strings as `repr` writes it. -/
def listText (xs : List String) : String := "[" ++ ", ".intercalate (xs.map quoted) ++ "]"

/-- `_limits_for`. -/
def limitsFor (names : List String) (limits : List (String × K × K)) : Except Raised (List (K × K)) :=
  match names.mapM fun name => limits.lookup name with
  | some ranges => .ok ranges
  | none =>
    let missing := (names.filter fun name => (limits.lookup name).isNone).eraseDups.mergeSort
    .error (.command ("the pinned joint limits declare no range for " ++ listText missing))

/-! ### The gains of the deployment -/

section
variable [Field K]

/-- The motor families. -/
inductive MotorFamily
  | f5020
  | f7520_14
  | f7520_22
  | f4010
  deriving DecidableEq, Repr

def motorArmature : MotorFamily → K
  | .f5020 => 0.003609725
  | .f7520_14 => 0.010177520
  | .f7520_22 => 0.025101925
  | .f4010 => 0.00425

/-- `BODY_MOTOR_FAMILY`. -/
def bodyMotorFamily : List MotorFamily :=
  [.f7520_22, .f7520_22, .f7520_14, .f7520_22, .f5020, .f5020, .f7520_22, .f7520_22, .f7520_14, .f7520_22, .f5020, .f5020,
   .f7520_14, .f5020, .f5020, .f5020, .f5020, .f5020, .f5020, .f5020, .f4010, .f4010, .f5020, .f5020, .f5020, .f5020, .f5020,
   .f4010, .f4010]

/-- `BODY_GAIN_MULTIPLIER`. -/
def bodyGainMultiplier : List K :=
  [1.0, 1.0, 1.0, 1.0, 2.0, 2.0, 1.0, 1.0, 1.0, 1.0, 2.0, 2.0, 1.0, 2.0, 2.0, 1.0, 1.0, 1.0, 1.0, 1.0, 1.0, 1.0, 1.0, 1.0, 1.0,
   1.0, 1.0, 1.0, 1.0]

def naturalFrequencyHz : K := 10.0
def dampingRatio : K := 2.0

/-- `deploy_gains`: the position and damping gain of each body joint. -/
def deployGains (pi : K) : List (K × K) :=
  let omega := 2.0 * pi * naturalFrequencyHz
  List.zipWith (fun family multiplier =>
    (multiplier * motorArmature family * omega * omega, multiplier * 2.0 * dampingRatio * motorArmature family * omega))
    bodyMotorFamily bodyGainMultiplier

/-- What `FluxDdsController` resolves at its construction. -/
def fluxConfig [LinearOrder K] (pi : K) (joints : List (PinnedEntry K)) (ttlTicks : Nat) (gapTicks : Int) :
    Except Raised (FluxConfig K) := do
  let limits ← pinnedPositionLimits joints
  let body ← limitsFor bodyJointOrder limits
  let left ← limitsFor (handJointNames .left) limits
  let right ← limitsFor (handJointNames .right) limits
  return {
    ttlTicks, gapTicks
    gains := fun slot => (deployGains pi).getD slot (0, 0)
    bodyLimits := body
    handLimits := fun | .left => left | .right => right }

end
end HumanoidLab
