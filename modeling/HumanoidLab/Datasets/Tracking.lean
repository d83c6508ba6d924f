import HumanoidLab.Datasets.Convert
import HumanoidLab.Simulators.Recorder

/-! The traces of the simulator and their metrics (`datasets/sonic/tracking.py`, with `joint_error_metrics` of
    `datasets/sonic/quality.py`), over any arithmetic. -/

namespace HumanoidLab.Sonic
open Psi0Dex3

inductive TrackingError
  | empty
  | ragged
  | missingHand
  | noColumn
  | shape
  | names
  | noRows
  | unknownWindow
  deriving DecidableEq, Repr

/-- The arithmetic of the metrics. `max` and `min` are only taken of arrays with an entry. -/
structure Numerics (K : Type) where
  ofRat : ℚ → K
  add : K → K → K
  sub : K → K → K
  mul : K → K → K
  abs : K → K
  lt : K → K → Bool
  mean : List K → K
  percentile95 : List K → K
  max : List K → K
  min : List K → K
  arccosDegrees : K → K

/-- `np.clip` to the range of a cosine. -/
def Numerics.clipUnit {K : Type} (N : Numerics K) (x : K) : K :=
  if N.lt x (N.ofRat (-1)) then N.ofRat (-1) else if N.lt (N.ofRat 1) x then N.ofRat 1 else x

/-! ### The trace -/

/-- The columns of a trace, with a row for each tick. -/
structure Tracking (K : Type) where
  simS : List K
  wallTimeNs : List Int
  supportActive : List Bool
  bodyTarget : List (List K)
  bodyMeasured : List (List K)
  handTarget : Side → List (List K)
  handMeasured : Side → List (List K)
  rootPosition : List (List K)
  rootUpZ : List K

section
variable {K : Type}

/-- The width of an array that has rows. -/
def width (rows : List (List K)) : Nat := (rows.headD []).length

/-- The rows as an array, which is not ragged. -/
def stack (rows : List (List K)) : Except TrackingError (List (List K)) :=
  if rows.any (·.length ≠ width rows) then .error .ragged else .ok rows

/-- `stack_hand`. -/
def stackHand (values : List (Option (List K))) : Except TrackingError (List (List K)) :=
  if values.any (·.isNone) then .error .missingHand else stack (values.filterMap id)

/-- A column of an array. -/
def column (index : Nat) (rows : List (List K)) : Except TrackingError (List K) :=
  if width rows ≤ index then .error .noColumn else .ok (rows.filterMap (·[index]?))

/-- A wall time as it is loaded, through a float. -/
def loadedWallTime (ns : Int) : Int := ⌊float64 ns⌋

/-- `load_tracking`, from the rows of the file; `timed` says whether it has wall times. -/
def loadTracking (N : Numerics K) (timed : Bool) (rows : List (TrackingRow K)) : Except TrackingError (Tracking K) := do
  if rows.isEmpty then throw .empty
  let quaternion ← stack (rows.map (·.rootQuaternionWxyz))
  let x ← column 1 quaternion
  let y ← column 2 quaternion
  let upZ := List.zipWith (fun x y => N.sub (N.ofRat 1) (N.mul (N.ofRat 2) (N.add (N.mul x x) (N.mul y y)))) x y
  let bodyTarget ← stack (rows.map (·.bodyTarget))
  let bodyMeasured ← stack (rows.map (·.bodyMeasured))
  let leftTarget ← stackHand (rows.map (·.handTarget .left))
  let leftMeasured ← stack (rows.map (·.handMeasured .left))
  let rightTarget ← stackHand (rows.map (·.handTarget .right))
  let rightMeasured ← stack (rows.map (·.handMeasured .right))
  let rootPosition ← stack (rows.map (·.rootPosition))
  return {
    simS := rows.map (·.simS)
    wallTimeNs := if timed then rows.map fun row => loadedWallTime row.wallTimeNs else []
    supportActive := rows.map (·.supportActive)
    bodyTarget, bodyMeasured
    handTarget := fun | .left => leftTarget | .right => rightTarget
    handMeasured := fun | .left => leftMeasured | .right => rightMeasured
    rootPosition
    rootUpZ := upZ.map N.clipUnit }

/-! ### The windows -/

inductive Window
  | all
  | free
  | motion
  | other (name : String)
  deriving DecidableEq, Repr

/-- The entries of an array at which a mask is set. -/
def select {α : Type} (mask : List Bool) (xs : List α) : List α := ((mask.zip xs).filter (·.1)).map (·.2)

def freeWindow (t : Tracking K) : List Bool :=
  let mask := t.supportActive.map (!·)
  if mask.any id then mask else mask.map fun _ => true

/-- `motion_start_index`, with the default epsilon. -/
def motionStartIndex (N : Numerics K) (t : Tracking K) : Option Nat :=
  t.bodyTarget.findIdx? fun row =>
    N.lt (N.ofRat 1e-6) (N.max (List.zipWith (fun a b => N.abs (N.sub a b)) row (t.bodyTarget.headD [])))

def motionWindow (N : Numerics K) (t : Tracking K) : List Bool :=
  (List.range t.simS.length).map fun i => (motionStartIndex N t).getD 0 ≤ i

def windowMask (N : Numerics K) (t : Tracking K) : Window → Except TrackingError (List Bool)
  | .all => .ok (t.simS.map fun _ => true)
  | .free => .ok (freeWindow t)
  | .motion => .ok (motionWindow N t)
  | .other _ => .error .unknownWindow

/-! ### The metrics -/

structure JointError (K : Type) where
  mae : K
  p95 : K
  max : K

def JointError.of (N : Numerics K) (errors : List K) : JointError K := ⟨N.mean errors, N.percentile95 errors, N.max errors⟩

structure JointErrors (K : Type) where
  perJoint : List (String × JointError K)
  overall : JointError K
  frames : Nat

/-- The absolute differences of two arrays. -/
def deviations (N : Numerics K) (reference actual : List (List K)) : List (List K) :=
  List.zipWith (List.zipWith fun a b => N.abs (N.sub a b)) reference actual

def jointErrorMetrics (N : Numerics K) (target measured : List (List K)) (jointNames : List String) :
    Except TrackingError (JointErrors K) :=
  if target.length ≠ measured.length ∨ width target ≠ width measured then .error .shape
  else if width target ≠ jointNames.length then .error .names
  else
    let error := deviations N target measured
    .ok {
      perJoint := jointNames.zipIdx.map fun (name, index) => (name, .of N (error.filterMap (·[index]?)))
      overall := .of N error.flatten
      frames := error.length }

structure Stability (K : Type) where
  fell : Bool
  minRootHeightM : K
  finalRootHeightM : K
  maxTiltDeg : K
  finalTiltDeg : K
  frames : Nat

/-- `FALL_ROOT_HEIGHT_M` and `FALL_TILT_DEG`. -/
def fallRootHeightM : ℚ := 0.45

def fallTiltDeg : ℚ := 60

def stabilityMetrics (N : Numerics K) (t : Tracking K) (mask : List Bool) : Except TrackingError (Stability K) := do
  let upZ := select mask t.rootUpZ
  let heights := select mask (← column 2 t.rootPosition)
  let tiltDeg := upZ.map fun z => N.arccosDegrees (N.clipUnit z)
  match heights.getLast?, tiltDeg.getLast? with
  | some finalHeight, some finalTilt =>
    return {
      fell := heights.any (N.lt · (N.ofRat fallRootHeightM)) || tiltDeg.any (N.lt (N.ofRat fallTiltDeg))
      minRootHeightM := N.min heights
      finalRootHeightM := finalHeight
      maxTiltDeg := N.max tiltDeg
      finalTiltDeg := finalTilt
      frames := mask.count true }
  | _, _ => throw .noRows

/-- `LEG_WAIST_TOKENS`. -/
def legWaistTokens : List String := ["hip", "knee", "ankle", "waist"]

def jointGroups (jointNames : List String) : List (String × List String) :=
  let startsWith := fun (parts : List String) (name : String) => parts.any fun part => part.toList.isPrefixOf name.toList
  [("legs_waist", jointNames.filter fun name => legWaistTokens.any fun token => name.toList.tails.any (token.toList.isPrefixOf ·)),
   ("arms", jointNames.filter (startsWith ["left_shoulder", "right_shoulder", "left_elbow", "right_elbow"])),
   ("wrists", jointNames.filter (startsWith ["left_wrist", "right_wrist"]))]

structure GroupError (K : Type) extends JointError K where
  joints : List String

def groupError (N : Numerics K) (names : List String) (errors : List (List K)) (members : List String) : GroupError K :=
  let indices := members.map names.idxOf
  let values := (errors.map fun row => indices.filterMap (row[·]?)).flatten
  if indices.isEmpty then { mae := N.ofRat 0, p95 := N.ofRat 0, max := N.ofRat 0, joints := members }
  else { JointError.of N values with joints := members }

structure TrackingMetrics (K : Type) where
  window : Window
  frames : Nat
  simSeconds : K
  body : JointErrors K
  groups : List (String × GroupError K)
  hands : Side → JointErrors K
  stability : Stability K
  values : List (String × K)

/-- The names of the columns of a hand. -/
def handColumns (side : Side) : List String := (List.range 7).map fun index => side.text ++ "_hand_" ++ toString index

/-- `max(a, b)` of two floats. -/
def Numerics.larger (N : Numerics K) (a b : K) : K := if N.lt a b then b else a

def trackingMetrics (N : Numerics K) (t : Tracking K) (window : Window) : Except TrackingError (TrackingMetrics K) := do
  let mask ← windowMask N t window
  let names := bodyJointOrder
  let body ← jointErrorMetrics N (select mask t.bodyTarget) (select mask t.bodyMeasured) names
  let errors := deviations N (select mask t.bodyTarget) (select mask t.bodyMeasured)
  let groups := (jointGroups names).map fun (group, members) => (group, groupError N names errors members)
  let mae := fun group => (groups.lookup group).elim (N.ofRat 0) (·.mae)
  let left ← jointErrorMetrics N (select mask (t.handTarget .left)) (select mask (t.handMeasured .left)) (handColumns .left)
  let right ← jointErrorMetrics N (select mask (t.handTarget .right)) (select mask (t.handMeasured .right)) (handColumns .right)
  let stability ← stabilityMetrics N t mask
  let simS := select mask t.simS
  return {
    window
    frames := mask.count true
    simSeconds := match simS.head?, simS.getLast? with
      | some first, some last => N.sub last first
      | _, _ => N.ofRat 0
    body, groups
    hands := fun | .left => left | .right => right
    stability
    values := [
      ("tracking.body.mae_rad", body.overall.mae),
      ("tracking.body.p95_rad", body.overall.p95),
      ("tracking.body.max_rad", body.overall.max),
      ("tracking.legs_waist.mae_rad", mae "legs_waist"),
      ("tracking.arms.mae_rad", mae "arms"),
      ("tracking.wrists.mae_rad", mae "wrists"),
      ("tracking.hand.mae_rad", N.larger left.overall.mae right.overall.mae),
      ("tracking.fell", if stability.fell then N.ofRat 1 else N.ofRat 0)] }

end
end HumanoidLab.Sonic
