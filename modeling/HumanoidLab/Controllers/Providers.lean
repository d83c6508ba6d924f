import HumanoidLab.Controllers.Dds

/-! The two DDS providers: SONIC, which applies the whole body and both hands, and Flux, which applies the
    arms and the hands within their physical ranges. -/

namespace HumanoidLab

variable {K : Type}

/-- `BODY_JOINT_ORDER`. -/
def bodyJointOrder : List String :=
  ["left_hip_pitch_joint", "left_hip_roll_joint", "left_hip_yaw_joint", "left_knee_joint", "left_ankle_pitch_joint",
   "left_ankle_roll_joint", "right_hip_pitch_joint", "right_hip_roll_joint", "right_hip_yaw_joint", "right_knee_joint",
   "right_ankle_pitch_joint", "right_ankle_roll_joint", "waist_yaw_joint", "waist_roll_joint", "waist_pitch_joint",
   "left_shoulder_pitch_joint", "left_shoulder_roll_joint", "left_shoulder_yaw_joint", "left_elbow_joint",
   "left_wrist_roll_joint", "left_wrist_pitch_joint", "left_wrist_yaw_joint", "right_shoulder_pitch_joint",
   "right_shoulder_roll_joint", "right_shoulder_yaw_joint", "right_elbow_joint", "right_wrist_roll_joint",
   "right_wrist_pitch_joint", "right_wrist_yaw_joint"]

/-- `hand_joint_names`: the index and the middle finger stand in the other order on the right. -/
def handJointNames : Side → List String
  | .left =>
    ["left_hand_thumb_0_joint", "left_hand_thumb_1_joint", "left_hand_thumb_2_joint", "left_hand_middle_0_joint",
     "left_hand_middle_1_joint", "left_hand_index_0_joint", "left_hand_index_1_joint"]
  | .right =>
    ["right_hand_thumb_0_joint", "right_hand_thumb_1_joint", "right_hand_thumb_2_joint", "right_hand_index_0_joint",
     "right_hand_index_1_joint", "right_hand_middle_0_joint", "right_hand_middle_1_joint"]

def Message.vectors (m : Message K) : Vectors K :=
  ⟨m.map (·.q), m.map (·.dq), m.map (·.tau), m.map (·.kp), m.map (·.kd)⟩

/-! ### SONIC -/

/-- The first `n` slots of a message; a shorter one raises. -/
def firstSlots (n : Nat) (m : Message K) : Except Raised (Vectors K × List (Clip K)) :=
  if n ≤ m.length then .ok (Message.vectors (m.take n), []) else .error .index

/-- `SonicDdsController`. -/
def sonicDds (ttlTicks : Nat) (gapTicks : Int) : Dds K where
  ttlTicks
  gapTicks
  bodyNames := bodyJointOrder
  handNames := handJointNames
  bodyVectors := firstSlots bodyJointOrder.length
  handVectors side := firstSlots (handJointNames side).length

/-! ### Flux -/

/-- What the Flux provider reads at its construction: its times, the gains of the deployment by slot, and
    the ranges of the pinned model. -/
structure FluxConfig (K : Type) where
  ttlTicks : Nat
  gapTicks : Int
  gains : Nat → K × K
  bodyLimits : List (K × K)
  handLimits : Side → List (K × K)

def lowCmdMotorSlots : Nat := 35
def dex3MotorSlots : Nat := 7

def isArmSlot (slot : Nat) : Bool := 15 ≤ slot && slot < 29
def isWaistSlot (slot : Nat) : Bool := 12 ≤ slot && slot < 15

/-- A vector over the body joints that has the message's values at the arm slots. -/
def armVector [Zero K] (field : Motor K → Value K) (rest : Nat → K) (m : Message K) : List (Value K) :=
  (List.range bodyJointOrder.length).map fun slot =>
    if isArmSlot slot then (m[slot]?).elim (.fin 0) field
    else .fin (if isWaistSlot slot then rest slot else 0)

def bodyCommandVectors [Zero K] (gains : Nat → K × K) (m : Message K) : Except Raised (Vectors K) :=
  if m.length ≠ lowCmdMotorSlots then
    .error (.command s!"LowCmd carries {m.length} motor slots, expected {lowCmdMotorSlots}")
  else .ok {
    q := armVector (·.q) (fun _ => 0) m
    dq := armVector (·.dq) (fun _ => 0) m
    tau := armVector (·.tau) (fun _ => 0) m
    kp := armVector (·.kp) (fun slot => (gains slot).1) m
    kd := armVector (·.kd) (fun slot => (gains slot).2) m }

def handCommandVectors (m : Message K) : Except Raised (Vectors K) :=
  if m.length ≠ dex3MotorSlots then
    .error (.command s!"hand command carries {m.length} motor slots, expected {dex3MotorSlots}")
  else .ok m.vectors

section Clip
variable [LinearOrder K]

/-- A finite position moved into its range. -/
def clipValue (v : Value K) (limits : K × K) : Value K :=
  match v with
  | .fin x => .fin (min (max x limits.1) limits.2)
  | .nonFinite => .nonFinite

/-- The entry of a position that is moved. A NaN differs from itself, and the source lists it with itself; here it has no entry. -/
def clipEntry (joint : String) (v : Value K) (limits : K × K) : Option (Clip K) :=
  match v with
  | .fin x => if min (max x limits.1) limits.2 = x then none else some ⟨joint, x, min (max x limits.1) limits.2⟩
  | .nonFinite => none

def clipPositions (values : List (Value K)) (limits : List (K × K)) (names : List String) :
    Except Raised (List (Value K) × List (Clip K)) :=
  if values.length = limits.length ∧ limits.length = names.length then
    .ok (List.zipWith clipValue values limits,
      (names.zip (values.zip limits)).filterMap fun (name, v, l) => clipEntry name v l)
  else .error (.command
    s!"clip needs one range and one name per value, got {values.length} values, {limits.length} ranges, {names.length} names")

/-- `FluxDdsController`. -/
def fluxDds [Zero K] (config : FluxConfig K) : Dds K where
  ttlTicks := config.ttlTicks
  gapTicks := config.gapTicks
  bodyNames := bodyJointOrder
  handNames := handJointNames
  bodyVectors m := do
    let v ← bodyCommandVectors config.gains m
    let (q, clipped) ← clipPositions v.q config.bodyLimits bodyJointOrder
    return ({ v with q }, clipped)
  handVectors side m := do
    let v ← handCommandVectors m
    let (q, clipped) ← clipPositions v.q (config.handLimits side) (handJointNames side)
    return ({ v with q }, clipped)

end Clip
end HumanoidLab
