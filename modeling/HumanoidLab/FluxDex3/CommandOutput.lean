import HumanoidLab.Bridge.Builtins
import HumanoidLab.FluxDex3.Executor
import HumanoidLab.Lib.Crc

/-! The motor commands of the Dex3 node (`flux_dex3/command_output.py`): the configuration of the hardware, the messages of a target,
    and the checksum of the message of the arms. A message holds a float32 in its 32 bits. -/

namespace HumanoidLab.FluxDex3
open Psi0Dex3 (FloatEntry float32 float64)

/-! ### The configuration -/

/-- What `load_motor_config` raises: a `ValueError` with its text, or the `OverflowError` of an integer beyond the floats. -/
inductive ConfigError
  | value (text : String)
  | overflow
  deriving DecidableEq, Repr

/-- The range of a joint. -/
abbrev JointRange := { l : ℚ × ℚ // l.1 < l.2 }

/-- A gain. -/
abbrev Gain := { x : ℚ // 0 < x }

/-- A configuration that was checked. -/
structure MotorConfig where
  jointLimits : List JointRange
  armKp : List Gain
  armKd : List Gain
  handKp : List Gain
  handKd : List Gain
  maxTrackingError : Gain
  handTimeoutEnabled : Bool
  armModeMachine : Fin 256
  limits_length : jointLimits.length = 28
  armKp_length : armKp.length = 14
  armKd_length : armKd.length = 14
  handKp_length : handKp.length = 14
  handKd_length : handKd.length = 14

def motorFields : List String :=
  ["joint_limits_rad", "max_tracking_error_rad", "arm_kp", "arm_kd", "hand_kp", "hand_kd", "hand_timeout_enabled", "arm_mode_machine"]

/-- A number that is finite as a float. -/
def readNumber (text : String) : JsonValue → Except ConfigError ℚ
  | .int n => if (2 : ℚ) ^ 1024 ≤ |float64 n| then .error .overflow else .ok n
  | .float (.finite x) => .ok x
  | _ => .error (.value text)

def readGain (text : String) (v : JsonValue) : Except ConfigError Gain := do
  let x ← readNumber text v
  if positive : 0 < x then .ok ⟨x, positive⟩ else .error (.value text)

def readRange : JsonValue → Except ConfigError JointRange
  | .arr [lower, upper] => do
    let lower ← readNumber "invalid joint limits" lower
    let upper ← readNumber "invalid joint limits" upper
    if ordered : lower < upper then .ok ⟨(lower, upper), ordered⟩ else .error (.value "invalid joint limits")
  | _ => .error (.value "invalid joint limits")

/-- The entries of a list of a given length, each read by `read`. -/
def readEntries {A : Type} (name : String) (size : Nat) (read : JsonValue → Except ConfigError A) :
    JsonValue → Except ConfigError { items : List A // items.length = size }
  | .arr items =>
    if sized : items.length = size then
      match hread : items.mapM read with
      | .error e => .error e
      | .ok entries => .ok ⟨entries, by rw [← (Fallible.mapM_ok hread).length_eq, sized]⟩
    else .error (.value ("invalid " ++ name))
  | _ => .error (.value ("invalid " ++ name))

def readGains (name : String) : JsonValue → Except ConfigError { gains : List Gain // gains.length = 14 } :=
  readEntries name 14 (readGain ("invalid " ++ name))

def readFlag : JsonValue → Except ConfigError Bool
  | .bool b => .ok b
  | _ => .error (.value "hand_timeout_enabled must be boolean")

theorem toNat_lt_of_byte {n : Int} (h : 0 ≤ n ∧ n ≤ 255) : n.toNat < 256 := by omega

def readMode : JsonValue → Except ConfigError (Fin 256)
  | .int n => if fits : 0 ≤ n ∧ n ≤ 255 then .ok ⟨n.toNat, toNat_lt_of_byte fits⟩ else .error (.value "invalid arm_mode_machine")
  | _ => .error (.value "invalid arm_mode_machine")

/-- `load_motor_config`, of a file that was read. -/
def loadMotorConfig : JsonValue → Except ConfigError MotorConfig
  | .obj members =>
    if motorFields.all (fun name => (Json.Value.get members name).isSome) ∧
        members.all (fun m => m.1 ∈ motorFields.map Json.text) then do
      let get := fun name => (Json.Value.get members name).getD .null
      let limits ← readEntries "joint_limits_rad" 28 readRange (get "joint_limits_rad")
      let armKp ← readGains "arm_kp" (get "arm_kp")
      let armKd ← readGains "arm_kd" (get "arm_kd")
      let handKp ← readGains "hand_kp" (get "hand_kp")
      let handKd ← readGains "hand_kd" (get "hand_kd")
      let maximum ← readGain "invalid max_tracking_error_rad" (get "max_tracking_error_rad")
      let timeout ← readFlag (get "hand_timeout_enabled")
      let mode ← readMode (get "arm_mode_machine")
      return ⟨limits.1, armKp.1, armKd.1, handKp.1, handKd.1, maximum, timeout, mode, limits.2, armKp.2, armKd.2, handKp.2, handKd.2⟩
    else .error (.value "motor config fields do not match the required contract")
  | _ => .error (.value "motor config fields do not match the required contract")

/-- The limits that the scheduler clips to. -/
def MotorConfig.limits (config : MotorConfig) : List (ℚ × ℚ) := config.jointLimits.map Subtype.val

/-! ### The messages -/

/-- One slot of a motor command. -/
structure MotorCmd where
  mode : Nat := 0
  q : ℚ := 0
  dq : ℚ := 0
  tau : ℚ := 0
  kp : ℚ := 0
  kd : ℚ := 0
  reserve : Nat := 0
  deriving DecidableEq, Repr

structure LowCmd where
  modePr : Nat := 0
  modeMachine : Nat := 0
  motorCmd : List MotorCmd := List.replicate 35 {}
  reserve : List Nat := List.replicate 4 0
  crc : BitVec 32 := 0#32
  deriving DecidableEq, Repr

/-- What is published for a target: the message of the arms, and those of the two hands. -/
structure Command where
  arm : LowCmd
  left : List MotorCmd
  right : List MotorCmd
  deriving DecidableEq, Repr

/-! ### The checksum -/

/-- The bits of a float32: its sign, its exponent and its fraction. -/
def packFloat (x : ℚ) : BitVec 32 :=
  let y := |float32 x|
  let exponent := max (Int.log 2 y) (-126)
  let fraction := ⌊y / 2 ^ (exponent - 23)⌋₊
  let magnitude := if y = 0 then 0 else if fraction < 2 ^ 23 then fraction else (exponent + 126).toNat * 2 ^ 23 + fraction
  BitVec.ofNat 32 ((if x < 0 then 2 ^ 31 else 0) + magnitude)

/-- The words of a motor: its mode in the first byte of four. -/
def MotorCmd.words (m : MotorCmd) : List (BitVec 32) :=
  [BitVec.ofNat 32 m.mode, packFloat m.q, packFloat m.dq, packFloat m.tau, packFloat m.kp, packFloat m.kd, BitVec.ofNat 32 m.reserve]

/-- The words that the checksum covers: all but its own. -/
def LowCmd.words (cmd : LowCmd) : List (BitVec 32) :=
  BitVec.ofNat 32 (cmd.modePr + 256 * cmd.modeMachine) :: cmd.motorCmd.flatMap MotorCmd.words ++ cmd.reserve.map (BitVec.ofNat 32)

def crcPolynomial : BitVec 32 := 0x04C11DB7#32

/-- One round for the bit `i` of a word, counted from the top. -/
def crcRound (word : BitVec 32) (crc : BitVec 32) (i : Nat) : BitVec 32 :=
  let crc := if crc &&& 0x80000000#32 ≠ 0#32 then crc <<< 1 ^^^ crcPolynomial else crc <<< 1
  if word &&& (0x80000000#32 >>> i) ≠ 0#32 then crc ^^^ crcPolynomial else crc

def crcWord (crc word : BitVec 32) : BitVec 32 := (List.range 32).foldl (crcRound word) crc

/-- `lowcmd_crc`. -/
def lowcmdCrc (cmd : LowCmd) : BitVec 32 := cmd.words.foldl crcWord 0xFFFFFFFF#32

/-! ### The output -/

/-- The motors with the commands of some slots set, one after the other. -/
def setMotors (command : Nat → Nat → ℚ → MotorCmd) (targets : List (Nat × ℚ)) (motors : List MotorCmd) : List MotorCmd :=
  targets.zipIdx.foldl (fun motors t => motors.set t.1.1 (command t.2 t.1.1 t.1.2)) motors

def gainAt (gains : List Gain) (i : Nat) : ℚ := (gains[i]?).elim 0 Subtype.val

def armMotor (config : MotorConfig) (offset _index : Nat) (q : ℚ) : MotorCmd :=
  { mode := 1, q, kp := gainAt config.armKp offset, kd := gainAt config.armKd offset }

def handMotor (config : MotorConfig) (base : Nat) (_offset index : Nat) (q : ℚ) : MotorCmd :=
  { mode := index ||| 0x10 ||| (if config.handTimeoutEnabled then 0x80 else 0), q
    kp := gainAt config.handKp (base + index), kd := gainAt config.handKd (base + index) }

/-- `publish`: the messages of a target, given the measured positions. -/
def publish (config : MotorConfig) (target measured : List ℚ) : Except String Command :=
  if target.length ≠ 28 ∨ measured.length ≠ 28 then .error "invalid command or measured state"
  else
    let target := clipRow config.limits (target.map float32)
    if (List.zipWith (fun t m => |float32 (t - float32 m)|) target measured).any (single config.maxTrackingError < ·) then
      .error "target exceeds measured tracking-error bound"
    else do
      let (armTargets, leftTargets, rightTargets) ← splitAction target
      let arm : LowCmd := {
        modeMachine := config.armModeMachine
        motorCmd := setMotors (armMotor config) armTargets (List.replicate 35 {}) }
      return ⟨{ arm with crc := lowcmdCrc arm },
        setMotors (handMotor config 0) leftTargets (List.replicate 7 {}),
        setMotors (handMotor config 7) rightTargets (List.replicate 7 {})⟩

end HumanoidLab.FluxDex3
