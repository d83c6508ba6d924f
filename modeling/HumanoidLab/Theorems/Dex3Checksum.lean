import HumanoidLab.FluxDex3.CommandOutput

/-! The checksum of the arm commands is a cyclic redundancy check of the bits of their words, the top bit of a word first. So a message that
    differs from the published one within 32 consecutive bits, as within a single word, has another checksum. -/

namespace HumanoidLab.FluxDex3
open Crc

/-- The mask of a round selects a bit, counted from the top. -/
theorem and_mask {word : BitVec 32} {i : Nat} (hi : i < 32) : word &&& (0x80000000#32 >>> i) ≠ 0#32 ↔ word.getMsbD i = true := by
  have hmask : ∀ i < 32, 0x80000000#32 >>> i = BitVec.twoPow 32 (31 - i) ∧ BitVec.twoPow 32 (31 - i) ≠ 0#32 := by decide
  obtain ⟨hpow, hnonzero⟩ := hmask i hi
  rw [hpow, BitVec.and_twoPow, BitVec.getMsbD_eq_getLsbD, decide_eq_true hi, Bool.true_and]
  split_ifs with hbit
  · exact iff_of_true hnonzero hbit
  · exact iff_of_false (fun h => h rfl) hbit

theorem crcRound_eq {word crc : BitVec 32} {i : Nat} (hi : i < 32) :
    crcRound word crc i = step crcPolynomial crc (word.getMsbD i) := by
  have htop : crc &&& 0x80000000#32 ≠ 0#32 ↔ crc.msb = true := and_mask (by decide : 0 < 32)
  have hshift : (if crc &&& 0x80000000#32 ≠ 0#32 then crc <<< 1 ^^^ crcPolynomial else crc <<< 1) = shift crcPolynomial crc := by
    unfold shift
    exact if_congr htop rfl rfl
  unfold crcRound step
  simp only [hshift]
  exact if_congr (and_mask hi) rfl rfl

theorem crcWord_eq (crc word : BitVec 32) : crcWord crc word = feed crcPolynomial crc (bitsOf word) := by
  have hrounds : ∀ (rounds : List Nat) (crc : BitVec 32), (∀ i ∈ rounds, i < 32) →
      rounds.foldl (crcRound word) crc = feed crcPolynomial crc (rounds.map word.getMsbD) := by
    intro rounds
    induction rounds with
    | nil => exact fun _ _ => rfl
    | cons i rounds ih =>
      intro crc hrounds
      rw [List.foldl_cons, List.map_cons, feed_cons, crcRound_eq (hrounds i List.mem_cons_self)]
      exact ih _ fun k hk => hrounds k (List.mem_cons_of_mem _ hk)
  exact hrounds _ crc fun i hi => List.mem_range.mp hi

/-- The bits that the checksum covers, in its order. -/
def LowCmd.bits (cmd : LowCmd) : List Bool := cmd.words.flatMap bitsOf

/-- The bits before those of the reserved words. -/
def LowCmd.front (cmd : LowCmd) : List Bool :=
  (BitVec.ofNat 32 (cmd.modePr + 256 * cmd.modeMachine) :: cmd.motorCmd.flatMap MotorCmd.words).flatMap bitsOf

theorem LowCmd.bits_eq (cmd : LowCmd) : cmd.bits = cmd.front ++ (cmd.reserve.map (BitVec.ofNat 32)).flatMap bitsOf := List.flatMap_append

theorem lowcmdCrc_eq (cmd : LowCmd) : lowcmdCrc cmd = feed crcPolynomial 0xFFFFFFFF#32 cmd.bits := by
  have hwords : ∀ (words : List (BitVec 32)) (crc : BitVec 32),
      words.foldl crcWord crc = feed crcPolynomial crc (words.flatMap bitsOf) := by
    intro words
    induction words with
    | nil => exact fun _ => rfl
    | cons word words ih =>
      intro crc
      rw [List.foldl_cons, List.flatMap_cons, feed_append, crcWord_eq]
      exact ih _
  exact hwords _ _

theorem publish_crc {config : MotorConfig} {target measured : List ℚ} {command : Command}
    (h : publish config target measured = .ok command) :
    command.arm.crc = lowcmdCrc command.arm ∧ command.arm.reserve = List.replicate 4 0 := by
  unfold publish at h
  split at h
  · cases h
  simp only at h
  split at h
  · cases h
  obtain ⟨_, _, h⟩ := Fallible.bind_ok h
  cases h
  exact ⟨rfl, rfl⟩

/-- A receiver that recomputes the checksum of a published arm command accepts no other message that differs from it within 32 consecutive
    bits at most. -/
theorem checksum_detects (config : MotorConfig) (target measured : List ℚ) (command : Command) (received : LowCmd)
    (front bits bits' back : List Bool) (hpublished : publish config target measured = .ok command) (hcrc : received.crc = command.arm.crc)
    (hsent : command.arm.bits = front ++ bits ++ back) (hreceived : received.bits = front ++ bits' ++ back)
    (hlength : bits.length = bits'.length) (hburst : bits.length ≤ 32) :
    lowcmdCrc received = received.crc ↔ received.bits = command.arm.bits := by
  rw [hcrc, (publish_crc hpublished).1, lowcmdCrc_eq, lowcmdCrc_eq, hsent, hreceived, eq_comm, feed_burst (by decide) hburst hlength,
    eq_comm]
  constructor
  · rintro rfl
    rfl
  · intro h
    exact List.append_cancel_left (List.append_cancel_right h)

/-- Limits of one radian, and gains of one. -/
def unitMotors : MotorConfig where
  jointLimits := List.replicate 28 ⟨(-1, 1), by norm_num⟩
  armKp := List.replicate 14 ⟨1, one_pos⟩
  armKd := List.replicate 14 ⟨1, one_pos⟩
  handKp := List.replicate 14 ⟨1, one_pos⟩
  handKd := List.replicate 14 ⟨1, one_pos⟩
  maxTrackingError := ⟨1, one_pos⟩
  handTimeoutEnabled := true
  armModeMachine := 5
  limits_length := List.length_replicate
  armKp_length := List.length_replicate
  armKd_length := List.length_replicate
  handKp_length := List.length_replicate
  handKd_length := List.length_replicate

/-- One bit of the reserved words is flipped on the way. -/
theorem checksum_detects_flip : ∃ command, publish unitMotors (List.replicate 28 0) (List.replicate 28 0) = .ok command ∧
    lowcmdCrc { command.arm with reserve := [1, 0, 0, 0] } ≠ command.arm.crc := by
  cases hpublished : publish unitMotors (List.replicate 28 0) (List.replicate 28 0) with
  | error e =>
    have hok : (publish unitMotors (List.replicate 28 0) (List.replicate 28 0)).toOption.isSome = true := by decide +kernel
    rw [hpublished] at hok
    cases hok
  | ok command =>
    refine ⟨command, rfl, fun hsame => ?_⟩
    have hsent : command.arm.bits = command.arm.front ++ bitsOf 0#32 ++ (List.replicate 3 0#32).flatMap bitsOf := by
      rw [command.arm.bits_eq, (publish_crc hpublished).2, List.append_assoc]
      rfl
    have hreceived : ({ command.arm with reserve := [1, 0, 0, 0] } : LowCmd).bits =
        command.arm.front ++ bitsOf 1#32 ++ (List.replicate 3 0#32).flatMap bitsOf := by
      rw [LowCmd.bits_eq, List.append_assoc]
      rfl
    have hequal := (checksum_detects unitMotors _ _ command { command.arm with reserve := [1, 0, 0, 0] } _ _ _ _ hpublished rfl hsent
      hreceived (by decide) (by decide)).mp hsame
    rw [hsent, hreceived, List.append_left_inj, List.append_right_inj] at hequal
    exact absurd hequal (by decide)

end HumanoidLab.FluxDex3
