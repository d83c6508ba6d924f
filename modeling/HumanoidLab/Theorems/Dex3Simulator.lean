import HumanoidLab.Theorems.Dex3Checksum
import HumanoidLab.Theorems.FluxClamping

/-! A target of the Dex3 node reaches the joints of the simulator: what the node publishes, the Flux provider applies to the joint of each
    number of the target, at the gains of the node and within the pinned range of the joint. -/

namespace HumanoidLab.FluxDex3
open Psi0Dex3 (float32 float64)
open Fallible Rounding

/-! ### What is published -/

/-- The target that is sent: within the limits, in float32s. -/
def sentTarget (motors : MotorConfig) (target : List ℚ) : List ℚ := clipRow motors.limits (target.map float32)

/-- What is at the joint of a number of the target, of the values of the body and of the two hands. -/
def actionAt {A : Type} (body left right : List A) (i : Nat) : Option A :=
  if i < 14 then body[15 + i]? else if i < 21 then left[i - 14]? else right[i - 21]?

/-- Slots that stand one after the other are set in their order. -/
theorem setMotors_at (command : Nat → Nat → ℚ → MotorCmd) (base : Nat) (values : List ℚ) (motors : List MotorCmd)
    (h : base + values.length ≤ motors.length) (i : Nat) :
    (setMotors command ((List.range' base values.length).zip values) motors)[i]? =
      if base ≤ i ∧ i < base + values.length then values[i - base]?.map (command (i - base) i) else motors[i]? := by
  have hfrom : ∀ (k : Nat) (base : Nat) (values : List ℚ) (motors : List MotorCmd), base + values.length ≤ motors.length →
      ((((List.range' base values.length).zip values).zipIdx k).foldl
        (fun motors t => motors.set t.1.1 (command t.2 t.1.1 t.1.2)) motors)[i]? =
        if base ≤ i ∧ i < base + values.length then values[i - base]?.map (command (k + (i - base)) i) else motors[i]? := by
    intro k base values
    induction values generalizing k base with
    | nil =>
      intro motors _
      rw [if_neg (by simp only [List.length_nil]; omega)]
      rfl
    | cons x values ih =>
      intro motors hlength
      rw [List.length_cons] at hlength ⊢
      rw [List.range'_succ, List.zip_cons_cons, List.zipIdx_cons, List.foldl_cons, ih _ _ _ (by rw [List.length_set]; omega)]
      by_cases hat : i = base
      · subst hat
        rw [if_neg (by omega), if_pos (by omega), Nat.sub_self, List.getElem?_set_self (show i < motors.length by omega)]
        rfl
      · by_cases hin : base + 1 ≤ i ∧ i < base + 1 + values.length
        · rw [if_pos hin, if_pos (by omega), show i - base = i - (base + 1) + 1 by omega, List.getElem?_cons_succ,
            show k + 1 + (i - (base + 1)) = k + (i - (base + 1) + 1) by omega]
        · rw [if_neg hin, if_neg (by omega), List.getElem?_set_ne (show base ≠ i from Ne.symm hat)]
  have hall := hfrom 0 base values motors h
  rw [Nat.zero_add] at hall
  exact hall

theorem publish_ok {motors : MotorConfig} {target measured : List ℚ} {command : Command}
    (h : publish motors target measured = .ok command) :
    target.length = 28 ∧ measured.length = 28 ∧
      (∀ d ∈ List.zipWith (fun t m => |float32 (t - float32 m)|) (sentTarget motors target) measured, d ≤ single motors.maxTrackingError) ∧
      command.arm.motorCmd = setMotors (armMotor motors) (armMotors.zip ((sentTarget motors target).take 14)) (List.replicate 35 {}) ∧
      command.left = setMotors (handMotor motors 0) (handMotors.zip (((sentTarget motors target).drop 14).take 7)) (List.replicate 7 {}) ∧
      command.right = setMotors (handMotor motors 7) (handMotors.zip ((sentTarget motors target).drop 21)) (List.replicate 7 {}) := by
  unfold publish at h
  split at h
  · cases h
  next hlengths =>
  rw [not_or, not_not, not_not] at hlengths
  simp only at h
  split at h
  · cases h
  next htracked =>
  obtain ⟨⟨arms, left, right⟩, hsplit, h⟩ := bind_ok h
  unfold splitAction at hsplit
  split at hsplit
  · cases hsplit
  cases hsplit
  cases h
  refine ⟨hlengths.1, hlengths.2, fun d hd => ?_, rfl, rfl, rfl⟩
  exact not_lt.mp fun hless => htracked (List.any_eq_true.mpr ⟨d, hd, decide_eq_true hless⟩)

theorem sentTarget_length (motors : MotorConfig) {target : List ℚ} (h : target.length = 28) : (sentTarget motors target).length = 28 :=
  clipRow_length (by rw [MotorConfig.limits, List.length_map, motors.limits_length]) (by rw [List.length_map, h])

/-- The motor command of each number of a target. -/
structure MotorOf (motors : MotorConfig) (i : Nat) (x : ℚ) (m : MotorCmd) : Prop where
  position : m.q = x
  still : m.dq = 0 ∧ m.tau = 0
  gains : m.kp = gainAt (motors.armKp ++ motors.handKp) i ∧ m.kd = gainAt (motors.armKd ++ motors.handKd) i

theorem gainAt_left {gains gains' : List Gain} {i : Nat} (h : i < gains.length) : gainAt (gains ++ gains') i = gainAt gains i := by
  rw [gainAt, gainAt, List.getElem?_append_left h]

theorem gainAt_right {gains gains' : List Gain} {i : Nat} (h : gains.length ≤ i) :
    gainAt (gains ++ gains') i = gainAt gains' (i - gains.length) := by
  rw [gainAt, gainAt, List.getElem?_append_right h]

theorem published_at {motors : MotorConfig} {target measured : List ℚ} {command : Command}
    (h : publish motors target measured = .ok command) {i : Nat} (hi : i < 28) :
    ∃ x m, (sentTarget motors target)[i]? = some x ∧ actionAt command.arm.motorCmd command.left command.right i = some m ∧
      MotorOf motors i x m := by
  obtain ⟨htarget, -, -, harm, hleft, hright⟩ := publish_ok h
  have hlength := sentTarget_length motors htarget
  obtain ⟨x, hx⟩ : ∃ x, (sentTarget motors target)[i]? = some x := ⟨_, List.getElem?_eq_getElem (hlength ▸ hi)⟩
  have hkp := motors.armKp_length
  have hkd := motors.armKd_length
  refine ⟨x, ?_⟩
  unfold actionAt
  by_cases harms : i < 14
  · have hvalues : ((sentTarget motors target).take 14).length = 14 := by rw [List.length_take, hlength]; rfl
    have hset := setMotors_at (armMotor motors) 15 ((sentTarget motors target).take 14)
      (List.replicate 35 {}) (by rw [hvalues, List.length_replicate]; omega) (15 + i)
    rw [hvalues, if_pos (by omega), Nat.add_sub_cancel_left, List.getElem?_take_of_lt harms, hx, Option.map_some] at hset
    refine ⟨armMotor motors i (15 + i) x, hx, ?_, rfl, ⟨rfl, rfl⟩, ?_, ?_⟩
    · rw [if_pos harms, harm]
      exact hset
    · rw [gainAt_left (by omega)]
      rfl
    · rw [gainAt_left (by omega)]
      rfl
  · by_cases hlefts : i < 21
    · have hvalues : (((sentTarget motors target).drop 14).take 7).length = 7 := by rw [List.length_take, List.length_drop, hlength]; rfl
      have hset := setMotors_at (handMotor motors 0) 0 (((sentTarget motors target).drop 14).take 7)
        (List.replicate 7 {}) (by rw [hvalues, List.length_replicate]) (i - 14)
      rw [hvalues, if_pos (by omega), Nat.sub_zero, List.getElem?_take_of_lt (by omega), List.getElem?_drop,
        show 14 + (i - 14) = i by omega, hx, Option.map_some] at hset
      refine ⟨handMotor motors 0 (i - 14) (i - 14) x, hx, ?_, rfl, ⟨rfl, rfl⟩, ?_, ?_⟩
      · rw [if_neg harms, if_pos hlefts, hleft, handMotors, List.range_eq_range']
        exact hset
      · show gainAt motors.handKp (0 + (i - 14)) = _
        rw [Nat.zero_add, gainAt_right (by omega), hkp]
      · show gainAt motors.handKd (0 + (i - 14)) = _
        rw [Nat.zero_add, gainAt_right (by omega), hkd]
    · have hvalues : ((sentTarget motors target).drop 21).length = 7 := by rw [List.length_drop, hlength]
      have hset := setMotors_at (handMotor motors 7) 0 ((sentTarget motors target).drop 21)
        (List.replicate 7 {}) (by rw [hvalues, List.length_replicate]) (i - 21)
      rw [hvalues, if_pos (by omega), Nat.sub_zero, List.getElem?_drop, show 21 + (i - 21) = i by omega, hx, Option.map_some] at hset
      refine ⟨handMotor motors 7 (i - 21) (i - 21) x, hx, ?_, rfl, ⟨rfl, rfl⟩, ?_, ?_⟩
      · rw [if_neg harms, if_neg hlefts, hright, handMotors, List.range_eq_range']
        exact hset
      · rw [gainAt_right (by omega), hkp, show i - 14 = 7 + (i - 21) by omega]
        rfl
      · rw [gainAt_right (by omega), hkd, show i - 14 = 7 + (i - 21) by omega]
        rfl

/-- What is sent is a float32 within the limits. -/
theorem sent_within {motors : MotorConfig} {target : List ℚ} {i : Nat} {x : ℚ} (h : (sentTarget motors target)[i]? = some x) :
    float32 x = x ∧ ∃ r, motors.limits[i]? = some r ∧ single r.1 ≤ x ∧ x ≤ single r.2 := by
  obtain ⟨y, r, hy, hr, rfl⟩ := List.getElem?_zipWith_eq_some.mp h
  have hround : ∀ z, float32 (float32 z) = float32 z := roundBinary_roundBinary (by decide)
  have hordered : single r.1 ≤ single r.2 := by
    obtain ⟨range, -, rfl⟩ := List.mem_map.mp (List.mem_of_getElem? hr)
    exact roundBinary_mono (by decide) (roundBinary_mono (by decide) range.2.le)
  refine ⟨?_, r, hr, le_min (le_max_right _ _) hordered, min_le_right _ _⟩
  rw [List.getElem?_map, Option.map_eq_some_iff] at hy
  obtain ⟨z, -, rfl⟩ := hy
  rcases min_choice (max (float32 z) (single r.1)) (single r.2) with hmin | hmin <;> rw [hmin]
  · rcases max_choice (float32 z) (single r.1) with hmax | hmax <;> rw [hmax]
    · exact hround z
    · exact hround _
  · exact hround _

/-! ### What the simulator applies -/

/-- A slot as a subscriber reads it. -/
def MotorCmd.wire (m : MotorCmd) : Motor ℚ :=
  ⟨.fin (float32 m.q), .fin (float32 m.dq), .fin (float32 m.tau), .fin (float32 m.kp), .fin (float32 m.kd)⟩

def Command.hand (command : Command) : Side → List MotorCmd
  | .left => command.left
  | .right => command.right

theorem wire_finite (m : MotorCmd) : m.wire.Finite := by
  refine ⟨?_, ?_, ?_, ?_, ?_⟩ <;> exact fun h => by cases h

variable {pi : ℚ} {pinned : List (String × ℚ × ℚ)} {config : FluxConfig ℚ} {joints : List (PinnedEntry ℚ)} {ttlTicks : Nat} {gapTicks : Int}

/-- A position is applied within the pinned range of its joint. -/
theorem clamped_at {names : List String} {requested applied : List ℚ} {clipped : List (Clip ℚ)}
    (h : Clamped pinned names requested applied clipped) {i : Nat} {name : String} {x : ℚ} (hname : names[i]? = some name)
    (hrequested : requested[i]? = some x) : ∃ l, pinned.lookup name = some l ∧ applied[i]? = some (clamp x l) := by
  obtain ⟨hi, -⟩ := List.getElem?_eq_some_iff.mp hname
  obtain ⟨l, hl, -⟩ := h.within i name _ hname (List.getElem?_eq_getElem (h.length.2 ▸ hi))
  exact ⟨l, hl, h.moved i name l x hname hl hrequested⟩

theorem fin_inj {o : Option ℚ} {x : ℚ} (h : o.map Value.fin = some (.fin x)) : o = some x := by
  obtain ⟨y, hy, hfin⟩ := Option.map_eq_some_iff.mp h
  rw [hy, Value.fin.inj hfin]

/-- A joint of the simulator is driven as the motor of a number of the target. -/
structure Driven (motors : MotorConfig) (i : Nat) (x : ℚ) (q dq tau kp kd : Option ℚ) : Prop where
  position : q = some x
  still : dq = some 0 ∧ tau = some 0
  gains : kp = some (float32 (gainAt (motors.armKp ++ motors.handKp) i)) ∧ kd = some (float32 (gainAt (motors.armKd ++ motors.handKd) i))

theorem driven_of_wire {motors : MotorConfig} {i : Nat} {x y : ℚ} {m : MotorCmd} (hmotor : MotorOf motors i x m)
    {q dq tau kp kd : Option ℚ} (hq : q = some y) (hdq : dq.map .fin = some m.wire.dq) (htau : tau.map .fin = some m.wire.tau)
    (hkp : kp.map .fin = some m.wire.kp) (hkd : kd.map .fin = some m.wire.kd) : Driven motors i y q dq tau kp kd where
  position := hq
  still := by
    have hzero : float32 0 = 0 := roundBinary_zero
    refine ⟨(fin_inj hdq).trans ?_, (fin_inj htau).trans ?_⟩
    · rw [hmotor.still.1, hzero]
    · rw [hmotor.still.2, hzero]
  gains := ⟨hmotor.gains.1 ▸ fin_inj hkp, hmotor.gains.2 ▸ fin_inj hkd⟩

theorem body_driven {motors : MotorConfig} {i : Nat} {x : ℚ} {m : MotorCmd} {message : Message ℚ} {c : JointCommand ℚ}
    {clipped : List (Clip ℚ)} (hbody : FluxBody pi pinned message c clipped) (hi : i < 14) (hmessage : message[15 + i]? = some m.wire)
    (hmotor : MotorOf motors i x m) (hx : float32 x = x) :
    ∃ name l, bodyJointOrder[15 + i]? = some name ∧ pinned.lookup name = some l ∧
      Driven motors i (clamp x l) c.q[15 + i]? c.dq[15 + i]? c.tau[15 + i]? c.kp[15 + i]? c.kd[15 + i]? := by
  have hslot : 15 + i < bodyJointOrder.length := by
    show 15 + i < 29
    omega
  have harm : isArmSlot (15 + i) = true := by
    simp only [isArmSlot, Bool.and_eq_true, decide_eq_true_eq]
    omega
  obtain ⟨requested, hclamped, hrequested⟩ := hbody.positions
  have hasked := hrequested (15 + i) hslot
  rw [if_pos harm, hmessage, Option.map_some] at hasked
  have hasked : requested[15 + i]? = some x := (fin_inj hasked).trans (by rw [hmotor.position, hx])
  obtain ⟨motor, hm, hdq, htau, hkp, hkd⟩ := hbody.arms (15 + i) harm
  obtain rfl := Option.some.inj (hmessage.symm.trans hm)
  have hname := List.getElem?_eq_getElem hslot
  obtain ⟨l, hl, happlied⟩ := clamped_at hclamped hname hasked
  exact ⟨_, l, hname, hl, driven_of_wire hmotor happlied hdq htau hkp hkd⟩

theorem hand_driven {motors : MotorConfig} {i n : Nat} {x : ℚ} {m : MotorCmd} {side : Side} {message : Message ℚ} {c : JointCommand ℚ}
    {clipped : List (Clip ℚ)} (hhand : FluxHand pinned side message c clipped) (hn : n < 7) (hmessage : message[n]? = some m.wire)
    (hmotor : MotorOf motors i x m) (hx : float32 x = x) :
    ∃ name l, (handJointNames side)[n]? = some name ∧ pinned.lookup name = some l ∧
      Driven motors i (clamp x l) c.q[n]? c.dq[n]? c.tau[n]? c.kp[n]? c.kd[n]? := by
  have hslot : n < (handJointNames side).length := by cases side <;> exact hn
  have hfield : ∀ {values : List ℚ} {field : Motor ℚ → Value ℚ}, values.map .fin = message.map field →
      values[n]?.map .fin = some (field m.wire) := by
    intro values field h
    rw [← List.getElem?_map, h, List.getElem?_map, hmessage, Option.map_some]
  obtain ⟨requested, hclamped, hrequested⟩ := hhand.positions
  have hasked : requested[n]? = some x := (fin_inj (hfield hrequested)).trans (by rw [hmotor.position, hx])
  obtain ⟨hdq, htau, hkp, hkd⟩ := hhand.others
  have hname := List.getElem?_eq_getElem hslot
  obtain ⟨l, hl, happlied⟩ := clamped_at hclamped hname hasked
  exact ⟨_, l, hname, hl, driven_of_wire hmotor happlied (hfield hdq) (hfield htau) (hfield hkp) (hfield hkd)⟩

theorem setMotors_length (command : Nat → Nat → ℚ → MotorCmd) (targets : List (Nat × ℚ)) (motors : List MotorCmd) :
    (setMotors command targets motors).length = motors.length := by
  have hfold : ∀ (targets : List ((Nat × ℚ) × Nat)) (motors : List MotorCmd),
      (targets.foldl (fun motors t => motors.set t.1.1 (command t.2 t.1.1 t.1.2)) motors).length = motors.length := by
    intro targets
    induction targets with
    | nil => exact fun _ => rfl
    | cons t targets ih => exact fun motors => (ih _).trans List.length_set
  exact hfold _ _

theorem published_lengths {motors : MotorConfig} {target measured : List ℚ} {command : Command}
    (h : publish motors target measured = .ok command) : command.arm.motorCmd.length = 35 ∧ ∀ side, (command.hand side).length = 7 := by
  obtain ⟨-, -, -, harm, hleft, hright⟩ := publish_ok h
  refine ⟨by rw [harm, setMotors_length, List.length_replicate], fun side => ?_⟩
  cases side with
  | left => rw [Command.hand, hleft, setMotors_length, List.length_replicate]
  | right => rw [Command.hand, hright, setMotors_length, List.length_replicate]

/-- What a subscriber reads of a published command. -/
def Command.taken (command : Command) (episode tick : Nat) : Taken ℚ := ⟨command.arm.motorCmd.map MotorCmd.wire, episode, tick⟩

def Command.takenHand (command : Command) (episode tick : Nat) (side : Side) : Option (Taken ℚ) :=
  some ⟨(command.hand side).map MotorCmd.wire, episode, tick⟩

/-- The joint of a number of the target. -/
def jointAt (i : Nat) : Option String := actionAt bodyJointOrder (handJointNames .left) (handJointNames .right) i

/-- What the node sends is what the joints of the simulator are driven to, with the gains of the node: each number of it at its joint,
    within the bound to the measured position, and moved into the pinned range of the joint. It is not moved where the limits of the
    node, in float32s, lie within that range. -/
theorem simulator_applies {motors : MotorConfig} {target measured : List ℚ} {command : Command}
    (hpublished : publish motors target measured = .ok command) (hpinned : pinnedPositionLimits joints = .ok pinned)
    (hconfig : fluxConfig pi joints ttlTicks gapTicks = .ok config)
    (stampedEpisode stampedTick episode sequence : Nat) (receivedTick : Int) :
    ∃ c left right clipped, (fluxDds config).buildCommand (command.taken stampedEpisode stampedTick)
        (command.takenHand stampedEpisode stampedTick) episode sequence receivedTick = .ok (c, clipped) ∧
      c.leftHand = some left ∧ c.rightHand = some right ∧
      ∀ i < 28, ∃ x m name l, (sentTarget motors target)[i]? = some x ∧ measured[i]? = some m ∧
        |float32 (x - float32 m)| ≤ single motors.maxTrackingError ∧ jointAt i = some name ∧ pinned.lookup name = some l ∧
        Driven motors i (clamp x l) (actionAt c.body.q left.q right.q i) (actionAt c.body.dq left.dq right.dq i)
          (actionAt c.body.tau left.tau right.tau i) (actionAt c.body.kp left.kp right.kp i) (actionAt c.body.kd left.kd right.kd i) ∧
        ((∀ r, motors.limits[i]? = some r → l.1 ≤ single r.1 ∧ single r.2 ≤ l.2) → clamp x l = x) := by
  obtain ⟨hslots, hhands⟩ := published_lengths hpublished
  have harms : Reads ((fluxDds config).bodyVectors (command.taken stampedEpisode stampedTick).message) (fluxDds config).bodyNames := by
    refine (flux_body_reads_iff hpinned hconfig (by rw [Command.taken, List.length_map, hslots]; rfl)).mpr fun slot motor _ hm => ?_
    obtain ⟨m, -, rfl⟩ := List.mem_map.mp (List.mem_of_getElem? hm)
    exact wire_finite m
  have hsound : ∀ side h, command.takenHand stampedEpisode stampedTick side = some h →
      Reads ((fluxDds config).handVectors side h.message) ((fluxDds config).handNames side) := by
    intro side h hh
    obtain rfl := Option.some.inj hh
    refine (flux_hand_reads_iff hpinned hconfig side).mpr ⟨by rw [List.length_map, hhands side]; rfl, fun motor hm => ?_⟩
    obtain ⟨m, -, rfl⟩ := List.mem_map.mp hm
    exact wire_finite m
  obtain ⟨⟨c, clipped⟩, hbuild⟩ := (buildCommand_ok_iff (command.takenHand stampedEpisode stampedTick) episode sequence receivedTick).mpr
    ⟨harms, hsound⟩
  obtain ⟨bodyClips, leftClips, rightClips, -, hbody, hleft, hright⟩ := buildCommand_applied hpinned hconfig hbuild
  obtain ⟨left, hl⟩ : ∃ left, c.leftHand = some left := by
    cases hl : c.leftHand with
    | none =>
      rw [hl] at hleft
      exact hleft.elim
    | some left => exact ⟨left, rfl⟩
  obtain ⟨right, hr⟩ : ∃ right, c.rightHand = some right := by
    cases hr : c.rightHand with
    | none =>
      rw [hr] at hright
      exact hright.elim
    | some right => exact ⟨right, rfl⟩
  rw [hl] at hleft
  rw [hr] at hright
  refine ⟨c, left, right, clipped, hbuild, hl, hr, fun i hi => ?_⟩
  obtain ⟨x, m, hx, hm, hmotor⟩ := published_at hpublished hi
  obtain ⟨-, hmeasured, htracked, -⟩ := publish_ok hpublished
  obtain ⟨hround, r, hlimit, hlower, hupper⟩ := sent_within hx
  have hmeasure : measured[i]? = some measured[i] := List.getElem?_eq_getElem (hmeasured ▸ hi)
  have hbound := htracked _ (List.mem_of_getElem? (List.getElem?_zipWith_eq_some.mpr ⟨x, _, hx, hmeasure, rfl⟩))
  suffices hdriven : ∃ name l, jointAt i = some name ∧ pinned.lookup name = some l ∧
      Driven motors i (clamp x l) (actionAt c.body.q left.q right.q i) (actionAt c.body.dq left.dq right.dq i)
        (actionAt c.body.tau left.tau right.tau i) (actionAt c.body.kp left.kp right.kp i) (actionAt c.body.kd left.kd right.kd i) by
    obtain ⟨name, l, hname, hl, hjoint⟩ := hdriven
    refine ⟨x, _, name, l, hx, hmeasure, hbound, hname, hl, hjoint, fun hwithin => ?_⟩
    obtain ⟨hlow, hhigh⟩ := hwithin r hlimit
    rw [clamp, max_eq_left (hlow.trans hlower), min_eq_left (hupper.trans hhigh)]
  unfold jointAt actionAt at *
  by_cases harm : i < 14
  · simp only [if_pos harm] at hm ⊢
    refine body_driven hbody harm ?_ hmotor hround
    rw [Command.taken, List.getElem?_map, hm, Option.map_some]
  · simp only [if_neg harm] at hm ⊢
    by_cases hside : i < 21
    · simp only [if_pos hside] at hm ⊢
      refine hand_driven hleft (by omega) ?_ hmotor hround
      rw [List.getElem?_map, Command.hand, hm, Option.map_some]
    · simp only [if_neg hside] at hm ⊢
      refine hand_driven hright (by omega) ?_ hmotor hround
      rw [List.getElem?_map, Command.hand, hm, Option.map_some]

/-- Another position for each joint. -/
def risingTarget : List ℚ := (List.range 28).map fun (i : Nat) => ((i : ℚ) + 1) / 32

theorem risingTarget_at {i : Nat} (hi : i < 28) : risingTarget[i]? = some (((i : ℚ) + 1) / 32) := by
  rw [risingTarget, List.getElem?_map, List.getElem?_range hi]
  rfl

/-- With limits of one radian on both sides the positions arrive, each at its joint. -/
theorem simulator_applies_rising : ∃ command config, publish unitMotors risingTarget (List.replicate 28 0) = .ok command ∧
    fluxConfig (22 / 7 : ℚ) unitJoints 2 1000 = .ok config ∧
    ∃ c left right clipped, (fluxDds config).buildCommand (command.taken 0 0) (command.takenHand 0 0) 0 0 0 = .ok (c, clipped) ∧
      c.leftHand = some left ∧ c.rightHand = some right ∧ ∀ i < 28, actionAt c.body.q left.q right.q i = some (((i : ℚ) + 1) / 32) := by
  cases hpublished : publish unitMotors risingTarget (List.replicate 28 0) with
  | error e =>
    have hok : (publish unitMotors risingTarget (List.replicate 28 0)).toOption.isSome = true := by decide +kernel
    rw [hpublished] at hok
    cases hok
  | ok command =>
    refine ⟨command, _, rfl, rfl, ?_⟩
    obtain ⟨c, left, right, clipped, hbuild, hleft, hright, hdriven⟩ :=
      simulator_applies hpublished (show pinnedPositionLimits unitJoints = .ok unitPinned from rfl) rfl 0 0 0 0 0
    refine ⟨c, left, right, clipped, hbuild, hleft, hright, fun i hi => ?_⟩
    obtain ⟨x, -, name, l, hx, -, -, -, hl, hjoint, hstays⟩ := hdriven i hi
    have hsent : sentTarget unitMotors risingTarget = risingTarget := by decide +kernel
    rw [hsent, risingTarget_at hi] at hx
    obtain ⟨before, after, hsplit, -⟩ := List.lookup_eq_some_iff.mp hl
    obtain ⟨entry, -, hentry⟩ := List.mem_map.mp (show (name, l) ∈ unitPinned by rw [hsplit]; simp)
    obtain rfl : (-1, 1) = l := (Prod.mk.inj hentry).2
    have hwithin : ∀ r, unitMotors.limits[i]? = some r → (-1 : ℚ) ≤ single r.1 ∧ single r.2 ≤ 1 := by
      intro r hr
      have hlimits : unitMotors.limits = List.replicate 28 (-1, 1) := rfl
      rw [hlimits] at hr
      obtain rfl := List.eq_of_mem_replicate (List.mem_of_getElem? hr)
      decide +kernel
    rw [hjoint.position, hstays hwithin, ← Option.some.inj hx]

end HumanoidLab.FluxDex3
