import HumanoidLab.Controllers.Flux
import HumanoidLab.Theorems.MalformedCommands
import Mathlib.Algebra.Field.Rat

/-! What the Flux provider makes of the messages that it holds: it refuses them, or it applies positions within the pinned
    ranges, no torque on the legs, the gains of the deployment on the waist and the message on the arms, and it lists the
    positions that it has moved. -/

namespace HumanoidLab
open Fallible

variable {K : Type}

/-! ### Commands -/

theorem finite_eq {values : List (Value K)} {name : String} {xs : List K} (h : finite values name = .ok xs) :
    values = xs.map .fin := by
  induction values generalizing xs with
  | nil =>
    cases h
    rfl
  | cons v values ih =>
    simp only [finite, List.mapM_cons] at h
    obtain ⟨x, hx, h⟩ := bind_ok h
    obtain ⟨ys, hys, h⟩ := bind_ok h
    cases h
    cases v with
    | fin y =>
      cases hx
      rw [List.map_cons, ← ih hys]
    | nonFinite => cases hx

/-- The vectors that a command has been built of. -/
def JointCommand.vectors (c : JointCommand K) : Vectors K :=
  ⟨c.q.map .fin, c.dq.map .fin, c.tau.map .fin, c.kp.map .fin, c.kd.map .fin⟩

theorem build_ok {schema : String} {sequence : Nat} {names : List String} {v : Vectors K} {tick : Int} {c : JointCommand K}
    (h : JointCommand.build schema sequence names v tick = .ok c) : c.jointNames = names ∧ v = c.vectors := by
  unfold JointCommand.build at h
  split at h
  · cases h
  · obtain ⟨q, hq, h⟩ := bind_ok h
    obtain ⟨dq, hdq, h⟩ := bind_ok h
    obtain ⟨tau, htau, h⟩ := bind_ok h
    obtain ⟨kp, hkp, h⟩ := bind_ok h
    obtain ⟨kd, hkd, h⟩ := bind_ok h
    cases h
    obtain ⟨vq, vdq, vtau, vkp, vkd⟩ := v
    refine ⟨rfl, ?_⟩
    rw [JointCommand.vectors, ← finite_eq hq, ← finite_eq hdq, ← finite_eq htau, ← finite_eq hkp, ← finite_eq hkd]

/-! ### The pinned ranges -/

section
variable {names : List String} {pinned : List (String × K × K)} {limits : List (K × K)}

theorem mapM_some {α β : Type} {f : α → Option β} {as : List α} {bs : List β} (h : as.mapM f = some bs) :
    List.Forall₂ (fun a b => f a = some b) as bs := by
  induction as generalizing bs with
  | nil =>
    cases h
    exact .nil
  | cons a as ih =>
    rw [List.mapM_cons] at h
    obtain ⟨b, hb, h⟩ := Option.bind_eq_some_iff.mp h
    obtain ⟨bs', hbs, h⟩ := Option.bind_eq_some_iff.mp h
    cases h
    exact .cons hb (ih hbs)

/-- The ranges are those of the names, in order. -/
theorem limitsFor_ok (h : limitsFor names pinned = .ok limits) :
    List.Forall₂ (fun name l => pinned.lookup name = some l) names limits := by
  unfold limitsFor at h
  split at h
  · cases h
    exact mapM_some ‹_›
  · cases h

variable [LinearOrder K]

theorem range_ok {entry : PinnedEntry K} {e : String × K × K} (h : entry.range = .ok e) : e.2.1 < e.2.2 := by
  unfold PinnedEntry.range at h
  split at h
  · cases h
  · split at h
    · cases h
      assumption
    · cases h
  · cases h

theorem pinned_lt {joints : List (PinnedEntry K)} (h : pinnedPositionLimits joints = .ok pinned) :
    ∀ e ∈ pinned, e.2.1 < e.2.2 := by
  have hranges := mapM_ok h
  clear h
  induction hranges with
  | nil => simp
  | cons hentry _ ih => exact List.forall_mem_cons.mpr ⟨range_ok hentry, ih⟩

theorem lookup_lt (hpinned : ∀ e ∈ pinned, e.2.1 < e.2.2) {name : String} {l : K × K} (hl : pinned.lookup name = some l) :
    l.1 < l.2 := by
  obtain ⟨before, after, rfl, -⟩ := List.lookup_eq_some_iff.mp hl
  exact hpinned (name, l) (by simp)

/-! ### Clamping -/

/-- A position moved into its range. -/
def clamp (x : K) (l : K × K) : K := min (max x l.1) l.2

/-- The positions asked of joints, the ones that are applied, and the list of those that are moved: each is applied within the
    pinned range of its joint, a position within the range stays and another is moved to its nearer end, and the list has the others,
    in the order of the joints. -/
structure Clamped (pinned : List (String × K × K)) (names : List String) (requested applied : List K) (clipped : List (Clip K)) :
    Prop where
  length : requested.length = names.length ∧ applied.length = names.length
  within : ∀ (i : Nat) (name : String) (x : K), names[i]? = some name → applied[i]? = some x →
    ∃ l, pinned.lookup name = some l ∧ l.1 ≤ x ∧ x ≤ l.2
  kept : ∀ (i : Nat) (name : String) (l : K × K) (x : K), names[i]? = some name → pinned.lookup name = some l →
    requested[i]? = some x → l.1 ≤ x → x ≤ l.2 → applied[i]? = some x
  moved : ∀ (i : Nat) (name : String) (l : K × K) (x : K), names[i]? = some name → pinned.lookup name = some l →
    requested[i]? = some x → applied[i]? = some (clamp x l)
  listed : clipped = ((names.zip (requested.zip applied)).filter fun e => e.2.1 ≠ e.2.2).map fun e => ⟨e.1, e.2.1, e.2.2⟩

theorem clipPositions_ok {values q : List (Value K)} {clipped : List (Clip K)}
    (h : clipPositions values limits names = .ok (q, clipped)) : values.length = limits.length ∧ limits.length = names.length ∧
    q = List.zipWith clipValue values limits ∧
    clipped = (names.zip (values.zip limits)).filterMap fun e => clipEntry e.1 e.2.1 e.2.2 := by
  unfold clipPositions at h
  split at h
  · rename_i hlength
    cases h
    exact ⟨hlength.1, hlength.2, rfl, rfl⟩
  · cases h

theorem clipped_eq (requested : List K) :
    ((names.zip ((requested.map Value.fin).zip limits)).filterMap fun e => clipEntry e.1 e.2.1 e.2.2) =
      ((names.zip (requested.zip (List.zipWith clamp requested limits))).filter fun e => e.2.1 ≠ e.2.2).map
        fun e => ⟨e.1, e.2.1, e.2.2⟩ := by
  induction names generalizing requested limits with
  | nil => rfl
  | cons name names ih =>
    cases requested with
    | nil => rfl
    | cons x requested =>
      cases limits with
      | nil => rfl
      | cons l limits =>
        simp only [List.map_cons, List.zip_cons_cons, List.zipWith_cons_cons, List.filterMap_cons, List.filter_cons, ih]
        by_cases hx : clamp x l = x
        · have hentry : clipEntry name (.fin x) l = none := if_pos hx
          simp [hentry, hx]
        · have hentry : clipEntry name (.fin x) l = some ⟨name, x, clamp x l⟩ := if_neg hx
          simp [hentry, Ne.symm hx]

/-- Clipped positions are finite only when they were. -/
theorem requested_of_clipped {values : List (Value K)} {applied : List K} (hlength : values.length = limits.length)
    (h : List.zipWith clipValue values limits = applied.map .fin) :
    ∃ requested, values = requested.map .fin ∧ applied = List.zipWith clamp requested limits := by
  induction values generalizing limits applied with
  | nil =>
    obtain rfl : applied = [] := by simpa using h
    exact ⟨[], rfl, rfl⟩
  | cons v values ih =>
    cases limits with
    | nil => cases hlength
    | cons l limits =>
      cases applied with
      | nil => cases h
      | cons y applied =>
        rw [List.zipWith_cons_cons, List.map_cons, List.cons.injEq] at h
        obtain ⟨requested, rfl, rfl⟩ := ih (Nat.succ.inj hlength) h.2
        cases v with
        | nonFinite => cases h.1
        | fin x => exact ⟨x :: requested, rfl, congrArg (· :: _) (Value.fin.inj h.1).symm⟩

omit [LinearOrder K] in
theorem limit_at (h : List.Forall₂ (fun name l => pinned.lookup name = some l) names limits) {i : Nat} {name : String}
    (hname : names[i]? = some name) : ∃ l, limits[i]? = some l ∧ pinned.lookup name = some l := by
  obtain ⟨hi, rfl⟩ := List.getElem?_eq_some_iff.mp hname
  have hj : i < limits.length := by rwa [← h.length_eq]
  exact ⟨limits[i], List.getElem?_eq_getElem hj, h.get hi hj⟩

/-- The positions that a command is built of, once they are clipped. -/
theorem clamped (hpinned : ∀ e ∈ pinned, e.2.1 < e.2.2) (hlimits : limitsFor names pinned = .ok limits)
    {values : List (Value K)} {applied : List K} {clipped : List (Clip K)}
    (h : clipPositions values limits names = .ok (applied.map .fin, clipped)) :
    ∃ requested, values = requested.map .fin ∧ Clamped pinned names requested applied clipped := by
  obtain ⟨hvalues, hnames, happlied, hclipped⟩ := clipPositions_ok h
  obtain ⟨requested, rfl, rfl⟩ := requested_of_clipped hvalues happlied.symm
  have hranges := limitsFor_ok hlimits
  rw [List.length_map] at hvalues
  have hmoved : ∀ (i : Nat) (name : String) (l : K × K) (x : K), names[i]? = some name → pinned.lookup name = some l →
      requested[i]? = some x → (List.zipWith clamp requested limits)[i]? = some (clamp x l) := by
    intro i name l x hname hl hx
    obtain ⟨l', hli, hl'⟩ := limit_at hranges hname
    obtain rfl := Option.some.inj (hl.symm.trans hl')
    exact List.getElem?_zipWith_eq_some.mpr ⟨x, l, hx, hli, rfl⟩
  refine ⟨requested, rfl, ⟨hvalues.trans hnames, by simp [hvalues, hnames]⟩, ?_, ?_, hmoved, hclipped.trans (clipped_eq requested)⟩
  · intro i name x hname hx
    obtain ⟨l, hli, hl⟩ := limit_at hranges hname
    obtain ⟨r, l', hr, hl', rfl⟩ := List.getElem?_zipWith_eq_some.mp hx
    obtain rfl := Option.some.inj (hli.symm.trans hl')
    exact ⟨l, hl, le_min (le_max_right _ _) (lookup_lt hpinned hl).le, min_le_right _ _⟩
  · intro i name l x hname hl hx hlo hhi
    rw [hmoved i name l x hname hl hx, clamp, max_eq_left hlo, min_eq_left hhi]

end

/-! ### The messages -/

/-- The five values of a slot are finite. -/
def Motor.Finite (motor : Motor K) : Prop :=
  motor.q ≠ .nonFinite ∧ motor.dq ≠ .nonFinite ∧ motor.tau ≠ .nonFinite ∧ motor.kp ≠ .nonFinite ∧ motor.kd ≠ .nonFinite

/-- The arm slots of a message are finite. -/
def Message.ArmsFinite (m : Message K) : Prop := ∀ slot motor, isArmSlot slot = true → m[slot]? = some motor → motor.Finite

/-- A hand command has its slots, and they are finite. -/
def Message.HandSound (m : Message K) : Prop := m.length = dex3MotorSlots ∧ ∀ motor ∈ m, motor.Finite

section
variable [Field K] {pi : K} {m : Message K} {field : Motor K → Value K} {rest : Nat → K}

theorem arm_lt {slot : Nat} (h : isArmSlot slot = true) : slot < bodyJointOrder.length := by
  simp only [isArmSlot, Bool.and_eq_true, decide_eq_true_eq] at h
  exact h.2

theorem armVector_at {slot : Nat} (h : slot < bodyJointOrder.length) : (armVector field rest m)[slot]? =
    some (if isArmSlot slot then (m[slot]?).elim (.fin 0) field else .fin (if isWaistSlot slot then rest slot else 0)) := by
  unfold armVector
  rw [List.getElem?_map, List.getElem?_range h, Option.map_some]

theorem armVector_finite_iff : (∀ x ∈ armVector field rest m, x ≠ .nonFinite) ↔
    ∀ slot motor, isArmSlot slot = true → m[slot]? = some motor → field motor ≠ .nonFinite := by
  constructor
  · intro h slot motor harm hm
    refine h _ (List.mem_of_getElem? (i := slot) ?_)
    rw [armVector_at (arm_lt harm), if_pos harm, hm, Option.elim_some]
  · intro h x hx
    obtain ⟨slot, -, rfl⟩ := List.mem_map.mp hx
    split
    · rename_i harm
      cases hm : m[slot]? with
      | none => simp
      | some motor => exact h slot motor harm hm
    · simp

omit [Field K] in
theorem fin_at {xs : List K} {slot : Nat} {x : K} (h : (xs.map Value.fin)[slot]? = some (.fin x)) : xs[slot]? = some x := by
  rw [List.getElem?_map, Option.map_eq_some_iff] at h
  obtain ⟨y, hy, hfin⟩ := h
  rw [hy, Value.fin.inj hfin]

/-- At an arm slot there is the value of the message. -/
theorem armVector_arm {xs : List K} {slot : Nat} {motor : Motor K} (h : armVector field rest m = xs.map .fin)
    (harm : isArmSlot slot = true) (hm : m[slot]? = some motor) : xs[slot]?.map .fin = some (field motor) := by
  rw [← List.getElem?_map, ← h, armVector_at (arm_lt harm), if_pos harm, hm, Option.elim_some]

theorem armVector_rest {xs : List K} {slot : Nat} (h : armVector field rest m = xs.map .fin)
    (hslot : slot < bodyJointOrder.length) (harm : isArmSlot slot = false) :
    xs[slot]? = some (if isWaistSlot slot then rest slot else 0) := by
  refine fin_at ?_
  rw [← h, armVector_at hslot, harm, if_neg Bool.false_ne_true]

/-- The vectors of a body command are finite when the arm slots are. -/
theorem bodyVectors_finite_iff {gains : Nat → K × K} {v : Vectors K} (hv : bodyCommandVectors gains m = .ok v) :
    v.Finite ↔ m.ArmsFinite := by
  unfold bodyCommandVectors at hv
  split at hv
  · cases hv
  · cases hv
    simp only [Vectors.Finite, List.forall_mem_cons, armVector_finite_iff]
    constructor
    · rintro ⟨hq, hdq, htau, hkp, hkd, -⟩ slot motor harm hm
      exact ⟨hq slot motor harm hm, hdq slot motor harm hm, htau slot motor harm hm, hkp slot motor harm hm,
        hkd slot motor harm hm⟩
    · intro h
      refine ⟨?_, ?_, ?_, ?_, ?_, by simp⟩
      all_goals intro slot motor harm hm
      · exact (h slot motor harm hm).1
      · exact (h slot motor harm hm).2.1
      · exact (h slot motor harm hm).2.2.1
      · exact (h slot motor harm hm).2.2.2.1
      · exact (h slot motor harm hm).2.2.2.2

omit [Field K] in
theorem handVectors_finite_iff {v : Vectors K} (hv : handCommandVectors m = .ok v) : v.Finite ↔ ∀ motor ∈ m, motor.Finite := by
  unfold handCommandVectors at hv
  split at hv
  · cases hv
  · cases hv
    simp only [Vectors.Finite, Message.vectors, List.forall_mem_cons, List.forall_mem_map]
    constructor
    · rintro ⟨hq, hdq, htau, hkp, hkd, -⟩ motor hm
      exact ⟨hq motor hm, hdq motor hm, htau motor hm, hkp motor hm, hkd motor hm⟩
    · intro h
      exact ⟨fun motor hm => (h motor hm).1, fun motor hm => (h motor hm).2.1, fun motor hm => (h motor hm).2.2.1,
        fun motor hm => (h motor hm).2.2.2.1, fun motor hm => (h motor hm).2.2.2.2, by simp⟩

end

/-! ### What is applied -/

section
variable [Field K] [LinearOrder K] {pi : K} {pinned : List (String × K × K)} {config : FluxConfig K}
  {joints : List (PinnedEntry K)} {ttlTicks : Nat} {gapTicks : Int} {m : Message K} {c : JointCommand K}
  {clipped : List (Clip K)}

/-- The body of a command that is made of a message, and the positions of it that were moved. -/
structure FluxBody (pi : K) (pinned : List (String × K × K)) (m : Message K) (c : JointCommand K) (clipped : List (Clip K)) :
    Prop where
  names : c.jointNames = bodyJointOrder
  positions : ∃ requested, Clamped pinned bodyJointOrder requested c.q clipped ∧ ∀ slot < bodyJointOrder.length,
    requested[slot]?.map .fin = if isArmSlot slot then m[slot]?.map (·.q) else some (.fin 0)
  legs : ∀ slot < 12, c.dq[slot]? = some 0 ∧ c.tau[slot]? = some 0 ∧ c.kp[slot]? = some 0 ∧ c.kd[slot]? = some 0
  waist : ∀ slot, isWaistSlot slot = true → c.dq[slot]? = some 0 ∧ c.tau[slot]? = some 0 ∧
    c.kp[slot]? = (deployGains pi)[slot]?.map Prod.fst ∧ c.kd[slot]? = (deployGains pi)[slot]?.map Prod.snd
  arms : ∀ slot, isArmSlot slot = true → ∃ motor, m[slot]? = some motor ∧ c.dq[slot]?.map .fin = some motor.dq ∧
    c.tau[slot]?.map .fin = some motor.tau ∧ c.kp[slot]?.map .fin = some motor.kp ∧ c.kd[slot]?.map .fin = some motor.kd

/-- The command of a hand that is made of a message, and the positions of it that were moved. -/
structure FluxHand (pinned : List (String × K × K)) (side : Side) (m : Message K) (c : JointCommand K) (clipped : List (Clip K)) :
    Prop where
  names : c.jointNames = handJointNames side
  positions : ∃ requested, Clamped pinned (handJointNames side) requested c.q clipped ∧ requested.map .fin = m.map (·.q)
  others : c.dq.map .fin = m.map (·.dq) ∧ c.tau.map .fin = m.map (·.tau) ∧ c.kp.map .fin = m.map (·.kp) ∧
    c.kd.map .fin = m.map (·.kd)

/-- What is made of the message of a hand, when there is one. -/
def HandApplied (pinned : List (String × K × K)) (side : Side) (clipped : List (Clip K)) :
    Option (Taken K) → Option (JointCommand K) → Prop
  | none, none => clipped = []
  | some m, some c => FluxHand pinned side m.message c clipped
  | _, _ => False

theorem fluxConfig_ok (hpinned : pinnedPositionLimits joints = .ok pinned)
    (hconfig : fluxConfig pi joints ttlTicks gapTicks = .ok config) :
    (∀ slot, config.gains slot = (deployGains pi).getD slot (0, 0)) ∧
      limitsFor bodyJointOrder pinned = .ok config.bodyLimits ∧
      ∀ side, limitsFor (handJointNames side) pinned = .ok (config.handLimits side) := by
  unfold fluxConfig at hconfig
  obtain ⟨pinned', hpinned', hconfig⟩ := bind_ok hconfig
  obtain rfl := Except.ok.inj (hpinned'.symm.trans hpinned)
  obtain ⟨body, hbody, hconfig⟩ := bind_ok hconfig
  obtain ⟨left, hleft, hconfig⟩ := bind_ok hconfig
  obtain ⟨right, hright, hconfig⟩ := bind_ok hconfig
  cases hconfig
  refine ⟨fun _ => rfl, hbody, fun side => ?_⟩
  cases side with
  | left => exact hleft
  | right => exact hright

/-- The command of the body that is built of a message. -/
theorem fluxBody (hpinned : pinnedPositionLimits joints = .ok pinned)
    (hconfig : fluxConfig pi joints ttlTicks gapTicks = .ok config) {v : Vectors K} {schema : String} {sequence : Nat} {tick : Int}
    (hv : (fluxDds config).bodyVectors m = .ok (v, clipped))
    (hc : JointCommand.build schema sequence bodyJointOrder v tick = .ok c) : FluxBody pi pinned m c clipped := by
  obtain ⟨hgains, hlimits, -⟩ := fluxConfig_ok hpinned hconfig
  obtain ⟨v', hv', hv⟩ := bind_ok hv
  obtain ⟨⟨q, clipped'⟩, hclip, hv⟩ := bind_ok hv
  cases hv
  unfold bodyCommandVectors at hv'
  split at hv'
  · cases hv'
  · rename_i hlength
    cases hv'
    obtain ⟨hnames, hvectors⟩ := build_ok hc
    simp only [JointCommand.vectors, Vectors.mk.injEq] at hvectors
    obtain ⟨hq, hdq, htau, hkp, hkd⟩ := hvectors
    subst hq
    obtain ⟨requested, hrequested, hclamped⟩ := clamped (pinned_lt hpinned) hlimits hclip
    have hmotor : ∀ slot, isArmSlot slot = true → ∃ motor, m[slot]? = some motor := by
      intro slot harm
      have hslot : slot < 29 := arm_lt harm
      have hslots : m.length = 35 := not_not.mp hlength
      exact ⟨_, List.getElem?_eq_getElem (by omega)⟩
    refine ⟨hnames, ⟨requested, hclamped, ?_⟩, ?_, ?_, ?_⟩
    · intro slot hslot
      by_cases harm : isArmSlot slot = true
      · obtain ⟨motor, hm⟩ := hmotor slot harm
        rw [if_pos harm, armVector_arm hrequested harm hm, hm, Option.map_some]
      · rw [if_neg harm, armVector_rest hrequested hslot (by simpa using harm), ite_self, Option.map_some]
    · intro slot hslot
      have hlt : slot < bodyJointOrder.length := hslot.trans (by decide)
      have harm : isArmSlot slot = false := by
        simp only [isArmSlot, Bool.and_eq_false_iff, decide_eq_false_iff_not]
        omega
      have hwaist : ¬isWaistSlot slot = true := by
        simp only [isWaistSlot, Bool.and_eq_true, decide_eq_true_eq]
        omega
      have hkp := armVector_rest hkp hlt harm
      have hkd := armVector_rest hkd hlt harm
      rw [if_neg hwaist] at hkp hkd
      have hdq := armVector_rest hdq hlt harm
      have htau := armVector_rest htau hlt harm
      rw [ite_self] at hdq htau
      exact ⟨hdq, htau, hkp, hkd⟩
    · intro slot hwaist
      have hrange : 12 ≤ slot ∧ slot < 15 := by simpa [isWaistSlot] using hwaist
      have hlt : slot < bodyJointOrder.length := hrange.2.trans (by decide)
      have harm : isArmSlot slot = false := by
        simp only [isArmSlot, Bool.and_eq_false_iff, decide_eq_false_iff_not]
        omega
      have hdeployed : (deployGains pi)[slot]? = some (config.gains slot) := by
        have hlength : slot < (deployGains pi).length := hlt
        rw [hgains, List.getD_eq_getElem?_getD, List.getElem?_eq_getElem hlength, Option.getD_some]
      have hkp := armVector_rest hkp hlt harm
      have hkd := armVector_rest hkd hlt harm
      rw [if_pos hwaist] at hkp hkd
      have hdq := armVector_rest hdq hlt harm
      have htau := armVector_rest htau hlt harm
      rw [ite_self] at hdq htau
      exact ⟨hdq, htau, by rw [hkp, hdeployed, Option.map_some], by rw [hkd, hdeployed, Option.map_some]⟩
    · intro slot harm
      obtain ⟨motor, hm⟩ := hmotor slot harm
      exact ⟨motor, hm, armVector_arm hdq harm hm, armVector_arm htau harm hm, armVector_arm hkp harm hm,
        armVector_arm hkd harm hm⟩

/-- The command of a hand that is built of a message. -/
theorem fluxHand (hpinned : pinnedPositionLimits joints = .ok pinned)
    (hconfig : fluxConfig pi joints ttlTicks gapTicks = .ok config) {side : Side} {v : Vectors K} {schema : String}
    {sequence : Nat} {tick : Int} (hv : (fluxDds config).handVectors side m = .ok (v, clipped))
    (hc : JointCommand.build schema sequence (handJointNames side) v tick = .ok c) : FluxHand pinned side m c clipped := by
  obtain ⟨-, -, hlimits⟩ := fluxConfig_ok hpinned hconfig
  obtain ⟨v', hv', hv⟩ := bind_ok hv
  obtain ⟨⟨q, clipped'⟩, hclip, hv⟩ := bind_ok hv
  cases hv
  unfold handCommandVectors at hv'
  split at hv'
  · cases hv'
  · cases hv'
    obtain ⟨hnames, hvectors⟩ := build_ok hc
    simp only [JointCommand.vectors, Message.vectors, Vectors.mk.injEq] at hvectors
    obtain ⟨rfl, hdq, htau, hkp, hkd⟩ := hvectors
    obtain ⟨requested, hrequested, hclamped⟩ := clamped (pinned_lt hpinned) (hlimits side) hclip
    exact ⟨hnames, ⟨requested, hclamped, hrequested.symm⟩, hdq.symm, htau.symm, hkp.symm, hkd.symm⟩

/-! ### When a message is refused -/

omit [Field K] in
theorem clipPositions_finite {values : List (Value K)} {limits : List (K × K)} {names : List String}
    (hvalues : values.length = limits.length) (hnames : limits.length = names.length) :
    ∃ q clipped, clipPositions values limits names = .ok (q, clipped) ∧
      ((∀ x ∈ q, x ≠ .nonFinite) ↔ ∀ x ∈ values, x ≠ .nonFinite) := by
  refine ⟨_, _, if_pos ⟨hvalues, hnames⟩, ?_⟩
  clear hnames
  induction values generalizing limits with
  | nil => simp
  | cons v values ih =>
    cases limits with
    | nil => cases hvalues
    | cons l limits =>
      rw [List.zipWith_cons_cons, List.forall_mem_cons, List.forall_mem_cons, ih (Nat.succ.inj hvalues)]
      cases v <;> simp [clipValue]

omit [Field K] [LinearOrder K] in
theorem reads_ok_iff {vectors : Except Raised (Vectors K × List (Clip K))} {v : Vectors K} {names : List String}
    (h : vectors = .ok (v, clipped)) (hnames : names ≠ []) : Reads vectors names ↔ v.Finite := by
  constructor
  · rintro ⟨v', clipped', h', -, hfinite⟩
    rw [h] at h'
    cases h'
    exact hfinite
  · exact fun hfinite => ⟨v, clipped, h, hnames, hfinite⟩

omit [Field K] [LinearOrder K] in
theorem finite_congr {v : Vectors K} {q : List (Value K)} (h : (∀ x ∈ q, x ≠ .nonFinite) ↔ ∀ x ∈ v.q, x ≠ .nonFinite) :
    ({ v with q } : Vectors K).Finite ↔ v.Finite := by
  simp only [Vectors.Finite, List.forall_mem_cons, h]

/-- The slots of the arms decide whether a body command of the right width is read. -/
theorem flux_body_reads_iff (hpinned : pinnedPositionLimits joints = .ok pinned)
    (hconfig : fluxConfig pi joints ttlTicks gapTicks = .ok config) (hm : m.length = lowCmdMotorSlots) :
    Reads ((fluxDds config).bodyVectors m) (fluxDds config).bodyNames ↔ m.ArmsFinite := by
  obtain ⟨-, hlimits, -⟩ := fluxConfig_ok hpinned hconfig
  obtain ⟨v, hv, hlength⟩ : ∃ v, bodyCommandVectors config.gains m = .ok v ∧ v.q.length = bodyJointOrder.length :=
    ⟨_, if_neg (not_not.mpr hm), by simp [armVector]⟩
  have hranges := (limitsFor_ok hlimits).length_eq
  obtain ⟨q, clipped, hclip, hq⟩ := clipPositions_finite (hlength.trans hranges) hranges.symm
  have hvectors : (fluxDds config).bodyVectors m = .ok ({ v with q }, clipped) := by
    show (bodyCommandVectors config.gains m >>= _) = _
    rw [hv]
    show (clipPositions v.q config.bodyLimits bodyJointOrder >>= _) = _
    rw [hclip]
    rfl
  have hnames : (fluxDds config).bodyNames ≠ [] := List.cons_ne_nil _ _
  rw [reads_ok_iff hvectors hnames, finite_congr hq, bodyVectors_finite_iff hv]

theorem flux_hand_reads_iff (hpinned : pinnedPositionLimits joints = .ok pinned)
    (hconfig : fluxConfig pi joints ttlTicks gapTicks = .ok config) (side : Side) :
    Reads ((fluxDds config).handVectors side m) ((fluxDds config).handNames side) ↔ m.HandSound := by
  obtain ⟨-, -, hlimits⟩ := fluxConfig_ok hpinned hconfig
  by_cases hm : m.length = dex3MotorSlots
  · obtain ⟨v, hv, hlength⟩ : ∃ v, handCommandVectors m = .ok v ∧ v.q.length = (handJointNames side).length := by
      refine ⟨_, if_neg (not_not.mpr hm), ?_⟩
      rw [Message.vectors, List.length_map, hm]
      cases side <;> rfl
    have hranges := (limitsFor_ok (hlimits side)).length_eq
    obtain ⟨q, clipped, hclip, hq⟩ := clipPositions_finite (hlength.trans hranges) hranges.symm
    have hvectors : (fluxDds config).handVectors side m = .ok ({ v with q }, clipped) := by
      show (handCommandVectors m >>= _) = _
      rw [hv]
      show (clipPositions v.q (config.handLimits side) (handJointNames side) >>= _) = _
      rw [hclip]
      rfl
    have hnames : (fluxDds config).handNames side ≠ [] := by cases side <;> exact List.cons_ne_nil _ _
    rw [reads_ok_iff hvectors hnames, finite_congr hq, handVectors_finite_iff hv]
    exact (and_iff_right hm).symm
  · refine iff_of_false ?_ fun h => hm h.1
    rintro ⟨v, clipped, hv, -⟩
    obtain ⟨v', hv', -⟩ := bind_ok hv
    rw [handCommandVectors, if_pos hm] at hv'
    cases hv'

end

section
variable {d : Dds K} {m : Taken K}

theorem buildCommand_ok_iff (hands : Side → Option (Taken K)) (episode sequence : Nat) (receivedTick : Int) :
    (∃ r, d.buildCommand m hands episode sequence receivedTick = .ok r) ↔ Reads (d.bodyVectors m.message) d.bodyNames ∧
      ∀ side, ∀ h, hands side = some h → Reads (d.handVectors side h.message) (d.handNames side) := by
  have hhand (side : Side) :
      (∀ h, hands side = some h → Reads (d.handVectors side h.message) (d.handNames side)) ↔
        ∃ r, d.handCommand (hands side) side sequence receivedTick = .ok r :=
    (handCommand_ok_iff sequence receivedTick).symm
  rw [reads_iff bodyCommandSchema sequence (receivedTick + d.ttlTicks), forall_congr' hhand]
  unfold Dds.buildCommand
  constructor
  · rintro ⟨r, h⟩
    obtain ⟨⟨v, clipped⟩, hv, h⟩ := bind_ok h
    obtain ⟨body, hb, h⟩ := bind_ok h
    obtain ⟨left, hl, h⟩ := bind_ok h
    obtain ⟨right, hr, -⟩ := bind_ok h
    refine ⟨⟨v, clipped, hv, body, hb⟩, fun side => ?_⟩
    cases side with
    | left => exact ⟨left, hl⟩
    | right => exact ⟨right, hr⟩
  · rintro ⟨⟨v, clipped, hv, body, hb⟩, hhands⟩
    obtain ⟨left, hl⟩ := hhands .left
    obtain ⟨right, hr⟩ := hhands .right
    rw [hv]
    show ∃ r, (JointCommand.build _ _ _ v _ >>= _) = .ok r
    rw [hb]
    show ∃ r, (d.handCommand (hands .left) .left _ _ >>= _) = .ok r
    rw [hl]
    show ∃ r, (d.handCommand (hands .right) .right _ _ >>= _) = .ok r
    rw [hr]
    exact ⟨_, rfl⟩

/-- What a poll returns or raises is built of the messages that it holds, and the clipped positions are counted. -/
theorem poll_build (tick : Int) {taken : Topic → Option (Taken K)} {s : DdsState K}
    (hm : (s.receive taken).bodyCommand = some m) (ht : 0 ≤ (s.receive taken).commandTick) :
    ∃ episode sequence receivedTick,
      match d.buildCommand m (s.receive taken).handCommand episode sequence receivedTick with
      | .error e => (d.poll tick taken s).1 = .error e
      | .ok (c, clipped) => (d.poll tick taken s).1 = .ok (some c) ∧
        (d.poll tick taken s).2.clippedValues = s.clippedValues + clipped.length ∧
        (d.poll tick taken s).2.clippedPolls = s.clippedPolls + if clipped = [] then 0 else 1 := by
  have hkept : (s.receive taken).clippedValues = s.clippedValues ∧ (s.receive taken).clippedPolls = s.clippedPolls := by
    unfold DdsState.receive
    split <;> exact ⟨rfl, rfl⟩
  simp only [Dds.poll]
  generalize s.receive taken = r at hm ht hkept
  simp only [hm, Int.not_lt.mpr ht, if_false]
  generalize hu : d.maybeReportGap tick r.commandTick _ = u
  have hhands : u.handCommand = r.handCommand ∧ u.clippedValues = r.clippedValues ∧ u.clippedPolls = r.clippedPolls := by
    rw [← hu]
    unfold Dds.maybeReportGap
    split <;> exact ⟨rfl, rfl, rfl⟩
  refine ⟨u.episodeId, u.sequence, u.commandTick, ?_⟩
  rw [← hhands.1]
  cases hbuild : d.buildCommand m u.handCommand u.episodeId u.sequence u.commandTick with
  | error e => rfl
  | ok built =>
    obtain ⟨c, clipped⟩ := built
    refine ⟨rfl, ?_, ?_⟩
    · rw [← hkept.1, ← hhands.2.1]
      by_cases hc : clipped = [] <;> by_cases hvalid : c.isValidAt tick = true <;> simp [Dds.noteClip, hc, hvalid]
    · rw [← hkept.2, ← hhands.2.2]
      by_cases hc : clipped = [] <;> by_cases hvalid : c.isValidAt tick = true <;> simp [Dds.noteClip, hc, hvalid]

end

section
variable [Field K] [LinearOrder K] {pi : K} {pinned : List (String × K × K)} {config : FluxConfig K}
  {joints : List (PinnedEntry K)} {ttlTicks : Nat} {gapTicks : Int} {m : Taken K} {hands : Side → Option (Taken K)}

/-- A command that is made of the messages of the body and the hands, and all the positions that were moved. -/
def FluxApplied (pi : K) (pinned : List (String × K × K)) (m : Taken K) (hands : Side → Option (Taken K))
    (c : CompleteRobotCommand K) (clipped : List (Clip K)) : Prop :=
  ∃ bodyClips leftClips rightClips, clipped = bodyClips ++ leftClips ++ rightClips ∧
    FluxBody pi pinned m.message c.body bodyClips ∧ HandApplied pinned .left leftClips (hands .left) c.leftHand ∧
    HandApplied pinned .right rightClips (hands .right) c.rightHand

theorem handCommand_applied (hpinned : pinnedPositionLimits joints = .ok pinned)
    (hconfig : fluxConfig pi joints ttlTicks gapTicks = .ok config) {side : Side} {sequence : Nat} {tick : Int}
    {hand : Option (JointCommand K)} {clipped : List (Clip K)}
    (h : (fluxDds config).handCommand (hands side) side sequence tick = .ok (hand, clipped)) :
    HandApplied pinned side clipped (hands side) hand := by
  unfold Dds.handCommand at h
  split at h
  · rename_i hnone
    cases h
    rw [hnone]
    rfl
  · rename_i m hm
    obtain ⟨⟨v, clipped'⟩, hv, h⟩ := bind_ok h
    obtain ⟨c, hc, h⟩ := bind_ok h
    cases h
    rw [hm]
    exact fluxHand hpinned hconfig hv hc

theorem buildCommand_applied (hpinned : pinnedPositionLimits joints = .ok pinned)
    (hconfig : fluxConfig pi joints ttlTicks gapTicks = .ok config) {episode sequence : Nat} {tick : Int}
    {c : CompleteRobotCommand K} {clipped : List (Clip K)}
    (h : (fluxDds config).buildCommand m hands episode sequence tick = .ok (c, clipped)) :
    FluxApplied pi pinned m hands c clipped := by
  obtain ⟨⟨v, bodyClips⟩, hv, h⟩ := bind_ok h
  obtain ⟨body, hb, h⟩ := bind_ok h
  obtain ⟨⟨left, leftClips⟩, hl, h⟩ := bind_ok h
  obtain ⟨⟨right, rightClips⟩, hr, h⟩ := bind_ok h
  cases h
  exact ⟨bodyClips, leftClips, rightClips, rfl, fluxBody hpinned hconfig hv hb, handCommand_applied hpinned hconfig hl,
    handCommand_applied hpinned hconfig hr⟩

/-- A poll that holds a body command of the expected width refuses it with a `CommandError` when an arm slot or a hand is not
    finite or a hand has another width; else it applies the messages within the pinned ranges, and the positions that it has
    moved are all that it lists and counts. -/
theorem flux_command_clamped (hpinned : pinnedPositionLimits joints = .ok pinned)
    (hconfig : fluxConfig pi joints ttlTicks gapTicks = .ok config) (tick : Int) (taken : Topic → Option (Taken K))
    (s : DdsState K) (hm : (s.receive taken).bodyCommand = some m) (ht : 0 ≤ (s.receive taken).commandTick)
    (hslots : m.message.length = lowCmdMotorSlots) :
    ((∃ text, ((fluxDds config).poll tick taken s).1 = .error (.command text)) ∧
      ¬(m.message.ArmsFinite ∧ ∀ side, ∀ hand, (s.receive taken).handCommand side = some hand → hand.message.HandSound)) ∨
    (m.message.ArmsFinite ∧ ∀ side, ∀ hand, (s.receive taken).handCommand side = some hand → hand.message.HandSound) ∧
      ∃ c clipped, ((fluxDds config).poll tick taken s).1 = .ok (some c) ∧
        (∃ episode sequence receivedTick, (fluxDds config).buildCommand m (s.receive taken).handCommand episode sequence
          receivedTick = .ok (c, clipped)) ∧
        FluxApplied pi pinned m (s.receive taken).handCommand c clipped ∧
        ((fluxDds config).poll tick taken s).2.clippedValues = s.clippedValues + clipped.length := by
  obtain ⟨episode, sequence, receivedTick, hpoll⟩ := poll_build (d := fluxDds config) tick hm ht
  have hok := buildCommand_ok_iff (d := fluxDds config) (m := m) (s.receive taken).handCommand episode sequence receivedTick
  simp only [flux_body_reads_iff hpinned hconfig hslots, flux_hand_reads_iff hpinned hconfig] at hok
  cases hbuild : (fluxDds config).buildCommand m (s.receive taken).handCommand episode sequence receivedTick with
  | error e =>
    rw [hbuild] at hok hpoll
    refine Or.inl ⟨?_, fun hsound => ?_⟩
    · cases e with
      | command text => exact ⟨text, hpoll⟩
      | index => exact absurd hpoll (flux_checks config)
    · obtain ⟨r, hr⟩ := hok.mpr hsound
      cases hr
  | ok built =>
    obtain ⟨c, clipped⟩ := built
    rw [hbuild] at hok hpoll
    exact Or.inr ⟨hok.mp ⟨_, rfl⟩, c, clipped, hpoll.1, ⟨episode, sequence, receivedTick, hbuild⟩,
      buildCommand_applied hpinned hconfig hbuild, hpoll.2.1⟩

end

/-! ### A pinned model of unit ranges -/

def unitPinned : List (String × ℚ × ℚ) :=
  (bodyJointOrder ++ handJointNames .left ++ handJointNames .right).map fun name => (name, -1, 1)

def unitJoints : List (PinnedEntry ℚ) :=
  unitPinned.map fun e => ⟨e.1, some (.fin e.2.1, .fin e.2.2), "\x7b'lower': -1.0, 'upper': 1.0\x7d"⟩

/-- A provider that holds a body command with its arm out of range. -/
def reaching : DdsState ℚ where
  bodyCommand := some ⟨List.replicate lowCmdMotorSlots ⟨.fin 2, .fin 0, .fin 0, .fin 40, .fin 1⟩, 0, 0⟩
  commandTick := 0

theorem flux_command_clamped_reaching : ∃ config, fluxConfig (22 / 7 : ℚ) unitJoints 2 1000 = .ok config ∧
    ∃ c clipped, ((fluxDds config).poll 0 (fun _ => none) reaching).1 = .ok (some c) ∧
      FluxApplied (22 / 7) unitPinned ⟨List.replicate lowCmdMotorSlots ⟨.fin 2, .fin 0, .fin 0, .fin 40, .fin 1⟩, 0, 0⟩
        (fun _ => none) c clipped := by
  have hpinned : pinnedPositionLimits unitJoints = .ok unitPinned := rfl
  refine ⟨_, rfl, ?_⟩
  rcases flux_command_clamped hpinned rfl 0 (fun _ => none) reaching rfl (by decide) rfl with ⟨-, hrefused⟩ | ⟨-, h⟩
  · refine absurd ⟨fun slot motor _ hmotor => ?_, fun _ _ h => (by cases h)⟩ hrefused
    obtain rfl := List.eq_of_mem_replicate (List.mem_of_getElem? hmotor)
    simp [Motor.Finite]
  · obtain ⟨c, clipped, hpoll, -, happlied, -⟩ := h
    exact ⟨c, clipped, hpoll, happlied⟩

end HumanoidLab
