import HumanoidLab.Theorems.CommandFreshness
import HumanoidLab.Theorems.EffortSafety

/-! A malformed command costs a tick, not the process, when what it raises is a `CommandError`: the tick counts
    it and leaves the robot passive. The Flux provider checks the number of motor slots of a message before it
    reads them. The SONIC provider reads the slots that it needs, and a message of a hand that has fewer ends
    the process with an `IndexError`. -/

namespace HumanoidLab
open Fallible Std.Do

set_option mvcgen.warning false

variable {K : Type}

/-! ### What checks raise -/

/-- What returns or raises a `CommandError`. -/
def Checks {α : Type} (x : Except Raised α) : Prop := x ≠ .error .index

theorem Checks.bind {α β : Type} {x : Except Raised α} {f : α → Except Raised β} (hx : Checks x)
    (hf : ∀ a, x = .ok a → Checks (f a)) : Checks (x >>= f) := by
  intro h
  rcases bind_error_iff.mp h with h | ⟨a, ha, h⟩
  · exact hx h
  · exact hf a ha h

theorem checks_mapM {α β : Type} {f : α → Except Raised β} (hf : ∀ a, Checks (f a)) (as : List α) : Checks (as.mapM f) := by
  induction as with
  | nil => exact nofun
  | cons a as ih =>
    rw [List.mapM_cons]
    exact (hf a).bind fun _ _ => ih.bind fun _ _ => nofun

theorem finite_checks (values : List (Value K)) (name : String) : Checks (finite values name) :=
  checks_mapM (fun v => by cases v <;> exact nofun) values

theorem build_checks (schema : String) (sequence : Nat) (names : List String) (v : Vectors K) (tick : Int) :
    Checks (JointCommand.build schema sequence names v tick) := by
  unfold JointCommand.build
  split
  · exact nofun
  · exact (finite_checks _ _).bind fun _ _ => (finite_checks _ _).bind fun _ _ => (finite_checks _ _).bind fun _ _ =>
      (finite_checks _ _).bind fun _ _ => (finite_checks _ _).bind fun _ _ => nofun

theorem validate_checks (layout : JointLayout) (c : JointCommand K) : Checks (c.validate layout) := by
  unfold JointCommand.validate
  split
  · exact nofun
  · split <;> exact nofun

/-- A command has the joints of a layout and a value for each in every vector. -/
def JointCommand.Fits (layout : JointLayout) (c : JointCommand K) : Prop :=
  c.jointNames = layout.names ∧ ∀ f ∈ c.fields, f.2.length = layout.names.length

theorem validate_ok_iff {layout : JointLayout} {c : JointCommand K} : c.validate layout = .ok () ↔ c.Fits layout := by
  unfold JointCommand.validate JointCommand.Fits
  split
  · rename_i h
    exact ⟨nofun, fun hf => absurd hf.1 h⟩
  · rename_i h
    rw [ne_eq, not_not] at h
    split
    · rename_i field values hfind
      refine ⟨nofun, fun hf => ?_⟩
      have hne := List.find?_some hfind
      simp only [hf.2 _ (List.mem_of_find?_eq_some hfind), ne_eq, not_true_eq_false, decide_false, Bool.false_eq_true] at hne
    · rename_i hfind
      refine ⟨fun _ => ⟨h, fun f hf => ?_⟩, fun _ => rfl⟩
      simpa using List.find?_eq_none.mp hfind f hf

/-! ### A tick -/

section
variable [Field K] [LinearOrder K] {C : Control K} {plant : Plant K} {s : ControlState K}
  {polled : Except Raised (Option (CompleteRobotCommand K))}

/-- A command has the declared layout: the body, and each hand that is bound and commanded. -/
structure CompleteRobotCommand.Matches (C : Control K) (c : CompleteRobotCommand K) : Prop where
  body : c.body.Fits C.body
  hand : ∀ side layout h, C.hands side = some layout → c.hand side = some h → h.Fits layout

/-- What a tick has to count: a command that cannot be decoded or is not finite, or one that would be in force
    and does not have the declared layout. -/
inductive Malformed (C : Control K) (s : ControlState K) : Except Raised (Option (CompleteRobotCommand K)) → Prop
  | undecodable (text : String) : Malformed C s (.error (.command text))
  | mismatched (c : CompleteRobotCommand K) (inTime : s.inTime c = true) (regresses : s.regresses c = false)
      (mismatch : ¬c.Matches C) : Malformed C s (.ok (some c))

/-- The tick returns, and counts what is malformed and leaves the robot passive. -/
def Contained (C : Control K) (plant : Plant K) (s : ControlState K)
    (polled : Except Raised (Option (CompleteRobotCommand K))) : Prop :=
  ∃ command t, (C.applyControl plant polled).run s = .ok command t ∧
    (Malformed C s polled → command = none ∧ t.rejectedCommands = s.rejectedCommands + 1 ∧ t.mode = .passive)

theorem bodyGravityTorques_checks : Checks (C.bodyGravityTorques plant) :=
  checks_mapM (fun i => by cases plant.gravity i <;> exact nofun) _

theorem applyBodyCommand_checks (c : JointCommand K) (n : Nat) :
    ⦃fun s => ⌜s.rejectedCommands = n⌝⦄ C.applyBodyCommand plant c
    ⦃post⟨fun _ s => ⌜c.Fits C.body ∧ s.rejectedCommands = n⌝, fun e s => ⌜e ≠ .index ∧ s.rejectedCommands = n⌝⟩⦄ := by
  mvcgen [Control.applyBodyCommand]
  case vc1 hs _ hv _ _ _ _ _ _ _ => exact ⟨validate_ok_iff.mp hv, hs⟩
  case vc2 hs _ _ _ _ _ _ hg => exact ⟨fun he => bodyGravityTorques_checks (he ▸ hg), hs⟩
  case vc3 hs _ hv _ _ _ _ _ => exact ⟨validate_ok_iff.mp hv, hs⟩
  case vc4 hs _ hv => exact ⟨fun he => validate_checks _ _ (he ▸ hv), hs⟩

theorem applyHandCommand_checks (c : Option (JointCommand K)) (side : Side) (n : Nat) :
    ⦃fun s => ⌜s.rejectedCommands = n⌝⦄ C.applyHandCommand plant c side
    ⦃post⟨fun _ s => ⌜(∀ layout h, C.hands side = some layout → c = some h → h.Fits layout) ∧ s.rejectedCommands = n⌝,
      fun e s => ⌜e ≠ .index ∧ s.rejectedCommands = n⌝⟩⦄ := by
  have hkeep : ∀ {s : ControlState K} {indices}, s.rejectedCommands = n →
      (s.writePassive (.hand side) indices).rejectedCommands = n := by
    intro s indices hs
    obtain ⟨e, g, h⟩ := s.writePassive_frame (.hand side) indices
    rw [h]
    exact hs
  have hfits : ∀ {layout : JointLayout} {h : JointCommand K}, C.hands side = some layout → h.validate layout = .ok () →
      ∀ layout' h', C.hands side = some layout' → some h = some h' → h'.Fits layout' := by
    intro layout h hl hv layout' h' hl' hh
    cases hl.symm.trans hl'
    cases hh
    exact validate_ok_iff.mp hv
  mvcgen [Control.applyHandCommand]
  case vc1 hl s hs =>
    refine ⟨fun layout h hl' => ?_, hs⟩
    cases hl.symm.trans hl'
  case vc2 s hs _ =>
    refine ⟨fun layout h _ hc => ?_, hkeep hs⟩
    cases hc
  case vc3 hl _ _ s hs _ hv _ _ => exact ⟨hfits hl hv, hkeep hs⟩
  case vc4 hl _ _ s hs _ hv _ _ _ => exact ⟨hfits hl hv, hs⟩
  case vc5 s hs _ hv => exact ⟨fun he => validate_checks _ _ (he ▸ hv), hs⟩

/-- An attempt raises an `IndexError` only where the poll does, and finishes only with a command that has the
    declared layout. -/
theorem tryCommand_checks (n : Nat) :
    ⦃fun u => ⌜u = s ∧ s.rejectedCommands = n⌝⦄ C.tryCommand plant polled
    ⦃post⟨fun _ u => ⌜¬Malformed C s polled ∧ u.rejectedCommands = n⌝,
      fun e u => ⌜(e = .index → polled = .error .index) ∧ u.rejectedCommands = n⌝⟩⦄ := by
  mvcgen [Control.tryCommand, applyBodyCommand_checks, applyHandCommand_checks]
  case vc1 u hs _ _ _ =>
    refine ⟨fun hm => ?_, hs.1 ▸ hs.2⟩
    cases hm
  case vc2 u hs _ _ c _ _ hreg _ =>
    obtain ⟨rfl, hs⟩ := hs
    refine ⟨fun hm => ?_, hs⟩
    cases hm with
    | mismatched c _ hreg' _ => simp [hreg'] at hreg
  case vc3 u hs _ _ c _ _ _ _ v hbody _ w hleft _ x hright =>
    obtain ⟨rfl, hs⟩ := hs
    refine ⟨fun hm => ?_, hright.2.trans (hleft.2.trans (hbody.2.trans hs))⟩
    cases hm with
    | mismatched c _ _ hmis =>
      refine hmis ⟨hbody.1, fun side layout h hl hh => ?_⟩
      cases side with
      | left => exact hleft.1 layout h hl hh
      | right => exact hright.1 layout h hl hh
  case vc4 u hs _ _ c _ _ _ _ v hbody _ w hleft e x =>
    obtain ⟨rfl, hs⟩ := hs
    exact fun he hx => ⟨fun h => absurd h he, hx.trans (hleft.2.trans (hbody.2.trans hs))⟩
  case vc5 u hs _ _ c _ _ _ _ v hbody e x =>
    obtain ⟨rfl, hs⟩ := hs
    exact fun he hx => ⟨fun h => absurd h he, hx.trans (hbody.2.trans hs)⟩
  case vc6 u hs _ _ c _ _ _ e x =>
    obtain ⟨rfl, hs⟩ := hs
    exact fun he hx => ⟨fun h => absurd h he, hx.trans hs⟩
  case vc7 u hs _ _ c _ hin =>
    obtain ⟨rfl, hs⟩ := hs
    refine ⟨fun hm => ?_, hs⟩
    cases hm with
    | mismatched c hin' _ _ => exact hin hin'
  case vc8 u hs e _ => exact ⟨fun he => by rw [he], hs.1 ▸ hs.2⟩

theorem withoutCommand_fields (t : ControlState K) :
    (C.withoutCommand t).rejectedCommands = t.rejectedCommands ∧ (C.withoutCommand t).mode = .passive := by
  unfold Control.withoutCommand
  obtain ⟨e, g, h⟩ := C.goPassive_frame { t with
    staleTicks := t.staleTicks + 1
    passiveSinceTick := if t.mode = .controlled then some t.tick else t.passiveSinceTick
    mode := .passive }
  rw [h]
  exact ⟨rfl, rfl⟩

/-- A tick contains whatever is polled, but an `IndexError`. -/
theorem contained_iff : Contained C plant s polled ↔ Checks polled := by
  constructor
  · rintro ⟨command, t, hr, -⟩ rfl
    cases hr
  · intro hp
    unfold Contained
    rw [Control.applyControl_run]
    cases hc : (C.tryCommand plant polled).run s with
    | ok command u =>
      obtain ⟨hm, -⟩ := ok_of_triple (tryCommand_checks s.rejectedCommands) ⟨rfl, rfl⟩ hc
      cases command <;> exact ⟨_, _, rfl, fun h => absurd h hm⟩
    | error e u =>
      obtain ⟨he, hu⟩ := error_of_triple (tryCommand_checks s.rejectedCommands) ⟨rfl, rfl⟩ hc
      cases e with
      | index => exact absurd (he rfl) hp
      | command text =>
        obtain ⟨hrej, hmode⟩ := withoutCommand_fields (C := C) (Control.refuse text u)
        exact ⟨_, _, rfl, fun _ => ⟨rfl, hrej.trans (congrArg (· + 1) hu), hmode⟩⟩

end

/-! ### A poll -/

/-- Every value of the five vectors is finite. -/
def Vectors.Finite (v : Vectors K) : Prop := ∀ values ∈ [v.q, v.dq, v.tau, v.kp, v.kd], ∀ x ∈ values, x ≠ .nonFinite

theorem finite_ok_iff {values : List (Value K)} (name : String) :
    (∃ xs, finite values name = .ok xs) ↔ ∀ x ∈ values, x ≠ .nonFinite := by
  induction values with
  | nil => exact ⟨fun _ => nofun, fun _ => ⟨[], rfl⟩⟩
  | cons v values ih =>
    rw [List.forall_mem_cons, ← ih]
    simp only [finite, List.mapM_cons]
    constructor
    · rintro ⟨xs, h⟩
      obtain ⟨y, hy, h⟩ := bind_ok h
      obtain ⟨ys, hys, -⟩ := bind_ok h
      refine ⟨?_, ys, hys⟩
      rintro rfl
      cases hy
    · rintro ⟨hv, ys, hys⟩
      cases v with
      | fin x => exact ⟨x :: ys, by rw [hys]; rfl⟩
      | nonFinite => exact absurd rfl hv

theorem build_ok_iff {schema : String} {sequence : Nat} {names : List String} {v : Vectors K} {tick : Int} :
    (∃ c, JointCommand.build schema sequence names v tick = .ok c) ↔ names ≠ [] ∧ v.Finite := by
  unfold JointCommand.build Vectors.Finite
  simp only [List.forall_mem_cons]
  by_cases hn : names = []
  · simp [hn]
  · rw [if_neg hn]
    constructor
    · rintro ⟨c, h⟩
      obtain ⟨q, hq, h⟩ := bind_ok h
      obtain ⟨dq, hdq, h⟩ := bind_ok h
      obtain ⟨tau, htau, h⟩ := bind_ok h
      obtain ⟨kp, hkp, h⟩ := bind_ok h
      obtain ⟨kd, hkd, -⟩ := bind_ok h
      exact ⟨hn, (finite_ok_iff _).mp ⟨q, hq⟩, (finite_ok_iff _).mp ⟨dq, hdq⟩, (finite_ok_iff _).mp ⟨tau, htau⟩,
        (finite_ok_iff _).mp ⟨kp, hkp⟩, (finite_ok_iff _).mp ⟨kd, hkd⟩, nofun⟩
    · rintro ⟨-, hq, hdq, htau, hkp, hkd, -⟩
      obtain ⟨q, hq⟩ := (finite_ok_iff "q").mpr hq
      obtain ⟨dq, hdq⟩ := (finite_ok_iff "dq").mpr hdq
      obtain ⟨tau, htau⟩ := (finite_ok_iff "tau").mpr htau
      obtain ⟨kp, hkp⟩ := (finite_ok_iff "kp").mpr hkp
      obtain ⟨kd, hkd⟩ := (finite_ok_iff "kd").mpr hkd
      exact ⟨_, by rw [hq, hdq, htau, hkp, hkd]; rfl⟩

section
variable {d : Dds K} {tick : Int} {taken : Topic → Option (Taken K)} {p : DdsState K} {m : Taken K}
  {hands : Side → Option (Taken K)} {side : Side}

/-- The vectors of a message make a command of joints that it has. -/
def Reads (vectors : Except Raised (Vectors K × List (Clip K))) (names : List String) : Prop :=
  ∃ v clipped, vectors = .ok (v, clipped) ∧ names ≠ [] ∧ v.Finite

theorem reads_iff {vectors : Except Raised (Vectors K × List (Clip K))} {names : List String} (schema : String) (sequence : Nat)
    (t : Int) :
    Reads vectors names ↔
      ∃ v clipped, vectors = .ok (v, clipped) ∧ ∃ c, JointCommand.build schema sequence names v t = .ok c := by
  simp only [Reads, build_ok_iff]

theorem handCommand_index_iff (sequence : Nat) (receivedTick : Int) :
    d.handCommand (hands side) side sequence receivedTick = .error .index ↔
      ∃ m, hands side = some m ∧ ¬Checks (d.handVectors side m.message) := by
  cases hm : hands side with
  | none => exact ⟨nofun, fun ⟨m, h, _⟩ => nomatch h⟩
  | some m =>
    simp only [Dds.handCommand, Checks, not_not, Option.some.injEq, exists_eq_left']
    refine ⟨fun h => ?_, fun h => by rw [h]; rfl⟩
    rcases bind_error_iff.mp h with h | ⟨⟨v, clipped⟩, -, h⟩
    · exact h
    · rcases bind_error_iff.mp h with h | ⟨c, -, h⟩
      · exact absurd h (build_checks _ _ _ _ _)
      · cases h

theorem handCommand_ok_iff (sequence : Nat) (receivedTick : Int) :
    (∃ r, d.handCommand (hands side) side sequence receivedTick = .ok r) ↔
      ∀ m, hands side = some m → Reads (d.handVectors side m.message) (d.handNames side) := by
  cases hm : hands side with
  | none => exact ⟨fun _ => nofun, fun _ => ⟨_, rfl⟩⟩
  | some m =>
    simp only [Option.some.injEq, forall_eq', reads_iff dex3CommandSchema sequence (receivedTick + d.ttlTicks),
      Dds.handCommand]
    constructor
    · rintro ⟨r, h⟩
      obtain ⟨⟨v, clipped⟩, hv, h⟩ := bind_ok h
      obtain ⟨c, hc, -⟩ := bind_ok h
      exact ⟨v, clipped, hv, c, hc⟩
    · rintro ⟨v, clipped, hv, c, hc⟩
      refine ⟨(some c, clipped), ?_⟩
      rw [hv]
      show (JointCommand.build _ _ _ v _ >>= _) = _
      rw [hc]
      rfl

/-- Where the build of a command raises an `IndexError`: in the vectors of the body, of the left hand when the
    body can be read, or of the right hand when both can. -/
theorem buildCommand_index_iff (episode sequence : Nat) (receivedTick : Int) :
    d.buildCommand m hands episode sequence receivedTick = .error .index ↔
    ¬Checks (d.bodyVectors m.message) ∨ (Reads (d.bodyVectors m.message) d.bodyNames ∧
      ((∃ l, hands .left = some l ∧ ¬Checks (d.handVectors .left l.message)) ∨
        ((∀ l, hands .left = some l → Reads (d.handVectors .left l.message) (d.handNames .left)) ∧
          ∃ r, hands .right = some r ∧ ¬Checks (d.handVectors .right r.message)))) := by
  rw [reads_iff bodyCommandSchema sequence (receivedTick + d.ttlTicks), ← handCommand_index_iff sequence receivedTick,
    ← handCommand_index_iff sequence receivedTick, ← handCommand_ok_iff sequence receivedTick]
  simp only [Checks, not_not, Dds.buildCommand]
  constructor
  · intro h
    rcases bind_error_iff.mp h with h | ⟨⟨v, clipped⟩, hv, h⟩
    · exact Or.inl h
    · rcases bind_error_iff.mp h with h | ⟨body, hb, h⟩
      · exact absurd h (build_checks _ _ _ _ _)
      · refine Or.inr ⟨⟨v, clipped, hv, body, hb⟩, ?_⟩
        rcases bind_error_iff.mp h with h | ⟨left, hl, h⟩
        · exact Or.inl h
        · rcases bind_error_iff.mp h with h | ⟨right, -, h⟩
          · exact Or.inr ⟨⟨left, hl⟩, h⟩
          · cases h
  · rintro (h | ⟨⟨v, clipped, hv, body, hb⟩, h | ⟨⟨left, hl⟩, h⟩⟩)
    · exact bind_error_iff.mpr (Or.inl h)
    · exact bind_error_iff.mpr (Or.inr ⟨_, hv, bind_error_iff.mpr (Or.inr ⟨_, hb, bind_error_iff.mpr (Or.inl h)⟩)⟩)
    · exact bind_error_iff.mpr (Or.inr ⟨_, hv, bind_error_iff.mpr (Or.inr ⟨_, hb,
        bind_error_iff.mpr (Or.inr ⟨_, hl, bind_error_iff.mpr (Or.inl h)⟩)⟩)⟩)

/-- A poll raises what the build of its command raises, when it holds a message of the body. -/
theorem poll_index_iff : (d.poll tick taken p).1 = .error .index ↔
    ∃ m, (p.receive taken).bodyCommand = some m ∧ 0 ≤ (p.receive taken).commandTick ∧
      d.buildCommand m (p.receive taken).handCommand 0 0 0 = .error .index := by
  simp only [Dds.poll]
  generalize p.receive taken = r
  cases hb : r.bodyCommand with
  | none => simp
  | some m =>
    simp only [Option.some.injEq, exists_eq_left']
    by_cases ht : r.commandTick < 0
    · simp only [ht, if_true, reduceCtorEq, false_iff, not_and]
      exact fun h => absurd ht (Int.not_lt.mpr h)
    · simp only [ht, if_false, Int.not_lt.mp ht, true_and]
      generalize hs : d.maybeReportGap tick r.commandTick _ = s
      have hhand : s.handCommand = r.handCommand := by
        rw [← hs]
        exact (DdsState.held_eq (maybeReportGap_held _ _ _)).2.1
      rw [buildCommand_index_iff, ← hhand, ← buildCommand_index_iff s.episodeId s.sequence s.commandTick]
      cases hbuild : d.buildCommand m s.handCommand s.episodeId s.sequence s.commandTick with
      | error e => simp
      | ok built => simp

end

/-! ### The two providers -/

section
variable {names : List String} {n : Nat} {m : Message K}

theorem firstSlots_checks_iff : Checks (firstSlots n m) ↔ n ≤ m.length := by
  unfold firstSlots Checks
  split <;> simp_all

theorem firstSlots_reads_iff : Reads (firstSlots n m) names ↔ n ≤ m.length ∧ names ≠ [] ∧ (Message.vectors (m.take n)).Finite := by
  unfold firstSlots Reads
  split <;> simp_all

/-- The slots that the SONIC provider reads of a message are there, and finite. -/
def Message.Whole (n : Nat) (m : Message K) : Prop := n ≤ m.length ∧ (Message.vectors (m.take n)).Finite

/-- The messages that the SONIC provider holds have the slots that it comes to read: those of the body, those of
    the left hand when the body is finite, and those of the right hand when the left is as well. -/
structure SlotsSuffice (p : DdsState K) : Prop where
  body : ∀ m, p.bodyCommand = some m → 0 ≤ p.commandTick → bodyJointOrder.length ≤ m.message.length
  left : ∀ m l, p.bodyCommand = some m → 0 ≤ p.commandTick → m.message.Whole bodyJointOrder.length →
    p.handCommand .left = some l → (handJointNames .left).length ≤ l.message.length
  right : ∀ m r, p.bodyCommand = some m → 0 ≤ p.commandTick → m.message.Whole bodyJointOrder.length →
    (∀ l, p.handCommand .left = some l → l.message.Whole (handJointNames .left).length) →
    p.handCommand .right = some r → (handJointNames .right).length ≤ r.message.length

theorem sonic_checks_iff {ttlTicks : Nat} {gapTicks tick : Int} {taken : Topic → Option (Taken K)} {p : DdsState K} :
    Checks ((sonicDds ttlTicks gapTicks).poll tick taken p).1 ↔ SlotsSuffice (p.receive taken) := by
  have hbody : ∀ m : Message K, Reads (firstSlots bodyJointOrder.length m) bodyJointOrder ↔ m.Whole bodyJointOrder.length :=
    fun m => by rw [firstSlots_reads_iff]; exact and_congr_right fun _ => and_iff_right (by decide)
  have hhand : ∀ (side : Side) (m : Message K), Reads (firstSlots (handJointNames side).length m) (handJointNames side) ↔
      m.Whole (handJointNames side).length :=
    fun side m => by rw [firstSlots_reads_iff]; exact and_congr_right fun _ => and_iff_right (by cases side <;> decide)
  rw [Checks, ne_eq, poll_index_iff, not_exists]
  simp only [buildCommand_index_iff, sonicDds, firstSlots_checks_iff, hbody, hhand, Nat.not_le]
  constructor
  · intro h
    refine ⟨fun m hm ht => ?_, fun m l hm ht hw hl => ?_, fun m r hm ht hw hl hr => ?_⟩
    · by_contra hlt
      exact h m ⟨hm, ht, Or.inl (Nat.not_le.mp hlt)⟩
    · by_contra hlt
      exact h m ⟨hm, ht, Or.inr ⟨hw, Or.inl ⟨l, hl, Nat.not_le.mp hlt⟩⟩⟩
    · by_contra hlt
      exact h m ⟨hm, ht, Or.inr ⟨hw, Or.inr ⟨hl, r, hr, Nat.not_le.mp hlt⟩⟩⟩
  · rintro h m ⟨hm, ht, hlt | ⟨hw, ⟨l, hl, hlt⟩ | ⟨hl, r, hr, hlt⟩⟩⟩
    · exact absurd (h.body m hm ht) (Nat.not_le.mpr hlt)
    · exact absurd (h.left m l hm ht hw hl) (Nat.not_le.mpr hlt)
    · exact absurd (h.right m r hm ht hw hl hr) (Nat.not_le.mpr hlt)

variable [LinearOrder K]

theorem clipPositions_checks (values : List (Value K)) (limits : List (K × K)) (names : List String) :
    Checks (clipPositions values limits names) := by
  unfold clipPositions
  split <;> exact nofun

theorem flux_checks [Zero K] (config : FluxConfig K) {tick : Int} {taken : Topic → Option (Taken K)} {p : DdsState K} :
    Checks ((fluxDds config).poll tick taken p).1 := by
  have hbody : ∀ m, Checks ((fluxDds config).bodyVectors m) := by
    intro m
    refine Checks.bind ?_ fun _ _ => (clipPositions_checks _ _ _).bind fun _ _ => nofun
    unfold bodyCommandVectors
    split <;> exact nofun
  have hhand : ∀ side m, Checks ((fluxDds config).handVectors side m) := by
    intro side m
    refine Checks.bind ?_ fun _ _ => (clipPositions_checks _ _ _).bind fun _ _ => nofun
    unfold handCommandVectors
    split <;> exact nofun
  rw [Checks, ne_eq, poll_index_iff, not_exists]
  rintro m ⟨-, -, h⟩
  rcases (buildCommand_index_iff _ _ _).mp h with h | ⟨-, ⟨l, -, h⟩ | ⟨-, r, -, h⟩⟩
  · exact h (hbody _)
  · exact h (hhand _ _)
  · exact h (hhand _ _)

end

/-- Whatever the messages are: a tick contains what the Flux provider polls; it contains what the SONIC provider
    polls exactly when the messages that the provider holds have the slots that it comes to read. -/
theorem malformed_contained_iff [Field K] [LinearOrder K] (C : Control K) (plant : Plant K) (s : ControlState K)
    (taken : Topic → Option (Taken K)) (p : DdsState K) (config : FluxConfig K) (ttlTicks : Nat) (gapTicks : Int) :
    Contained C plant s ((fluxDds config).poll s.tick taken p).1 ∧
    (Contained C plant s ((sonicDds ttlTicks gapTicks).poll s.tick taken p).1 ↔ SlotsSuffice (p.receive taken)) :=
  ⟨contained_iff.mpr (flux_checks config), contained_iff.trans sonic_checks_iff⟩

/-- A message of the body, and one of the left hand that has no slots. -/
def emptyHand : Topic → Option (Taken ℚ)
  | .body => some ⟨List.replicate 35 ⟨.fin 0, .fin 0, .fin 0, .fin 0, .fin 0⟩, 0, 0⟩
  | .hand .left => some ⟨[], 0, 0⟩
  | .hand .right => none

/-- The tick that takes them raises. -/
theorem empty_hand_raises : ¬Contained smallControl smallPlant smallControl.started
    ((sonicDds 10 100).poll smallControl.started.tick emptyHand {}).1 := by
  rintro ⟨command, t, hr, -⟩
  cases hr

end HumanoidLab
