import HumanoidLab.Simulators.Decision
import HumanoidLab.Theorems.ControlTick
import HumanoidLab.Theorems.MalformedCommands
import Mathlib.Data.Rat.Floor

/-! What a refused command leaves behind. When the body of a command is applied and a hand fails its check, the tick
    ends as one without a command does, as far as control goes; but the body was noted, sampled and shown to the hold
    before the hands were looked at. -/

namespace HumanoidLab
open Fallible Std.Do

set_option mvcgen.warning false

variable {K : Type} [Field K] [LinearOrder K] [FloorRing K]
  {S : Service K} {plant : RootedPlant K} {s t : ServiceState K} {c : CompleteRobotCommand K}
  {polled : Except Raised (Option (CompleteRobotCommand K))} {command : Option (CompleteRobotCommand K)}

/-! ### Control -/

/-- What control does, a program of the service does; an `IndexError` may be the service's own. -/
abbrev MirrorsControl {α : Type} (x : EStateM Raised (ServiceState K) α) (y : EStateM Raised (ControlState K) α) : Prop :=
  Mirrors (·.control) (· ≠ .index) x y

omit [LinearOrder K] [FloorRing K] in
theorem onControl_mirrors {α : Type} (y : EStateM Raised (ControlState K) α) : MirrorsControl (ServiceState.onControl y) y :=
  Mirrors.zoom (fun _ _ => rfl) y

theorem track_mirrors (c : JointCommand K) : MirrorsControl (S.track plant c) (pure ()) := by
  refine Mirrors.silent (fun _ => rfl) (Mirrors.get (g := fun _ => pure ()) fun s => ?_)
  split
  · split
    · exact fun _ h => absurd rfl h
    · exact fun _ => rfl
  · exact Mirrors.pure ()

omit [FloorRing K] in
theorem applyBodyCommand_checked (C : Control K) (plant : Plant K) (c : JointCommand K) :
    (lift (c.validate C.body) >>= fun _ => C.applyBodyCommand plant c) = C.applyBodyCommand plant c := by
  unfold Control.applyBodyCommand
  cases c.validate C.body <;> rfl

theorem applyBodyCommand_mirrors (c : JointCommand K) :
    MirrorsControl (S.applyBodyCommand plant c) (S.toControl.applyBodyCommand plant.toPlant c) := by
  rw [← applyBodyCommand_checked]
  exact (Mirrors.lift _).bind fun _ => Mirrors.silent (fun _ => rfl) ((onControl_mirrors _).andThen (track_mirrors c))

theorem tryCommand_mirrors : MirrorsControl (S.tryCommand plant polled) (S.toControl.tryCommand plant.toPlant polled) := by
  refine (Mirrors.lift _).bind fun command => ?_
  cases command with
  | none => exact Mirrors.pure _
  | some c =>
    refine Mirrors.get fun s => ?_
    split
    · split
      · exact (onControl_mirrors _).bind fun _ => Mirrors.pure _
      · exact (applyBodyCommand_mirrors _).bind fun _ => Mirrors.silent (fun _ => rfl)
          ((onControl_mirrors _).bind fun _ => (onControl_mirrors _).bind fun _ => Mirrors.pure _)
    · exact Mirrors.pure _

/-- A tick of the service is a tick of control. -/
theorem applyControl_mirrors :
    MirrorsControl (S.applyControl plant polled) (S.toControl.applyControl plant.toPlant polled) := by
  refine (tryCommand_mirrors.catching (fun e he => ?_) fun e he => ?_).bind fun command => ?_
  · cases e with
    | command text => exact (onControl_mirrors _).bind fun _ => Mirrors.pure _
    | index => exact absurd rfl he
  · obtain rfl := not_not.mp he
    rfl
  · cases command with
    | none => exact (onControl_mirrors _).bind fun _ => Mirrors.pure _
    | some c => exact (onControl_mirrors _).bind fun _ => Mirrors.pure _

/-! ### A command that is refused at a hand -/

/-- The parts of the state that a tick decides with a command. -/
structure Decision (K : Type) [Zero K] where
  hold : PoseHold K
  lastBodyCommandQ : Option (List K)
  tracking : BodyTracking K
  support : Support K
  lastSequenceSeen : Option Nat

def ServiceState.decision (s : ServiceState K) : Decision K :=
  ⟨s.hold, s.lastBodyCommandQ, s.tracking, s.control.support, s.control.lastSequenceSeen⟩

/-- The command is in force, its body is applied, and a hand that it commands does not have its layout. -/
structure HandRejected (S : Service K) (plant : RootedPlant K) (s : ServiceState K) (c : CompleteRobotCommand K) : Prop where
  inTime : s.control.inTime c = true
  fresh : s.control.regresses c = false
  body : ∃ u, (S.applyBodyCommand plant c.body).run s = .ok () u
  hand : ∃ side layout h, S.hands side = some layout ∧ c.hand side = some h ∧ ¬h.Fits layout

omit [LinearOrder K] [FloorRing K] in
/-- What control does, beside what it does not touch. -/
theorem onControl_frame {α : Type} {y : EStateM Raised (ControlState K) α} {P : ControlState K → Prop}
    {Q : α → ControlState K → Prop} {E : Raised → ControlState K → Prop}
    (R : PoseHold K → Option (List K) → BodyTracking K → Prop)
    (hy : ⦃fun s => ⌜P s⌝⦄ y ⦃post⟨fun a s => ⌜Q a s⌝, fun e s => ⌜E e s⌝⟩⦄) :
    ⦃fun s => ⌜R s.hold s.lastBodyCommandQ s.tracking ∧ P s.control⌝⦄ ServiceState.onControl y
    ⦃post⟨fun a s => ⌜R s.hold s.lastBodyCommandQ s.tracking ∧ Q a s.control⌝,
      fun e s => ⌜R s.hold s.lastBodyCommandQ s.tracking ∧ E e s.control⌝⟩⦄ :=
  zoom_frame (R := fun s : ServiceState K => R s.hold s.lastBodyCommandQ s.tracking) (fun _ _ => rfl) (fun _ _ h => h) hy

/-- The body of a command that was applied is noted and sampled; the hold has not seen it yet. -/
theorem applyBodyCommand_notes (c : JointCommand K) (s : ServiceState K) :
    ⦃fun u => ⌜u = s⌝⦄ S.applyBodyCommand plant c
    ⦃post⟨fun _ u => ⌜(u.hold = s.hold ∧ u.tracking.samples = s.tracking.samples + 1 ∧ u.lastBodyCommandQ = some c.q) ∧
      Elsewhere s.control u.control⌝, fun _ _ => ⌜True⌝⟩⦄ := by
  have hcontrol := onControl_frame (fun h q t => h = s.hold ∧ t.samples = s.tracking.samples ∧ q = some c.q)
    (@applyBodyCommand_elsewhere K _ _ S.toControl plant.toPlant s.control c)
  mvcgen [Service.applyBodyCommand, Service.track, hcontrol]
  case vc1 hs _ _ _ =>
    subst hs
    exact ⟨⟨rfl, rfl, rfl⟩, Elsewhere.refl _⟩
  case vc2 hs _ _ _ _ _ =>
    obtain ⟨⟨hhold, hn, hq⟩, hc⟩ := hs
    exact ⟨⟨hhold, congrArg (· + 1) hn, hq⟩, hc⟩
  case vc3 hs _ _ =>
    obtain ⟨⟨hhold, hn, hq⟩, hc⟩ := hs
    exact ⟨⟨hhold, congrArg (· + 1) hn, hq⟩, hc⟩

omit [FloorRing K] in
/-- Either the hands have their layouts, or the first that has not raises a `CommandError`. -/
theorem applyHands_checks (c : CompleteRobotCommand K) (R : PoseHold K → Option (List K) → BodyTracking K → Prop) (n : Nat) :
    ⦃fun s => ⌜R s.hold s.lastBodyCommandQ s.tracking ∧ s.control.rejectedCommands = n⌝⦄ S.applyHands plant c
    ⦃post⟨fun _ _ => ⌜∀ side layout h, S.hands side = some layout → c.hand side = some h → h.Fits layout⌝,
      fun e s => ⌜e ≠ .index ∧ R s.hold s.lastBodyCommandQ s.tracking⌝⟩⦄ := by
  have hhand := fun hand side => onControl_frame R
    (@applyHandCommand_checks K _ _ S.toControl plant.toPlant hand side n)
  mvcgen [Service.applyHands, hhand]
  case vc2 hs => exact ⟨hs.1, hs.2.2⟩
  case vc3 hleft _ _ hright =>
    intro side layout h hlayout hh
    cases side with
    | left => exact hleft.2.1 layout h hlayout hh
    | right => exact hright.2.1 layout h hlayout hh
  case vc4 => exact fun hR he _ => ⟨he, hR⟩
  case vc5 => exact fun hR he _ => ⟨he, hR⟩

/-- The attempt at a command whose body is applied goes on with the hands, and the hold has seen the body. -/
theorem tryCommand_run {u : ServiceState K} (hin : s.control.inTime c = true) (hfresh : s.control.regresses c = false)
    (hu : (S.applyBodyCommand plant c.body).run s = .ok () u) :
    (S.tryCommand plant (.ok (some c))).run s = (S.applyHands plant c).run (S.updateResetPoseHold c.body u) := by
  simp only [EStateM.run] at hu
  simp only [Service.tryCommand, lift, EStateM.run, bind, EStateM.bind, pure, EStateM.pure, get, getThe, MonadStateOf.get,
    show (EStateM.get : EStateM Raised (ServiceState K) _) = fun s => .ok s s from rfl, hin, hfresh, if_true,
    Bool.false_eq_true, if_false, hu]
  rfl

/-- What is left of a command that is refused at a hand: control ends as without a command, but the body was noted,
    sampled and shown to the hold. -/
structure LeftBehind (S : Service K) (s : ServiceState K) (c : CompleteRobotCommand K) (t : ServiceState K) : Prop where
  control : Elsewhere s.control t.control
  hold : t.hold = s.hold.update S.holdSpec s.control.tick c.body.q
  noted : t.lastBodyCommandQ = some c.body.q
  sampled : t.tracking.samples = s.tracking.samples + 1

theorem applyControl_leftBehind (h : HandRejected S plant s c) :
    ∃ t, (S.applyControl plant (.ok (some c))).run s = .ok none t ∧ LeftBehind S s c t := by
  obtain ⟨u, hu⟩ := h.body
  obtain ⟨⟨hhold, hsamples, hnoted⟩, hcontrol⟩ := ok_of_triple (applyBodyCommand_notes c.body s) rfl hu
  have hrun := tryCommand_run h.inTime h.fresh hu
  have hhold' : (S.updateResetPoseHold c.body u).hold = s.hold.update S.holdSpec s.control.tick c.body.q := by
    rw [← hhold, ← hcontrol.tick]
    rfl
  have hchecks := @applyHands_checks K _ _ S plant c (fun hold q tracking =>
    hold = s.hold.update S.holdSpec s.control.tick c.body.q ∧ q = some c.body.q ∧
      tracking.samples = s.tracking.samples + 1) u.control.rejectedCommands
  cases hands : (S.applyHands plant c).run (S.updateResetPoseHold c.body u) with
  | ok a v =>
    have hfits := ok_of_triple hchecks ⟨⟨hhold', hnoted, hsamples⟩, rfl⟩ hands
    obtain ⟨side, layout, hand, hlayout, hhand, hmis⟩ := h.hand
    exact absurd (hfits side layout hand hlayout hhand) hmis
  | error e v =>
    obtain ⟨he, hh, hq, hn⟩ := error_of_triple hchecks ⟨⟨hhold', hnoted, hsamples⟩, rfl⟩ hands
    cases e with
    | index => exact absurd rfl he
    | command text =>
      rw [hands] at hrun
      have happly : (S.applyControl plant (.ok (some c))).run s =
          .ok none { v with control := S.toControl.withoutCommand (Control.refuse text v.control) } := by
        simp only [Service.applyControl, EStateM.run, bind, EStateM.bind, tryCatch, tryCatchThe, MonadExceptOf.tryCatch,
          EStateM.tryCatch, show S.tryCommand plant (.ok (some c)) s = _ from hrun]
        rfl
      refine ⟨_, happly, ?_, hh, hq, hn⟩
      rcases applyControl_ok (applyControl_mirrors.ok happly) with ⟨-, hc⟩ | ⟨c, -, hc, -⟩
      · exact hc
      · cases hc

/-- A command that is refused at a hand never leaves the decisions as they are without a command. -/
theorem rejected_leaves_trace (h : HandRejected S plant s c) :
    ∃ t u, (S.applyControl plant (.ok (some c))).run s = .ok none t ∧ (S.applyControl plant (.ok none)).run s = .ok none u ∧
      t.decision ≠ u.decision := by
  obtain ⟨t, ht, hleft⟩ := applyControl_leftBehind h
  refine ⟨t, _, ht, rfl, fun heq => ?_⟩
  have hsamples : t.tracking.samples = s.tracking.samples := congrArg (·.tracking.samples) heq
  rw [hleft.sampled] at hsamples
  exact absurd hsamples (Nat.succ_ne_self _)

/-- The small robot, and a command whose left hand has no values. -/
def smallService : Service ℚ := { smallControl with resetPoseIndices := [], armTargetIndices := [] }

def handlessCommand : CompleteRobotCommand ℚ :=
  { smallCommand 1 1 10 with
    leftHand := some ⟨dex3CommandSchema, 1, ["left_hand_thumb_0_joint"], [], [], [], [], [], 10⟩ }

def restingPlant : RootedPlant ℚ := { smallPlant with rootX := 0, rootY := 0, rootZ := 0 }

theorem handless_rejected : HandRejected smallService restingPlant smallService.started handlessCommand where
  inTime := rfl
  fresh := rfl
  body := ⟨_, rfl⟩
  hand := ⟨.left, _, _, rfl, rfl, fun h => absurd (h.2 ("q", []) (by simp [JointCommand.fields])) (by decide)⟩

/-- The body of the refused command is what the service remembers as its last. -/
theorem refused_body_noted : ∃ t u, (smallService.applyControl restingPlant (.ok (some handlessCommand))).run smallService.started =
      .ok none t ∧ (smallService.applyControl restingPlant (.ok none)).run smallService.started = .ok none u ∧
    t.lastBodyCommandQ = some [1] ∧ u.lastBodyCommandQ = none ∧ t.decision ≠ u.decision := by
  refine ⟨_, _, rfl, rfl, rfl, rfl, fun h => ?_⟩
  have hq := congrArg (·.lastBodyCommandQ) h
  cases hq

theorem rejected_leaves_trace_handless : ∃ t u,
    (smallService.applyControl restingPlant (.ok (some handlessCommand))).run smallService.started = .ok none t ∧
    (smallService.applyControl restingPlant (.ok none)).run smallService.started = .ok none u ∧ t.decision ≠ u.decision :=
  rejected_leaves_trace handless_rejected

end HumanoidLab
