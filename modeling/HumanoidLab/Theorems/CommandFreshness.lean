import HumanoidLab.Controllers.Providers
import HumanoidLab.Lib.Fallible
import Mathlib.Algebra.Order.Ring.Int

/-! The freshness of what drives the joints: a part of a polled command that is valid now came from a
    message that was taken off its own topic within the time to live, in this episode. The body keeps
    this; a hand is given the body's received tick, so it keeps this exactly when its own stream has not
    gone silent for longer than the body's. -/

namespace HumanoidLab
open Fallible

variable {K : Type} {d : Dds K}

/-- A message was taken in the present episode, at most `ttlTicks` ago. -/
def Taken.Fresh (d : Dds K) (s : ControlLoop K) (m : Taken K) : Prop :=
  m.episode = s.episode ∧ s.tick ≤ m.tick + d.ttlTicks

/-- A part of a command came from the message that the provider held for it: by the vectors of the message. -/
def CameFrom (vectors : Except Raised (Vectors K × List (Clip K))) (c : JointCommand K) : Prop :=
  ∃ v clipped, vectors = .ok (v, clipped) ∧ JointCommand.build c.schema c.sequence c.jointNames v c.validUntilTick = .ok c

def CompleteRobotCommand.hand (c : CompleteRobotCommand K) : Side → Option (JointCommand K)
  | .left => c.leftHand
  | .right => c.rightHand

/-- The provider at a poll, once it has taken what waits on its topics. -/
def ControlLoop.received (s : ControlLoop K) : DdsState K := s.provider.receive s.taken

/-- Whenever a part of the command polled at `s` is valid in the present episode, the message that it came
    from is fresh. -/
structure PartsFresh (d : Dds K) (s : ControlLoop K) (command : CompleteRobotCommand K) : Prop where
  body : command.episodeId = s.episode → command.body.isValidAt s.tick = true →
    ∃ m, s.received.bodyCommand = some m ∧ CameFrom (d.bodyVectors m.message) command.body ∧ m.Fresh d s
  hand : ∀ side c, command.hand side = some c → command.episodeId = s.episode → c.isValidAt s.tick = true →
    ∃ m, s.received.handCommand side = some m ∧ CameFrom (d.handVectors side m.message) c ∧ m.Fresh d s

/-- No hand stream of this episode has been silent for longer than the time to live, unless the body stream
    has been, by the tick that was known when its last message was taken. -/
def HandsKeepUp (d : Dds K) (s : ControlLoop K) : Prop :=
  ∀ side m, s.received.handCommand side = some m → s.received.episodeId = s.episode →
    s.tick ≤ s.received.commandTick + d.ttlTicks → s.tick ≤ m.tick + d.ttlTicks

/-! ### What a poll returns -/

theorem build_fields {schema : String} {sequence : Nat} {names : List String} {v : Vectors K} {tick : Int} {c : JointCommand K}
    (h : JointCommand.build schema sequence names v tick = .ok c) :
    c.schema = schema ∧ c.sequence = sequence ∧ c.jointNames = names ∧ c.validUntilTick = tick := by
  simp only [JointCommand.build] at h
  split at h
  · cases h
  · cases hq : finite v.q "q" <;> cases hdq : finite v.dq "dq" <;> cases htau : finite v.tau "tau" <;>
      cases hkp : finite v.kp "kp" <;> cases hkd : finite v.kd "kd" <;>
      simp [hq, hdq, htau, hkp, hkd, bind, Except.bind, pure, Except.pure] at h
    subst h
    exact ⟨rfl, rfl, rfl, rfl⟩

theorem cameFrom_build {vectors : Except Raised (Vectors K × List (Clip K))} {v : Vectors K} {clipped : List (Clip K)}
    {schema : String} {sequence : Nat} {names : List String} {tick : Int} {c : JointCommand K}
    (hv : vectors = .ok (v, clipped)) (h : JointCommand.build schema sequence names v tick = .ok c) : CameFrom vectors c := by
  obtain ⟨h₁, h₂, h₃, h₄⟩ := build_fields h
  exact ⟨v, clipped, hv, by rw [h₁, h₂, h₃, h₄]; exact h⟩

/-- A hand has a command when it has a message, and the command carries the received tick of the body. -/
def HandOf (d : Dds K) (message : Option (Taken K)) (side : Side) (tick : Int) (c : Option (JointCommand K)) : Prop :=
  (message = none ∧ c = none) ∨ ∃ m jc, message = some m ∧ c = some jc ∧
    CameFrom (d.handVectors side m.message) jc ∧ jc.validUntilTick = tick + d.ttlTicks

theorem handCommand_ok {message : Option (Taken K)} {side : Side} {sequence : Nat} {tick : Int}
    {c : Option (JointCommand K)} {clipped : List (Clip K)}
    (h : d.handCommand message side sequence tick = .ok (c, clipped)) : HandOf d message side tick c := by
  cases message with
  | none =>
    cases h
    exact Or.inl ⟨rfl, rfl⟩
  | some m =>
    obtain ⟨⟨v, clips⟩, hv, h⟩ := bind_ok h
    obtain ⟨jc, hc, h⟩ := bind_ok h
    cases h
    exact Or.inr ⟨m, jc, rfl, rfl, cameFrom_build hv hc, (build_fields hc).2.2.2⟩

theorem buildCommand_ok {m : Taken K} {hands : Side → Option (Taken K)} {episode sequence : Nat} {tick : Int}
    {command : CompleteRobotCommand K} {clipped : List (Clip K)}
    (h : d.buildCommand m hands episode sequence tick = .ok (command, clipped)) :
    command.episodeId = episode ∧ CameFrom (d.bodyVectors m.message) command.body ∧
    command.body.validUntilTick = tick + d.ttlTicks ∧ ∀ side, HandOf d (hands side) side tick (command.hand side) := by
  obtain ⟨⟨v, clips⟩, hv, h⟩ := bind_ok h
  obtain ⟨body, hbody, h⟩ := bind_ok h
  obtain ⟨⟨left, leftClipped⟩, hleft, h⟩ := bind_ok h
  obtain ⟨⟨right, rightClipped⟩, hright, h⟩ := bind_ok h
  cases h
  refine ⟨rfl, cameFrom_build hv hbody, (build_fields hbody).2.2.2, fun side => ?_⟩
  cases side with
  | left => exact handCommand_ok hleft
  | right => exact handCommand_ok hright

/-- The fields of a provider that decide what its commands are made of. -/
def DdsState.held (s : DdsState K) : Option (Taken K) × (Side → Option (Taken K)) × Nat × Int × Int :=
  (s.bodyCommand, s.handCommand, s.episodeId, s.latestTick, s.commandTick)

theorem DdsState.held_eq {s t : DdsState K} (h : s.held = t.held) : s.bodyCommand = t.bodyCommand ∧
    s.handCommand = t.handCommand ∧ s.episodeId = t.episodeId ∧ s.latestTick = t.latestTick ∧ s.commandTick = t.commandTick := by
  simpa only [held, Prod.mk.injEq] using h

@[simp] theorem maybeReportGap_held (tick receivedTick : Int) (s : DdsState K) :
    (d.maybeReportGap tick receivedTick s).held = s.held := by
  simp only [Dds.maybeReportGap]
  split <;> rfl

@[simp] theorem noteClip_held (clipped : List (Clip K)) (s : DdsState K) : (Dds.noteClip clipped s).held = s.held := by
  simp only [Dds.noteClip]
  split <;> rfl

/-- A poll changes what is held by what it receives and by nothing else, and the command that it returns is
    built of what is held then. -/
theorem poll_held (tick : Int) (taken : Topic → Option (Taken K)) (s : DdsState K) :
    (d.poll tick taken s).2.held = (s.receive taken).held ∧
    ∀ command, (d.poll tick taken s).1 = .ok (some command) → ∃ m sequence clipped,
      (s.receive taken).bodyCommand = some m ∧ 0 ≤ (s.receive taken).commandTick ∧
      d.buildCommand m (s.receive taken).handCommand (s.receive taken).episodeId sequence (s.receive taken).commandTick =
        .ok (command, clipped) := by
  simp only [Dds.poll]
  generalize s.receive taken = r
  cases hb : r.bodyCommand with
  | none => exact ⟨by simp [DdsState.held, hb], nofun⟩
  | some m =>
    by_cases htick : r.commandTick < 0
    · simp only [htick, if_true]
      exact ⟨by simp [DdsState.held, hb], nofun⟩
    · simp only [htick, if_false]
      generalize hs' : d.maybeReportGap tick r.commandTick _ = s'
      have hheld : s'.held = r.held := by
        rw [← hs', maybeReportGap_held]
        simp [DdsState.held, hb]
      obtain ⟨-, h₂, h₃, -, h₅⟩ := DdsState.held_eq hheld
      cases hbuild : d.buildCommand m s'.handCommand s'.episodeId s'.sequence s'.commandTick with
      | error e => exact ⟨hheld, nofun⟩
      | ok built =>
        obtain ⟨command, clipped⟩ := built
        refine ⟨?_, fun command' hc => ?_⟩
        · simp only
          split <;> exact (noteClip_held clipped s').trans hheld
        · cases hc
          exact ⟨m, s'.sequence, clipped, rfl, Int.not_lt.mp htick, by rw [← h₂, ← h₃, ← h₅]; exact hbuild⟩

theorem poll_ok {s : ControlLoop K} {command : CompleteRobotCommand K} (h : (s.poll d).1 = .ok (some command)) :
    command.episodeId = s.received.episodeId ∧
    (∃ m, s.received.bodyCommand = some m ∧ CameFrom (d.bodyVectors m.message) command.body) ∧
    command.body.validUntilTick = s.received.commandTick + d.ttlTicks ∧
    ∀ side, HandOf d (s.received.handCommand side) side s.received.commandTick (command.hand side) := by
  obtain ⟨m, sequence, clipped, hm, -, hbuild⟩ := (poll_held s.tick s.taken s.provider).2 command h
  obtain ⟨hep, hbody, huntil, hhands⟩ := buildCommand_ok hbuild
  exact ⟨hep, ⟨m, hm, hbody⟩, huntil, hhands⟩

/-! ### What a provider holds -/

/-- A provider that knows the present episode holds messages of this episode, and its ticks are not ahead. -/
structure Current (episode tick : Nat) (p : DdsState K) : Prop where
  behind : p.episodeId ≤ episode
  latest : p.episodeId = episode → p.latestTick ≤ tick
  body : p.episodeId = episode → ∀ m, p.bodyCommand = some m → m.episode = episode ∧ p.commandTick ≤ m.tick
  hand : p.episodeId = episode → ∀ side m, p.handCommand side = some m → m.episode = episode

variable {episode tick : Nat} {p q : DdsState K}

theorem Current.of_held (h : Current episode tick p) (hq : q.held = p.held) : Current episode tick q := by
  obtain ⟨h₁, h₂, h₃, h₄, h₅⟩ := DdsState.held_eq hq
  refine ⟨?_, ?_, ?_, ?_⟩ <;> simp only [h₁, h₂, h₃, h₄, h₅]
  · exact h.behind
  · exact h.latest
  · exact h.body
  · exact h.hand

theorem Current.receive (h : Current episode tick p) {taken : Topic → Option (Taken K)}
    (ht : ∀ t m, taken t = some m → m.episode = episode ∧ m.tick = tick) : Current episode tick (p.receive taken) := by
  have hands : ∀ side m, (taken (.hand side)).or (p.handCommand side) = some m → p.episodeId = episode → m.episode = episode := by
    intro side m hm he
    rcases Option.or_eq_some_iff.mp hm with hm | ⟨-, hm⟩
    · exact (ht _ _ hm).1
    · exact h.hand he side m hm
  cases hb : taken .body with
  | none =>
    simp only [DdsState.receive, hb]
    exact ⟨h.behind, h.latest, h.body, fun he side m hm => hands side m hm he⟩
  | some m =>
    simp only [DdsState.receive, hb]
    refine ⟨h.behind, h.latest, fun he m' hm => ?_, fun he side m hm => hands side m hm he⟩
    cases hm
    obtain ⟨h₁, h₂⟩ := ht _ _ hb
    exact ⟨h₁, by rw [h₂]; exact h.latest he⟩

theorem Current.publish (h : Current episode tick p) : Current episode tick (p.publishState episode tick) := by
  by_cases he : episode = p.episodeId
  · simp only [DdsState.publishState, he, ne_eq, not_true_eq_false, if_false]
    subst he
    exact ⟨h.behind, fun _ => Int.le_refl _, h.body, h.hand⟩
  · simp only [DdsState.publishState, he, ne_eq, not_false_eq_true, if_true]
    exact ⟨Nat.le_refl _, fun _ => Int.le_refl _, fun _ => nofun, fun _ => nofun⟩

theorem ControlLoop.taken_now {s : ControlLoop K} {t : Topic} {m : Taken K} (h : s.taken t = some m) :
    m.episode = s.episode ∧ m.tick = s.tick := by
  simp only [ControlLoop.taken, Option.map_eq_some_iff] at h
  obtain ⟨_, -, rfl⟩ := h
  exact ⟨rfl, rfl⟩

theorem Current.received {s : ControlLoop K} (h : Current s.episode s.tick s.provider) :
    Current s.episode s.tick s.received :=
  h.receive fun _ _ ht => ControlLoop.taken_now ht

theorem Current.step {s : ControlLoop K} (h : Current s.episode s.tick s.provider) (e : ControlEvent K) :
    Current (s.step d e).episode (s.step d e).tick (s.step d e).provider := by
  cases e with
  | arrive t sample => exact h
  | poll => exact h.received.of_held (poll_held _ _ _).1
  | publish => exact h.publish
  | advance =>
    exact ⟨h.behind, fun he => Int.le_trans (h.latest he) (Int.ofNat_le.mpr (Nat.le_succ _)), h.body, h.hand⟩
  | reset =>
    have hlt : s.provider.episodeId ≠ s.episode + 1 := Nat.ne_of_lt (Nat.lt_succ_of_le h.behind)
    exact ⟨Nat.le_succ_of_le h.behind, fun he => absurd he hlt, fun he => absurd he hlt, fun he => absurd he hlt⟩

theorem current_run (events : List (ControlEvent K)) :
    Current (ControlLoop.run d events).episode (ControlLoop.run d events).tick (ControlLoop.run d events).provider := by
  have keep : ∀ (events : List (ControlEvent K)) (s : ControlLoop K), Current s.episode s.tick s.provider →
      Current (events.foldl (ControlLoop.step d) s).episode (events.foldl (ControlLoop.step d) s).tick
        (events.foldl (ControlLoop.step d) s).provider := by
    intro events
    induction events with
    | nil => exact fun _ h => h
    | cons e events ih => exact fun s h => ih _ (h.step e)
  exact keep events {} ⟨Nat.le_refl _, fun _ => Int.le_refl _, fun _ => nofun, fun _ => nofun⟩

/-! ### The law -/

/-- After every run of arrivals, polls, published states, ticks and resets: the parts of the command that a
    poll returns are fresh exactly when the hands keep up with the body. -/
theorem parts_fresh_iff (events : List (ControlEvent K)) {command : CompleteRobotCommand K}
    (h : ((ControlLoop.run d events).poll d).1 = .ok (some command)) :
    PartsFresh d (ControlLoop.run d events) command ↔ HandsKeepUp d (ControlLoop.run d events) := by
  have hcur := (current_run (d := d) events).received
  generalize ControlLoop.run d events = s at h hcur ⊢
  obtain ⟨hep, ⟨m, hm, hfrom⟩, huntil, hhands⟩ := poll_ok h
  constructor
  · intro hfresh side m hm he ht
    rcases hhands side with ⟨hnone, -⟩ | ⟨m', c, hm', hc, hfrom, huntil⟩
    · rw [hnone] at hm; cases hm
    · obtain ⟨m'', hm'', -, hfr⟩ := hfresh.hand side c hc (hep.trans he) (by simpa [JointCommand.isValidAt, huntil] using ht)
      rw [hm] at hm''
      cases hm''
      exact hfr.2
  · intro hkeep
    refine ⟨fun he hv => ⟨m, hm, hfrom, ?_⟩, fun side c hc he hv => ?_⟩
    · -- The body's received tick is at most the tick at which its message was taken.
      obtain ⟨h₁, h₂⟩ := hcur.body (hep ▸ he) m hm
      simp only [JointCommand.isValidAt, huntil, decide_eq_true_eq] at hv
      exact ⟨h₁, by omega⟩
    · rcases hhands side with ⟨-, hnone⟩ | ⟨m', c', hm', hc', hfrom', huntil'⟩
      · rw [hnone] at hc; cases hc
      · rw [hc'] at hc
        cases hc
        simp only [JointCommand.isValidAt, huntil', decide_eq_true_eq] at hv
        exact ⟨m', hm', hfrom', hcur.hand (hep ▸ he) side m' hm', hkeep side m' hm' (hep ▸ he) hv⟩

/-! ### A hand that goes silent -/

/-- The Flux provider with a time to live of two ticks. -/
def fluxTwoTicks : Dds Int :=
  fluxDds ⟨2, 1000, fun _ => (40, 2), List.replicate 29 (-3, 3), fun _ => List.replicate 7 (-1, 1)⟩

def still (n : Nat) : Message Int := List.replicate n ⟨.fin 0, .fin 0, .fin 0, .fin 0, .fin 0⟩

/-- One tick of the loop, with a message of the body. -/
def bodyTick : List (ControlEvent Int) := [.arrive .body (.message (still 35)), .poll, .advance, .publish]

/-- The left hand sends one message, and the body one at each tick up to the third. -/
def handOnce : List (ControlEvent Int) :=
  [.publish, .arrive (.hand .left) (.message (still 7))] ++ bodyTick ++ bodyTick ++ [.arrive .body (.message (still 35))]

def silentHand : List (ControlEvent Int) :=
  handOnce ++ [.poll, .advance, .publish, .arrive .body (.message (still 35))]

/-- Not every command that is polled is fresh: the hand is driven at tick 3 by its message of tick 0. -/
theorem silent_hand_drives : ¬∀ (d : Dds Int) (events : List (ControlEvent Int)) (command : CompleteRobotCommand Int),
    ((ControlLoop.run d events).poll d).1 = .ok (some command) → PartsFresh d (ControlLoop.run d events) command := by
  intro h
  have hfresh := h fluxTwoTicks silentHand _ rfl
  obtain ⟨m, hm, -, hfr⟩ := hfresh.hand .left _ rfl rfl rfl
  obtain rfl : ⟨still 7, 0, 0⟩ = m := Option.some.inj hm
  exact absurd hfr.2 (by decide)

/-- At tick 2 the hand is driven by a message that is fresh. -/
theorem parts_fresh_iff_handOnce : ∃ command, ((ControlLoop.run fluxTwoTicks handOnce).poll fluxTwoTicks).1 = .ok (some command) ∧
    command.leftHand.isSome = true ∧ PartsFresh fluxTwoTicks (ControlLoop.run fluxTwoTicks handOnce) command := by
  refine ⟨_, rfl, rfl, (parts_fresh_iff handOnce rfl).mpr fun side m hm _ _ => ?_⟩
  cases side with
  | left =>
    obtain rfl : ⟨still 7, 0, 0⟩ = m := Option.some.inj hm
    decide
  | right => cases hm

end HumanoidLab
