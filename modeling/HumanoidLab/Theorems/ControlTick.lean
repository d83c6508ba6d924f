import HumanoidLab.Simulators.Control

/-! A tick of control, as far as it is not about efforts: the command that it applies is the one that was
    polled, valid now, and the support follows it. -/

namespace HumanoidLab
open Fallible Std.Do

set_option mvcgen.warning false

variable {K : Type}

/-- A command is valid at a tick: of the present episode, alive, and not older than one that was seen. -/
def ControlState.accepts (s : ControlState K) (c : CompleteRobotCommand K) : Bool := s.inTime c && !s.regresses c

/-- The fields that the writes of efforts leave. -/
structure Elsewhere (s t : ControlState K) : Prop where
  support : t.support = s.support
  tick : t.tick = s.tick
  episode : t.episodeId = s.episodeId
  seen : t.lastSequenceSeen = s.lastSequenceSeen

section
variable {s t u : ControlState K}

theorem Elsewhere.refl (s : ControlState K) : Elsewhere s s := ⟨rfl, rfl, rfl, rfl⟩

theorem Elsewhere.trans (h : Elsewhere s t) (h' : Elsewhere t u) : Elsewhere s u :=
  ⟨h'.support.trans h.support, h'.tick.trans h.tick, h'.episode.trans h.episode, h'.seen.trans h.seen⟩

theorem Elsewhere.accepts (h : Elsewhere s t) (c : CompleteRobotCommand K) : t.accepts c = s.accepts c := by
  unfold ControlState.accepts ControlState.inTime ControlState.regresses
  rw [h.tick, h.episode, h.seen]

end

variable [Field K] [LinearOrder K] {C : Control K} {plant : Plant K}
  {polled : Except Raised (Option (CompleteRobotCommand K))} {s t u : ControlState K}

theorem applyBodyCommand_elsewhere (c : JointCommand K) :
    ⦃fun s => ⌜Elsewhere u s⌝⦄ C.applyBodyCommand plant c
    ⦃post⟨fun _ s => ⌜Elsewhere u s⌝, fun _ s => ⌜Elsewhere u s⌝⟩⦄ := by
  have hkeep : ∀ {s : ControlState K} {indices values}, Elsewhere u s → Elsewhere u (s.writeEffort .body indices values) :=
    fun hs => ⟨hs.support, hs.tick, hs.episode, hs.seen⟩
  mvcgen [Control.applyBodyCommand]
  all_goals exact hkeep (by assumption)

theorem applyHandCommand_elsewhere (c : Option (JointCommand K)) (side : Side) :
    ⦃fun s => ⌜Elsewhere u s⌝⦄ C.applyHandCommand plant c side
    ⦃post⟨fun _ s => ⌜Elsewhere u s⌝, fun _ s => ⌜Elsewhere u s⌝⟩⦄ := by
  have hwrite : ∀ {s : ControlState K} {indices values}, Elsewhere u s →
      Elsewhere u (s.writeEffort (.hand side) indices values) :=
    fun hs => ⟨hs.support, hs.tick, hs.episode, hs.seen⟩
  have hpassive : ∀ {s : ControlState K} {indices}, Elsewhere u s → Elsewhere u (s.writePassive (.hand side) indices) := by
    intro s indices hs
    obtain ⟨e, g, h⟩ := s.writePassive_frame (.hand side) indices
    rw [h]
    exact ⟨hs.support, hs.tick, hs.episode, hs.seen⟩
  mvcgen [Control.applyHandCommand]
  all_goals first
    | exact hpassive (by assumption)
    | exact hwrite (by assumption)

theorem tryCommand_elsewhere :
    ⦃fun s => ⌜Elsewhere u s⌝⦄ C.tryCommand plant polled
    ⦃post⟨fun command s => ⌜Elsewhere u s ∧ ∀ c, command = some c → polled = .ok (some c) ∧ u.accepts c = true⌝,
      fun _ s => ⌜Elsewhere u s⌝⟩⦄ := by
  mvcgen [Control.tryCommand, applyBodyCommand_elsewhere, applyHandCommand_elsewhere]
  case vc1 hs _ _ _ =>
    refine ⟨hs, fun c hc => ?_⟩
    cases hc
  case vc2 hs _ _ _ _ _ _ _ =>
    refine ⟨⟨hs.support, hs.tick, hs.episode, hs.seen⟩, fun c hc => ?_⟩
    cases hc
  case vc6 hs _ _ _ _ hin hreg _ _ h₁ _ _ h₂ _ _ h₃ =>
    refine ⟨hs.trans (h₁.trans (h₂.trans h₃)), fun c hc => ?_⟩
    cases hc
    refine ⟨rfl, (hs.accepts _).symm.trans ?_⟩
    simp [ControlState.accepts, hin, hreg]
  case vc7 hs _ _ _ _ _ _ _ _ h₁ _ _ h₂ _ _ => exact fun h => hs.trans (h₁.trans (h₂.trans h))
  case vc8 hs _ _ _ _ _ _ _ _ h₁ _ _ => exact fun h => hs.trans (h₁.trans h)
  case vc9 hs _ _ _ _ _ _ _ _ => exact fun h => hs.trans h
  case vc10 hs _ _ _ _ _ =>
    refine ⟨hs, fun c hc => ?_⟩
    cases hc
  all_goals exact Elsewhere.refl _

theorem withoutCommand_elsewhere (s : ControlState K) : Elsewhere s (C.withoutCommand s) := by
  unfold Control.withoutCommand
  obtain ⟨e, g, hg⟩ := C.goPassive_frame { s with
    staleTicks := s.staleTicks + 1
    passiveSinceTick := if s.mode = .controlled then some s.tick else s.passiveSinceTick
    mode := .passive }
  rw [hg]
  exact ⟨rfl, rfl, rfl, rfl⟩

/-- What a tick does, by whether it has applied a command. -/
theorem applyControl_ok {command : Option (CompleteRobotCommand K)} (hr : (C.applyControl plant polled).run s = .ok command t) :
    (command = none ∧ Elsewhere s t) ∨
    ∃ c u, command = some c ∧ polled = .ok (some c) ∧ s.accepts c = true ∧ Elsewhere s u ∧ t = C.withCommand c u := by
  rw [Control.applyControl_run] at hr
  cases hc : (C.tryCommand plant polled).run s with
  | ok accepted u =>
    have hu := ok_of_triple (tryCommand_elsewhere (u := s)) (Elsewhere.refl s) hc
    rw [hc] at hr
    cases accepted with
    | none =>
      cases hr
      exact Or.inl ⟨rfl, hu.1.trans (withoutCommand_elsewhere u)⟩
    | some c =>
      cases hr
      obtain ⟨hpolled, hacc⟩ := hu.2 c rfl
      exact Or.inr ⟨c, u, rfl, hpolled, hacc, hu.1, rfl⟩
  | error e u =>
    have hu := error_of_triple (tryCommand_elsewhere (u := s)) (Elsewhere.refl s) hc
    rw [hc] at hr
    cases e with
    | index => cases hr
    | command text =>
      cases hr
      have hrefuse : Elsewhere u (Control.refuse text u) := ⟨rfl, rfl, rfl, rfl⟩
      exact Or.inl ⟨rfl, hu.trans (hrefuse.trans (withoutCommand_elsewhere _))⟩

theorem applyControl_tick {command : Option (CompleteRobotCommand K)} (hr : (C.applyControl plant polled).run s = .ok command t) :
    t.tick = s.tick ∧ t.episodeId = s.episodeId := by
  rcases applyControl_ok hr with ⟨-, h⟩ | ⟨c, u, -, -, -, h, rfl⟩
  · exact ⟨h.tick, h.episode⟩
  · exact ⟨h.tick, h.episode⟩

theorem applyControl_support {command : Option (CompleteRobotCommand K)} (hr : (C.applyControl plant polled).run s = .ok command t) :
    t.support = command.elim s.support fun c => s.support.update C.support C.physicsDt s.tick (some c.body) := by
  rcases applyControl_ok hr with ⟨rfl, h⟩ | ⟨c, u, rfl, -, -, h, rfl⟩
  · exact h.support
  · simp only [Control.withCommand, Option.elim, h.support, h.tick]

end HumanoidLab
