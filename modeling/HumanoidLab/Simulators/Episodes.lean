import HumanoidLab.Controllers.Sources
import HumanoidLab.Simulators.Control

/-! The service loop with its controller and the network between them (`simulators/isaac/service.py`,
    `_step_physics` and `reset_episode`): a message takes its time from the sender to the reader of its topic,
    a tick polls the controller, applies what it returns and publishes the state, and a reset tells the
    controller nothing. -/

namespace HumanoidLab

/-- A message that was sent, with the episode and the tick of the simulator at that time. It carries neither. -/
structure Sent (K : Type) where
  sample : Sample K
  episode : Nat
  tick : Nat
  deriving DecidableEq, Repr

section
variable {K : Type}

/-- The newest valid message of a batch (`_take_newest`), with what is known of its sending. -/
def newest : List (Sent K) → Option (Taken K)
  | [] => none
  | ⟨.message m, episode, tick⟩ :: sent => (newest sent).or (some ⟨m, episode, tick⟩)
  | ⟨.invalid, _, _⟩ :: sent => newest sent

theorem newest_message (sent : List (Sent K)) : (newest sent).map (·.message) = takeNewest (sent.map (·.sample)) := by
  induction sent with
  | nil => rfl
  | cons m sent ih =>
    obtain ⟨sample, episode, tick⟩ := m
    cases sample with
    | invalid => exact ih
    | message m =>
      simp only [List.map_cons, takeNewest, newest, ← ih]
      cases newest sent <;> rfl

/-- What is taken was sent. -/
theorem newest_mem {sent : List (Sent K)} {m : Taken K} (h : newest sent = some m) :
    ⟨.message m.message, m.episode, m.tick⟩ ∈ sent := by
  induction sent with
  | nil => cases h
  | cons x sent ih =>
    obtain ⟨sample, episode, tick⟩ := x
    cases sample with
    | invalid => exact List.mem_cons_of_mem _ (ih h)
    | message x =>
      rcases Option.or_eq_some_iff.mp h with h | ⟨-, h⟩
      · exact List.mem_cons_of_mem _ (ih h)
      · cases h
        exact List.mem_cons_self

/-- A command that a tick applied, with the episode of the tick and the messages that the provider held. -/
structure AppliedCommand (K : Type) where
  episode : Nat
  command : CompleteRobotCommand K
  holding : Topic → Option (Taken K)

/-- The service, its provider with the episode that it was last told of, the messages in flight and those that
    wait in the readers, and the commands that were applied, newest first. -/
structure ServiceLoop (K σ : Type) where
  control : ControlState K
  provider : σ
  told : Option Nat := none
  flight : List (Topic × Sent K) := []
  readers : Topic → List (Sent K) := fun _ => []
  applied : List (AppliedCommand K) := []

/-- What happens: the controller sends a message, a message arrives, and the loop ticks, resets or closes. -/
inductive ServiceInput (K : Type)
  | send (t : Topic) (sample : Sample K)
  | deliver (i : Nat)
  | tick (plant : Plant K)
  | reset
  | close

namespace ServiceLoop

variable {σ : Type}

/-- What a poll takes off a topic now. -/
def taken (s : ServiceLoop K σ) (t : Topic) : Option (Taken K) := newest ((s.readers t).take readBatch)

/-- `poll` at the simulator's tick: what it returns or raises, and the provider after it. -/
def poll (S : ControllerSource K σ) (s : ServiceLoop K σ) : Except Raised (Option (CompleteRobotCommand K)) × σ :=
  S.poll s.control.tick s.taken s.provider

variable [Field K] [LinearOrder K]

/-- `_step_physics`, which ends the loop when it raises. -/
def stepPhysics (C : Control K) (S : ControllerSource K σ) (plant : Plant K) (s : ServiceLoop K σ) : Option (ServiceLoop K σ) :=
  match (C.applyControl plant (s.poll S).1).run s.control with
  | .error _ _ => none
  | .ok command t => some { s with
      control := { t with tick := t.tick + 1 }
      provider := S.publishState t.episodeId (t.tick + 1) (s.poll S).2
      told := some t.episodeId
      readers := fun u => (s.readers u).drop readBatch
      applied := command.elim s.applied fun c => ⟨s.control.episodeId, c, S.holding (s.poll S).2⟩ :: s.applied }

theorem stepPhysics_some {C : Control K} {S : ControllerSource K σ} {plant : Plant K} {s s' : ServiceLoop K σ}
    (h : s.stepPhysics C S plant = some s') : ∃ command t, (C.applyControl plant (s.poll S).1).run s.control = .ok command t ∧
      s' = { s with
        control := { t with tick := t.tick + 1 }
        provider := S.publishState t.episodeId (t.tick + 1) (s.poll S).2
        told := some t.episodeId
        readers := fun u => (s.readers u).drop readBatch
        applied := command.elim s.applied fun c => ⟨s.control.episodeId, c, S.holding (s.poll S).2⟩ :: s.applied } := by
  unfold stepPhysics at h
  split at h
  · cases h
  · cases h
    exact ⟨_, _, by assumption, rfl⟩

end ServiceLoop

/-- The machine of the service loop with a controller. -/
def serviceMachine {σ : Type} [Field K] [LinearOrder K] (C : Control K) (S : ControllerSource K σ) :
    Concurrency.Machine (ServiceLoop K σ) (ServiceInput K) where
  init s := s = ⟨C.started, S.init, none, [], fun _ => [], []⟩
  step s
    | .send t sample => some { s with flight := s.flight ++ [(t, ⟨sample, s.control.episodeId, s.control.tick⟩)] }
    | .deliver i => s.flight[i]?.map fun (t, m) =>
      { s with flight := s.flight.eraseIdx i, readers := Function.update s.readers t (s.readers t ++ [m]) }
    | .tick plant => s.stepPhysics C S plant
    | .reset => some { s with control := C.resetEpisode s.control }
    | .close => some { s with provider := S.close s.provider }

end
end HumanoidLab
