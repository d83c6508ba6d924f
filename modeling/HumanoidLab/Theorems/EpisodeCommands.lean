import HumanoidLab.Simulators.Episodes
import HumanoidLab.Theorems.CommandFreshness
import HumanoidLab.Theorems.ControlTick
import HumanoidLab.Theorems.Layouts
import Mathlib.Data.Rat.Floor

/-! The episode of a command: a DDS provider stamps the episode that it was last told, the scripted controller
    and the replay stamp 0. The sequence of a provider only grows, so a command that is polled in the episode
    that it carries is accepted as long as it is alive. -/

namespace HumanoidLab
open Fallible Concurrency

variable {K σ : Type}

/-! ### The stamps of a provider -/

/-- The commands of a provider carry its `stamp` and its `sequence`. The sequence does not fall, and the stamp
    changes only when the provider reads the episode that it is told. -/
structure Stamps (S : ControllerSource K σ) (reads : Bool) (stamp sequence : σ → Nat) : Prop where
  init : stamp S.init = 0
  publish : ∀ episode tick s, stamp (S.publishState episode tick s) = (if reads then episode else stamp s) ∧
    sequence (S.publishState episode tick s) = sequence s
  poll : ∀ tick taken s, stamp (S.poll tick taken s).2 = stamp s ∧ sequence s ≤ sequence (S.poll tick taken s).2
  command : ∀ tick taken s c, (S.poll tick taken s).1 = .ok (some c) →
    c.episodeId = stamp s ∧ c.sequence = sequence (S.poll tick taken s).2
  close : ∀ s, stamp (S.close s) = stamp s ∧ sequence (S.close s) = sequence s

section
variable {d : Dds K}

theorem receive_sequence (taken : Topic → Option (Taken K)) (s : DdsState K) :
    (s.receive taken).sequence = s.sequence ∧ (s.receive taken).episodeId = s.episodeId := by
  unfold DdsState.receive
  cases taken .body <;> exact ⟨rfl, rfl⟩

theorem maybeReportGap_sequence (tick receivedTick : Int) (s : DdsState K) :
    (d.maybeReportGap tick receivedTick s).sequence = s.sequence := by
  unfold Dds.maybeReportGap
  split <;> rfl

theorem noteClip_sequence (clipped : List (Clip K)) (s : DdsState K) : (Dds.noteClip clipped s).sequence = s.sequence := by
  unfold Dds.noteClip
  split <;> rfl

theorem buildCommand_sequence {m : Taken K} {hands : Side → Option (Taken K)} {episode sequence : Nat} {tick : Int}
    {command : CompleteRobotCommand K} {clipped : List (Clip K)}
    (h : d.buildCommand m hands episode sequence tick = .ok (command, clipped)) : command.sequence = sequence := by
  obtain ⟨⟨v, clips⟩, -, h⟩ := bind_ok h
  obtain ⟨body, hbody, h⟩ := bind_ok h
  obtain ⟨⟨left, leftClipped⟩, -, h⟩ := bind_ok h
  obtain ⟨⟨right, rightClipped⟩, -, h⟩ := bind_ok h
  cases h
  exact (build_fields hbody).2.1

theorem poll_sequence (tick : Int) (taken : Topic → Option (Taken K)) (s : DdsState K) :
    s.sequence ≤ (d.poll tick taken s).2.sequence ∧
    ∀ c, (d.poll tick taken s).1 = .ok (some c) → c.sequence = (d.poll tick taken s).2.sequence := by
  rw [← (receive_sequence taken s).1]
  simp only [Dds.poll]
  generalize s.receive taken = r
  cases r.bodyCommand with
  | none =>
    refine ⟨Nat.le_refl _, fun c hc => ?_⟩
    cases hc
  | some m =>
    by_cases htick : r.commandTick < 0
    · simp only [htick, if_true]
      refine ⟨Nat.le_refl _, fun c hc => ?_⟩
      cases hc
    · simp only [htick, if_false]
      generalize hs' : d.maybeReportGap tick r.commandTick _ = s'
      have hseq : s'.sequence = r.sequence + 1 := by rw [← hs', maybeReportGap_sequence]
      cases hbuild : d.buildCommand m s'.handCommand s'.episodeId s'.sequence s'.commandTick with
      | error e =>
        refine ⟨by simp only [hseq]; omega, fun c hc => ?_⟩
        cases hc
      | ok built =>
        obtain ⟨command, clipped⟩ := built
        have hcommand := buildCommand_sequence hbuild
        refine ⟨?_, fun c hc => ?_⟩
        · simp only
          split <;> simp only [noteClip_sequence, hseq] <;> omega
        · cases hc
          simp only
          split <;> simp only [noteClip_sequence, hcommand]

theorem Dds.stamps (d : Dds K) : Stamps d.source true (·.episodeId) (·.sequence) where
  init := rfl
  publish episode tick s := by
    simp only [Dds.source, DdsState.publishState, if_true]
    split
    · exact ⟨rfl, rfl⟩
    · rename_i h
      exact ⟨(Decidable.not_not.mp h).symm, rfl⟩
  poll tick taken s := ⟨(DdsState.held_eq (poll_held tick taken s).1).2.2.1.trans (receive_sequence taken s).2,
    (poll_sequence tick taken s).1⟩
  command tick taken s c hc := by
    obtain ⟨m, sequence, clipped, -, -, hbuild⟩ := (poll_held tick taken s).2 c hc
    exact ⟨(buildCommand_ok hbuild).1.trans (receive_sequence taken s).2, (poll_sequence tick taken s).2 c hc⟩
  close s := ⟨rfl, rfl⟩

end

theorem Scripted.stamps [Zero K] (c : Scripted K) : Stamps c.source false (fun _ => 0) (·.sequence) where
  init := rfl
  publish _ _ _ := ⟨rfl, rfl⟩
  poll tick _ s := by
    refine ⟨rfl, ?_⟩
    simp only [Scripted.source, Scripted.poll]
    split
    · exact Nat.le_refl _
    · exact Nat.le_succ _
  command tick _ s command hc := by
    simp only [Scripted.source, Scripted.poll] at hc ⊢
    split at hc
    · cases hc
    · obtain ⟨body, hbody, hc⟩ := map_ok hc
      cases hc
      rename_i htick
      simp only [if_neg htick]
      exact ⟨trivial, (build_fields hbody).2.1⟩
  close _ := ⟨rfl, rfl⟩

theorem Trajectory.stamps [Field K] [LinearOrder K] [FloorSemiring K] (c : Trajectory K) :
    Stamps c.source false (fun _ => 0) (·.sequence) where
  init := rfl
  publish _ _ _ := ⟨rfl, rfl⟩
  poll tick _ s := by
    refine ⟨rfl, ?_⟩
    simp only [Trajectory.source, Trajectory.poll]
    split
    · exact Nat.le_refl _
    · exact Nat.le_succ _
  command tick _ s command hc := by
    simp only [Trajectory.source, Trajectory.poll] at hc ⊢
    split at hc
    · cases hc
    · rename_i hclosed
      obtain ⟨command', hbuild, hc⟩ := map_ok hc
      cases hc
      obtain ⟨q, -, hbuild⟩ := bind_ok hbuild
      obtain ⟨dq, -, hbuild⟩ := bind_ok hbuild
      obtain ⟨body, hbody, hbuild⟩ := bind_ok hbuild
      obtain ⟨left, -, hbuild⟩ := bind_ok hbuild
      obtain ⟨right, -, hbuild⟩ := bind_ok hbuild
      obtain ⟨leftHand, -, hbuild⟩ := bind_ok hbuild
      obtain ⟨rightHand, -, hbuild⟩ := bind_ok hbuild
      cases hbuild
      simp only [if_neg hclosed]
      exact ⟨trivial, (build_fields hbody).2.1⟩
  close _ := ⟨rfl, rfl⟩

theorem Provider.stamps [Field K] [LinearOrder K] [FloorSemiring K] (p : Provider K) :
    ∃ stamp sequence, Stamps p.source p.readsEpisode stamp sequence := by
  cases p with
  | sonicDds ttlTicks gapTicks => exact ⟨_, _, (HumanoidLab.sonicDds ttlTicks gapTicks).stamps⟩
  | fluxDds config => exact ⟨_, _, (HumanoidLab.fluxDds config).stamps⟩
  | scripted c => exact ⟨_, _, c.stamps⟩
  | trajectory c => exact ⟨_, _, c.stamps⟩

/-! ### Every run -/

section
variable [Field K] [LinearOrder K] {C : Control K} {S : ControllerSource K σ} {reads : Bool} {stamp sequence : σ → Nat}

/-- The provider stamps the episode that it was told, and has counted as far as the service has seen. -/
structure InStep (reads : Bool) (stamp sequence : σ → Nat) (s : ServiceLoop K σ) : Prop where
  stamp : stamp s.provider = if reads then s.told.getD 0 else 0
  seen : ∀ n ∈ s.control.lastSequenceSeen, n ≤ sequence s.provider

theorem InStep.tick (hS : Stamps S reads stamp sequence) {s s' : ServiceLoop K σ} {plant : Plant K}
    (h : InStep reads stamp sequence s) (hs : s.stepPhysics C S plant = some s') : InStep reads stamp sequence s' := by
  obtain ⟨command, t, hrun, rfl⟩ := ServiceLoop.stepPhysics_some hs
  obtain ⟨hstamp, hle⟩ := hS.poll s.control.tick s.taken s.provider
  obtain ⟨hpublish, hkeep⟩ := hS.publish t.episodeId (t.tick + 1) (s.poll S).2
  refine ⟨?_, fun n hn => ?_⟩
  · simp only [hpublish, Option.getD_some]
    cases reads with
    | true => rfl
    | false => exact hstamp.trans h.stamp
  · simp only [hkeep]
    rcases applyControl_ok hrun with ⟨-, hu⟩ | ⟨c, u, -, hpolled, -, -, rfl⟩
    · exact Nat.le_trans (h.seen n (hu.seen ▸ hn)) hle
    · cases hn
      exact Nat.le_of_eq (hS.command _ _ _ c hpolled).2

/-- In every run the provider is in step. -/
theorem inStep_reach (hS : Stamps S reads stamp sequence) {r : ServiceLoop K σ} (hr : (serviceMachine C S).Reach Machine.Free r) :
    InStep reads stamp sequence r := by
  refine hr.invariant (fun s hs => ?_) fun s a t _ h _ hstep => ?_
  · subst hs
    refine ⟨hS.init.trans ?_, nofun⟩
    cases reads <;> rfl
  · cases a with
    | send u sample =>
      cases hstep
      exact ⟨h.stamp, h.seen⟩
    | deliver i =>
      obtain ⟨⟨u, m⟩, -, hstep⟩ := Option.map_eq_some_iff.mp hstep
      cases hstep
      exact ⟨h.stamp, h.seen⟩
    | tick plant => exact h.tick hS hstep
    | reset =>
      cases hstep
      exact ⟨h.stamp, h.seen⟩
    | close =>
      cases hstep
      obtain ⟨h₁, h₂⟩ := hS.close s.provider
      exact ⟨h₁.trans h.stamp, fun n hn => Nat.le_trans (h.seen n hn) (Nat.le_of_eq h₂.symm)⟩

end

/-- In every run of the service with any of its providers: a command that is polled once the provider was told of
    an episode carries that episode, and is accepted in it for as long as it is alive, exactly when the provider
    reads the episode or the episode is the first one. -/
theorem episode_commands [Field K] [LinearOrder K] [FloorSemiring K] {C : Control K} {p : Provider K}
    {r : ServiceLoop K p.State} (hr : (serviceMachine C p.source).Reach Machine.Free r) {e : Nat} (htold : r.told = some e)
    {c : CompleteRobotCommand K} (hc : (r.poll p.source).1 = .ok (some c)) :
    (c.episodeId = e ∧ (r.control.episodeId = e → r.control.accepts c = c.isValidAt r.control.tick)) ↔
      p.readsEpisode = true ∨ e = 0 := by
  obtain ⟨stamp, sequence, hS⟩ := p.stamps
  obtain ⟨hstamp, hseen⟩ := inStep_reach hS hr
  obtain ⟨hepisode, hsequence⟩ := hS.command _ _ _ c hc
  rw [hstamp, htold, Option.getD_some] at hepisode
  have hid : c.episodeId = e ↔ p.readsEpisode = true ∨ e = 0 := by
    rw [hepisode]
    cases p.readsEpisode <;> simp [eq_comm]
  refine ⟨fun h => hid.mp h.1, fun h => ⟨hid.mpr h, fun he => ?_⟩⟩
  -- The service has seen no sequence that the provider has yet to reach.
  have hregress : r.control.regresses c = false := by
    unfold ControlState.regresses
    cases hlast : r.control.lastSequenceSeen with
    | none => rfl
    | some n =>
      have hle := Nat.le_trans (hseen n hlast) (hS.poll r.control.tick r.taken r.provider).2
      simp only [Option.any_some, decide_eq_false_iff_not, Nat.not_lt, hsequence]
      exact hle
  simp [ControlState.accepts, ControlState.inTime, hregress, hid.mpr h, he]

/-! ### A pose that is held -/

/-- The robot without hands: 29 joints, 50 Nm each. -/
def bodyBinding : Binding ℚ where
  asset := ⟨bodyJointOrder, "", []⟩
  body := ⟨bodyJointOrder, List.range 29⟩
  hands _ := none
  bodyLimits := List.replicate 29 50
  handLimits _ := none

theorem body_resolved : bodyBinding.Resolved := by
  have hids : bodyBinding.asset.bodyIds = List.range 29 := by decide +kernel
  refine ⟨⟨rfl, ?_, List.nodup_range, rfl, ?_⟩, ?_, Or.inl fun _ => rfl⟩
  · exact hids ▸ List.Subset.refl _
  · simp [bodyBinding]
  · exact hids ▸ List.Subset.refl _

def bodyControl : Control ℚ where
  toBinding := bodyBinding
  resolved := body_resolved
  physicsDt := 1 / 200
  dt_positive := physics_dt_positive
  support := none

/-- The scripted controller, which holds the zero pose for a thousand ticks. -/
def holdPose : Provider ℚ :=
  .scripted ⟨10, 1000, bodyJointOrder, List.replicate 29 (.fin 0), List.replicate 29 (.fin 40), List.replicate 29 (.fin 2)⟩

def holdMachine : Machine (ServiceLoop ℚ holdPose.State) (ServiceInput ℚ) := serviceMachine bodyControl holdPose.source

def holdStart : ServiceLoop ℚ holdPose.State := ⟨bodyControl.started, holdPose.source.init, none, [], fun _ => [], []⟩

/-- The episodes that the provider was told of, and that its next command carries. -/
def ServiceLoop.episodes (s : ServiceLoop ℚ holdPose.State) : Option Nat × Option Nat :=
  (s.told, (s.poll holdPose.source).1.toOption.join.map (·.episodeId))

theorem episodes_poll {s : ServiceLoop ℚ holdPose.State} {e n : Nat} (h : s.episodes = (some e, some n)) :
    s.told = some e ∧ ∃ c, (s.poll holdPose.source).1 = .ok (some c) ∧ c.episodeId = n := by
  obtain ⟨htold, hc⟩ := Prod.mk.inj h
  obtain ⟨c, hc, hn⟩ := Option.map_eq_some_iff.mp hc
  refine ⟨htold, c, ?_, hn⟩
  cases hp : (s.poll holdPose.source).1 with
  | error _ => simp [hp, Except.toOption] at hc
  | ok polled =>
    rw [hp] at hc
    exact congrArg _ hc

/-- After a reset the provider was told of episode 1, and its command carries episode 0. -/
theorem scripted_keeps_episode_zero : ∃ r c, holdMachine.run holdStart [.tick smallPlant, .reset, .tick smallPlant] = some r ∧
    r.told = some 1 ∧ (r.poll holdPose.source).1 = .ok (some c) ∧ c.episodeId ≠ 1 ∧ r.control.accepts c = false := by
  have hrun : (holdMachine.run holdStart [.tick smallPlant, .reset, .tick smallPlant]).map
      (fun r => (r.episodes, r.control.episodeId)) = some ((some 1, some 0), 1) := by
    decide +kernel
  obtain ⟨r, hr, h⟩ := Option.map_eq_some_iff.mp hrun
  obtain ⟨h, hepisode⟩ := Prod.mk.inj h
  obtain ⟨htold, c, hc, hzero⟩ := episodes_poll h
  refine ⟨r, c, hr, htold, hc, by simp [hzero], ?_⟩
  simp [ControlState.accepts, ControlState.inTime, hzero, hepisode]

/-- The SONIC controller, which reads the episode that it is told. -/
def readsStamp : Provider ℚ := .sonicDds 10 1000

/-- A message that asks the 29 joints to stay. -/
def stayMessage : Sample ℚ := .message (List.replicate 29 ⟨.fin 0, .fin 0, .fin 0, .fin 40, .fin 2⟩)

/-- One message is sent before the reset and one after it. -/
def stampedRun : List (ServiceInput ℚ) :=
  [.tick smallPlant, .send .body stayMessage, .deliver 0, .tick smallPlant, .reset, .tick smallPlant, .send .body stayMessage,
    .deliver 0]

/-- After a reset the command of the SONIC controller is accepted in the new episode. -/
theorem episode_commands_first : ∃ r c, (serviceMachine bodyControl readsStamp.source).Reach Machine.Free r ∧
    r.told = some 1 ∧ (r.poll readsStamp.source).1 = .ok (some c) ∧ r.control.episodeId = 1 ∧
    c.episodeId = 1 ∧ r.control.accepts c = c.isValidAt r.control.tick := by
  have hrun : ((serviceMachine bodyControl readsStamp.source).run
      ⟨bodyControl.started, readsStamp.source.init, none, [], fun _ => [], []⟩ stampedRun).map
      (fun r => ((r.told, (r.poll readsStamp.source).1.toOption.join.isSome), r.control.episodeId)) = some ((some 1, true), 1) := by
    decide +kernel
  obtain ⟨r, hr, h⟩ := Option.map_eq_some_iff.mp hrun
  obtain ⟨h, hepisode⟩ := Prod.mk.inj h
  obtain ⟨htold, hsome⟩ := Prod.mk.inj h
  obtain ⟨c, hc⟩ : ∃ c, (r.poll readsStamp.source).1 = .ok (some c) := by
    cases hp : (r.poll readsStamp.source).1 with
    | error _ => simp [hp, Except.toOption] at hsome
    | ok polled =>
      rw [hp] at hsome
      exact (Option.isSome_iff_exists.mp hsome).imp fun c hc => congrArg _ hc
  have hreach : (serviceMachine bodyControl readsStamp.source).Reach Machine.Free r :=
    ⟨_, rfl, Machine.path_of_run hr (Machine.meets_free _ _)⟩
  have h := (episode_commands hreach htold hc).mpr (Or.inl rfl)
  exact ⟨r, c, hreach, htold, hc, hepisode, h.1, h.2 hepisode⟩

end HumanoidLab
