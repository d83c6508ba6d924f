import HumanoidLab.Theorems.EpisodeCommands

/-! The messages behind the commands that are applied. A message carries no episode: what waits in a reader when
    the provider is told of an episode is stamped with that episode, whenever it was sent. No command of an
    earlier episode is applied as long as no such message is taken. -/

namespace HumanoidLab
open Fallible Concurrency

variable {K : Type} {d : Dds K}

/-- The parts of a command came from messages that were sent in the episode in which it was applied. -/
structure AppliedCommand.Own (d : Dds K) (e : AppliedCommand K) : Prop where
  body : ∃ m, e.holding .body = some m ∧ CameFrom (d.bodyVectors m.message) e.command.body ∧ m.episode = e.episode
  hand : ∀ side c, e.command.hand side = some c →
    ∃ m, e.holding (.hand side) = some m ∧ CameFrom (d.handVectors side m.message) c ∧ m.episode = e.episode

/-- Once the provider was told of the present episode, a tick takes only messages that were sent in it. -/
def NothingLate (s : ServiceLoop K (DdsState K)) : ServiceInput K → Prop
  | .tick _ => s.told = some s.control.episodeId → ∀ t, ∀ m ∈ s.taken t, m.episode = s.control.episodeId
  | _ => True

/-! ### What is held -/

theorem receive_holding (taken : Topic → Option (Taken K)) (s : DdsState K) (t : Topic) :
    (s.receive taken).holding t = (taken t).or (s.holding t) := by
  cases t with
  | body =>
    simp only [DdsState.receive, DdsState.holding]
    cases taken .body <;> rfl
  | hand side =>
    simp only [DdsState.receive, DdsState.holding]
    cases taken .body <;> rfl

theorem holding_eq {s t : DdsState K} (h : s.held = t.held) : s.holding = t.holding := by
  obtain ⟨h₁, h₂, -⟩ := DdsState.held_eq h
  funext u
  cases u with
  | body => exact h₁
  | hand side => exact congrFun h₂ side

theorem poll_made {tick : Int} {taken : Topic → Option (Taken K)} {s : DdsState K} {c : CompleteRobotCommand K}
    (h : (d.poll tick taken s).1 = .ok (some c)) : c.episodeId = s.episodeId ∧
    (∃ m, (d.poll tick taken s).2.holding .body = some m ∧ CameFrom (d.bodyVectors m.message) c.body) ∧
    ∀ side jc, c.hand side = some jc → ∃ m, (d.poll tick taken s).2.holding (.hand side) = some m ∧
      CameFrom (d.handVectors side m.message) jc := by
  obtain ⟨hheld, hmade⟩ := poll_held (d := d) tick taken s
  obtain ⟨m, sequence, clipped, hm, -, hbuild⟩ := hmade c h
  obtain ⟨hepisode, hbody, -, hhands⟩ := buildCommand_ok hbuild
  rw [holding_eq hheld]
  refine ⟨hepisode.trans (receive_sequence taken s).2, ⟨m, hm, hbody⟩, fun side jc hc => ?_⟩
  rcases hhands side with ⟨-, hnone⟩ | ⟨m', jc', hm', hc', hfrom, -⟩
  · rw [hnone] at hc
    cases hc
  · rw [hc'] at hc
    cases hc
    exact ⟨m', hm', hfrom⟩

/-! ### Every run -/

/-- The provider knows the episode that it was told and no later one, and when it knows the present episode it
    holds messages of this episode alone. -/
structure Separate (d : Dds K) (s : ServiceLoop K (DdsState K)) : Prop where
  told : s.provider.episodeId = s.told.getD 0
  behind : s.provider.episodeId ≤ s.control.episodeId
  flight : ∀ t m, (t, m) ∈ s.flight → m.episode ≤ s.control.episodeId
  readers : ∀ t, ∀ m ∈ s.readers t, m.episode ≤ s.control.episodeId
  held : s.provider.episodeId = s.control.episodeId → ∀ t m, s.provider.holding t = some m → m.episode = s.control.episodeId
  applied : ∀ e ∈ s.applied, e.Own d

variable {s s' : ServiceLoop K (DdsState K)}

theorem Separate.polled (h : Separate d s) {plant : Plant K} (hlate : NothingLate s (.tick plant))
    (hknown : s.provider.episodeId = s.control.episodeId) {t : Topic} {m : Taken K}
    (hm : (s.poll d.source).2.holding t = some m) : m.episode = s.control.episodeId := by
  have hpoll : (s.poll d.source).2.holding = (s.provider.receive s.taken).holding := holding_eq (poll_held _ _ _).1
  rw [hpoll, receive_holding] at hm
  rcases Option.or_eq_some_iff.mp hm with hm | ⟨-, hm⟩
  · cases htold : s.told with
    | some e =>
      have he : e = s.control.episodeId := by
        rw [← hknown, h.told, htold]
        rfl
      exact hlate (htold.trans (congrArg _ he)) t m hm
    | none =>
      -- Before anything is published the episode is the first one.
      have hzero : s.control.episodeId = 0 := by
        rw [← hknown, h.told, htold]
        rfl
      have hle := h.readers t _ (List.mem_of_mem_take (newest_mem hm))
      rw [hzero] at hle ⊢
      exact Nat.le_zero.mp hle
  · exact h.held hknown t m hm

section
variable [Field K] [LinearOrder K] {C : Control K}

theorem Separate.tick (h : Separate d s) {plant : Plant K} (hlate : NothingLate s (.tick plant))
    (hs : s.stepPhysics C d.source plant = some s') : Separate d s' := by
  obtain ⟨command, t, hrun, rfl⟩ := ServiceLoop.stepPhysics_some hs
  have hepisode : t.episodeId = s.control.episodeId := (applyControl_tick hrun).2
  have hid : (s.poll d.source).2.episodeId = s.provider.episodeId := (d.stamps.poll _ _ _).1
  refine ⟨(d.stamps.publish _ _ _).1, Nat.le_of_eq (d.stamps.publish _ _ _).1, ?_, ?_, ?_, ?_⟩
  · intro u m hm
    exact Nat.le_trans (h.flight u m hm) (Nat.le_of_eq hepisode.symm)
  · intro u m hm
    exact Nat.le_trans (h.readers u m (List.mem_of_mem_drop hm)) (Nat.le_of_eq hepisode.symm)
  · intro _ u m hm
    simp only [Dds.source, DdsState.publishState] at hm
    split at hm
    · cases u <;> cases hm
    · rename_i hsame
      have hknown : s.provider.episodeId = s.control.episodeId := hid.symm.trans ((Decidable.not_not.mp hsame).symm.trans hepisode)
      exact (h.polled hlate hknown hm).trans hepisode.symm
  · rcases applyControl_ok hrun with ⟨rfl, -⟩ | ⟨c, u, rfl, hpolled, haccept, -, -⟩
    · exact h.applied
    · intro e he
      rcases List.mem_cons.mp he with rfl | he
      · obtain ⟨hc, ⟨m, hm, hbody⟩, hhands⟩ := poll_made hpolled
        have hknown : s.provider.episodeId = s.control.episodeId := by
          simp only [ControlState.accepts, ControlState.inTime, Bool.and_eq_true, decide_eq_true_eq] at haccept
          exact hc.symm.trans haccept.1.1
        refine ⟨⟨m, hm, hbody, h.polled hlate hknown hm⟩, fun side jc hjc => ?_⟩
        obtain ⟨m', hm', hfrom⟩ := hhands side jc hjc
        exact ⟨m', hm', hfrom, h.polled hlate hknown hm'⟩
      · exact h.applied e he

theorem separate_reach (hr : (serviceMachine C d.source).Reach NothingLate s) : Separate d s := by
  refine hr.invariant (fun s hs => ?_) fun s a t _ h hlate hstep => ?_
  · subst hs
    refine ⟨rfl, Nat.le_refl _, nofun, nofun, fun _ u m hm => ?_, nofun⟩
    cases u <;> cases hm
  · cases a with
    | send u sample =>
      cases hstep
      refine ⟨h.told, h.behind, fun v m hm => ?_, h.readers, h.held, h.applied⟩
      rcases List.mem_append.mp hm with hm | hm
      · exact h.flight v m hm
      · cases List.mem_singleton.mp hm
        exact Nat.le_refl _
    | deliver i =>
      obtain ⟨⟨u, m⟩, hi, hstep⟩ := Option.map_eq_some_iff.mp hstep
      cases hstep
      refine ⟨h.told, h.behind, fun v m' hm => h.flight v m' (List.mem_of_mem_eraseIdx hm), fun v m' hm => ?_, h.held, h.applied⟩
      by_cases hv : v = u
      · subst hv
        simp only [Function.update_self] at hm
        rcases List.mem_append.mp hm with hm | hm
        · exact h.readers v m' hm
        · cases List.mem_singleton.mp hm
          exact h.flight v m (List.mem_of_getElem? hi)
      · simp only [Function.update_of_ne hv] at hm
        exact h.readers v m' hm
    | tick plant => exact h.tick hlate hstep
    | reset =>
      cases hstep
      have hlt : s.provider.episodeId ≠ s.control.episodeId + 1 := Nat.ne_of_lt (Nat.lt_succ_of_le h.behind)
      exact ⟨h.told, Nat.le_succ_of_le h.behind, fun v m hm => Nat.le_succ_of_le (h.flight v m hm),
        fun v m hm => Nat.le_succ_of_le (h.readers v m hm), fun hknown => absurd hknown hlt, h.applied⟩
    | close =>
      cases hstep
      refine ⟨h.told, h.behind, h.flight, h.readers, fun _ u m hm => ?_, h.applied⟩
      cases u <;> cases hm

/-- In every run whose ticks take no message of an earlier episode once the provider was told of the present one,
    each command that is applied came from messages that were sent in the episode in which it was applied. -/
theorem no_cross_episode {r : ServiceLoop K (DdsState K)} (hr : (serviceMachine C d.source).Reach NothingLate r) :
    ∀ e ∈ r.applied, e.Own d :=
  (separate_reach hr).applied

end

/-! ### A message that is late -/

instance {p : Topic → Prop} [DecidablePred p] : Decidable (∀ t, p t) :=
  decidable_of_iff (p .body ∧ p (.hand .left) ∧ p (.hand .right)) ⟨fun ⟨h₁, h₂, h₃⟩ t => match t with
    | .body => h₁
    | .hand .left => h₂
    | .hand .right => h₃, fun h => ⟨h _, h _, h _⟩⟩

instance (s : ServiceLoop K (DdsState K)) : ∀ a, Decidable (NothingLate s a)
  | .tick _ => inferInstanceAs (Decidable (_ → ∀ t, ∀ m ∈ s.taken t, m.episode = s.control.episodeId))
  | .send .. | .deliver _ | .reset | .close => .isTrue trivial

def sonicMachine : Machine (ServiceLoop ℚ (DdsState ℚ)) (ServiceInput ℚ) := serviceMachine bodyControl (sonicDds 10 1000).source

def sonicStart : ServiceLoop ℚ (DdsState ℚ) := ⟨bodyControl.started, {}, none, [], fun _ => [], []⟩

/-- The episodes of the last command that was applied, and of the message behind its body. -/
def ServiceLoop.lastApplied (s : ServiceLoop ℚ (DdsState ℚ)) : Option (Nat × Option Nat) :=
  s.applied.head?.map fun e => (e.episode, (e.holding .body).map (·.episode))

/-- A message that arrives once the provider was told of the new episode is applied in it. -/
theorem late_message_applied : ¬∀ (C : Control ℚ) (ttlTicks : Nat) (gapTicks : Int) (r : ServiceLoop ℚ (DdsState ℚ)),
    (serviceMachine C (sonicDds ttlTicks gapTicks).source).Reach Machine.Free r → ∀ e ∈ r.applied, e.Own (sonicDds ttlTicks gapTicks) := by
  intro h
  have hrun : (sonicMachine.run sonicStart [.tick smallPlant, .send .body stayMessage, .reset, .tick smallPlant, .deliver 0,
      .tick smallPlant]).map (·.lastApplied) = some (some (1, some 0)) := by
    decide +kernel
  obtain ⟨r, hr, hlast⟩ := Option.map_eq_some_iff.mp hrun
  obtain ⟨e, he, hlast⟩ := Option.map_eq_some_iff.mp hlast
  obtain ⟨hone, hzero⟩ := Prod.mk.inj hlast
  obtain ⟨m, hm, hzero⟩ := Option.map_eq_some_iff.mp hzero
  obtain ⟨m', hm', -, hown⟩ :=
    (h bodyControl 10 1000 r ⟨_, rfl, Machine.path_of_run hr (Machine.meets_free _ _)⟩ e (List.mem_of_mem_head? he)).body
  cases hm.symm.trans hm'
  omega

/-- At the reset one message is cached and another waits in its reader; the next one is sent in the new episode. -/
def promptRun : List (ServiceInput ℚ) :=
  [.tick smallPlant, .send .body stayMessage, .deliver 0, .tick smallPlant, .send .body stayMessage, .deliver 0, .reset,
    .tick smallPlant, .send .body stayMessage, .deliver 0, .tick smallPlant]

/-- What waits or is cached over a reset is dropped, and a message that arrives in its own episode is applied there. -/
theorem no_cross_episode_prompt : ∃ r e, sonicMachine.run sonicStart promptRun = some r ∧ e ∈ r.applied ∧ e.episode = 1 ∧
    e.Own (sonicDds 10 1000) := by
  have hrun : (sonicMachine.run sonicStart promptRun).map (·.lastApplied) = some (some (1, some 1)) := by decide +kernel
  obtain ⟨r, hr, hlast⟩ := Option.map_eq_some_iff.mp hrun
  obtain ⟨e, he, hlast⟩ := Option.map_eq_some_iff.mp hlast
  have hmeets : sonicMachine.Meets NothingLate sonicStart promptRun := by decide +kernel
  have hmem := List.mem_of_mem_head? he
  exact ⟨r, e, hr, hmem, (Prod.mk.inj hlast).1, no_cross_episode ⟨_, rfl, Machine.path_of_run hr hmeets⟩ e hmem⟩

end HumanoidLab
