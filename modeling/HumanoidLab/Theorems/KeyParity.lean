import HumanoidLab.Theorems.SwitchFailure

/-! The `p` key of the VLA client is a toggle: the controller's RUNNING and the parity of the keys sent to
    the client agree between calls, unless a running model is started again or a stop finds the group dead. -/

namespace HumanoidLab
open Std.Do Fallible Concurrency

set_option mvcgen.warning false

namespace GrootGroup

/-- The number of `p` keys since the group was last started. -/
def presses (g : GrootGroup) : Nat := g.keys.count .p

/-- A client that started paused is paused. -/
def Even (g : GrootGroup) : Prop := g.presses % 2 = 0

@[spec] theorem stop_even (o : GrootStop) :
    ⦃fun g => ⌜g.Even⌝⦄ stop o ⦃post⟨fun _ g => ⌜g.Even⌝, fun _ g => ⌜g.Even⌝⟩⦄ := by
  mvcgen [stop, lift]

@[spec] theorem wait_even (server vla : Bool) :
    ⦃fun g => ⌜g.Even⌝⦄ wait server vla ⦃post⟨fun _ g => ⌜g.Even⌝, fun _ g => ⌜g.Even⌝⟩⦄ := by
  mvcgen [wait]

@[spec] theorem waitServer_even (o : GrootStart) :
    ⦃fun g => ⌜g.Even⌝⦄ waitServer o ⦃post⟨fun _ g => ⌜g.Even⌝, fun _ g => ⌜g.Even⌝⟩⦄ := by
  mvcgen [waitServer]

@[spec] theorem start_even (o : GrootStart) :
    ⦃fun g => ⌜g.Even⌝⦄ start o ⦃post⟨fun _ g => ⌜g.Even⌝, fun _ g => ⌜g.Even⌝⟩⦄ := by
  mvcgen [start, serve, join, lift]

end GrootGroup

@[simp] theorem Controller.halt_state (c : Controller) : c.halt.state ≠ .running := by
  unfold halt
  split <;> simp_all

namespace System

/-- What holds between two calls. -/
def Paired (w : System) : Prop :=
  match w.controller.selected.kind with
  | .psi => w.groot.Even
  | .groot => w.groot.presses % 2 = 1 ↔ w.controller.state = .running

/-- The client is paused and the controller does not run. -/
def Quiet (w : System) : Prop := w.groot.Even ∧ w.controller.state ≠ .running

theorem Quiet.paired {w : System} (h : w.Quiet) : w.Paired := by
  obtain ⟨he, hs⟩ := h
  unfold Paired
  split
  · exact he
  · simp [GrootGroup.Even] at he
    simp [he, hs]

/-! ### What the pieces of the calls keep -/

theorem onGroot_quiet {α : Type} {x : GrootGroup.Op α}
    (hx : ⦃fun g => ⌜g.Even⌝⦄ x ⦃post⟨fun _ g => ⌜g.Even⌝, fun _ g => ⌜g.Even⌝⟩⦄) :
    ⦃fun w => ⌜w.Quiet⌝⦄ onGroot x ⦃post⟨fun _ w => ⌜w.Quiet⌝, fun _ w => ⌜w.Quiet⌝⟩⦄ := by
  have h := onGroot_frame (R := fun w => w.controller.state ≠ .running) (fun _ _ h => h) hx
  mvcgen [h]
  case vc1.pre h => exact ⟨h.2, h.1⟩
  case vc2.post.success => exact fun hs he => ⟨he, hs⟩
  case vc3.post.except.handle => exact fun hs he => ⟨he, hs⟩

theorem sendKey_quiet (key : Key) (hk : key ≠ .p) :
    ⦃fun w => ⌜w.Quiet⌝⦄ sendKey key ⦃post⟨fun _ w => ⌜w.Quiet⌝, fun _ w => ⌜w.Quiet⌝⟩⦄ := by
  refine onGroot_quiet ?_
  mvcgen
  simp_all +zetaDelta [GrootGroup.Even, GrootGroup.presses]

/-- The keys of `_prepare_groot` are not `p`. -/
@[spec] theorem prepareGroot_quiet (o : Prepare) :
    ⦃fun w => ⌜w.Quiet⌝⦄ prepareGroot o ⦃post⟨fun _ w => ⌜w.Quiet⌝, fun _ w => ⌜w.Quiet⌝⟩⦄ := by
  have wait := onGroot_quiet (GrootGroup.wait_even o.serverSurvives o.vlaSurvives)
  have k := sendKey_quiet .k (by decide)
  have i := sendKey_quiet .i (by decide)
  mvcgen [prepareGroot, onRouter, k, i, wait]

@[spec] theorem stopBackend_quiet (o : BackendStop) (e : ModelEntry) :
    ⦃fun w => ⌜w.Quiet⌝⦄ stopBackend o e ⦃post⟨fun _ w => ⌜w.Quiet⌝, fun _ w => ⌜w.Quiet⌝⟩⦄ := by
  have group := onGroot_quiet (GrootGroup.stop_even o.groot)
  mvcgen [stopBackend, group]

@[spec] theorem startBackend_quiet (o : BackendStart) (e : ModelEntry) :
    ⦃fun w => ⌜w.Quiet⌝⦄ startBackend o e ⦃post⟨fun _ w => ⌜w.Quiet⌝, fun _ w => ⌜w.Quiet⌝⟩⦄ := by
  have group := onGroot_quiet (GrootGroup.start_even o.groot)
  mvcgen [startBackend, group]

@[spec] theorem rollback_quiet (o : BackendStart) (e : ModelEntry) :
    ⦃fun w => ⌜w.Quiet⌝⦄ rollback o e ⦃post⟨fun _ w => ⌜w.Quiet⌝, fun _ w => ⌜w.Quiet⌝⟩⦄ := by
  mvcgen [rollback]

@[spec] theorem stopGroup_quiet (o : GrootStop) (e : ModelEntry) :
    ⦃fun w => ⌜w.Quiet⌝⦄ stopGroup o e ⦃post⟨fun _ w => ⌜w.Quiet⌝, fun _ w => ⌜w.Quiet⌝⟩⦄ := by
  have group := onGroot_quiet (GrootGroup.stop_even o)
  mvcgen [stopGroup, group]

@[spec] theorem startGroup_quiet (o : Reset) (e : ModelEntry) :
    ⦃fun w => ⌜w.Quiet⌝⦄ startGroup o e ⦃post⟨fun _ w => ⌜w.Quiet⌝, fun _ w => ⌜w.Quiet⌝⟩⦄ := by
  have group := onGroot_quiet (GrootGroup.start_even o.groot)
  mvcgen [startGroup, group]

@[spec] theorem armSettle_quiet (e : ModelEntry) :
    ⦃fun w => ⌜w.Quiet⌝⦄ armSettle e ⦃post⟨fun _ w => ⌜w.Quiet⌝, fun _ w => ⌜w.Quiet⌝⟩⦄ := by
  mvcgen [armSettle]

theorem Quiet.setController {w : System} {c : Controller} (h : w.Quiet) (hc : c.state ≠ .running) :
    (w.setController c).Quiet := ⟨h.1, hc⟩

@[spec] theorem resetDone_quiet (o : Reset) (e : ModelEntry) :
    ⦃fun w => ⌜w.Quiet⌝⦄ resetDone o e ⦃post⟨fun _ w => ⌜w.Quiet⌝, fun _ w => ⌜w.Quiet⌝⟩⦄ := by
  mvcgen [resetDone]
  all_goals exact Quiet.setController ‹_› (by simp)

/-! ### The calls -/

/-- A stop that finds a running GR00T model finds its group alive. -/
def StopHeard (w : System) : Prop :=
  w.controller.selected.kind = .groot → w.controller.state = .running → w.groot.alive = true

/-- A start does not find a GR00T model running. -/
def StartFresh (w : System) : Prop :=
  w.controller.selected.kind = .groot → w.groot.alive = true → w.controller.state ≠ .running

@[spec] theorem stop_quiet :
    ⦃fun w => ⌜w.Paired ∧ w.StopHeard⌝⦄ stop ⦃post⟨fun _ w => ⌜w.Quiet⌝, fun _ _ => ⌜False⌝⟩⦄ := by
  mvcgen [stop, sendKey, onGroot]
  case vc1.h_1 w h _ _ hk _ _ =>
    have hk : w.controller.selected.kind = .psi := hk
    have he := h.1
    simp only [Paired, hk] at he
    exact ⟨he, Controller.halt_state _⟩
  case vc2.h_2.isTrue w h _ _ hk hsend _ _ =>
    have hk : w.controller.selected.kind = .groot := hk
    have hs : w.controller.state = .running := hsend.1
    have hodd := h.1
    simp only [Paired, hk, hs, iff_true] at hodd
    refine ⟨?_, Controller.halt_state _⟩
    show (Key.p :: w.groot.keys).count .p % 2 = 0
    rw [List.count_cons_self]
    simp only [GrootGroup.presses] at hodd
    omega
  case vc3.h_2.isFalse w h _ _ hk hsend _ =>
    have hk : w.controller.selected.kind = .groot := hk
    have hsend : ¬(w.controller.state = .running ∧ w.groot.alive = true) := hsend
    -- A model that runs would have been heard.
    have hs : w.controller.state ≠ .running := fun hs => hsend ⟨hs, h.2 hk hs⟩
    have hodd := h.1
    simp only [Paired, hk, hs, iff_false] at hodd
    have he : w.groot.Even := by simpa [GrootGroup.Even] using hodd
    exact ⟨he, Controller.halt_state _⟩

@[spec] theorem change_quiet (o : Switch) (previous target : ModelEntry) :
    ⦃fun w => ⌜w.Paired ∧ w.StopHeard⌝⦄ change o previous target
    ⦃post⟨fun _ w => ⌜w.Quiet⌝, fun _ w => ⌜w.Quiet⌝⟩⦄ := by
  mvcgen [change]
  case vc4.post.success.post.success.post.success h _ _ => exact Quiet.setController h (by simp)
  case vc6.post.success.post.success.post.except.handle.post.success h _ => exact Quiet.setController h (by simp)

theorem stop_paired :
    ⦃fun w => ⌜w.Paired ∧ w.StopHeard⌝⦄ stop ⦃post⟨fun _ w => ⌜w.Paired⌝, fun _ w => ⌜w.Paired⌝⟩⦄ := by
  mvcgen
  exact Quiet.paired

theorem switch_paired (id : String) (o : Switch) :
    ⦃fun w => ⌜w.Paired ∧ (w.Changes id → w.StopHeard)⌝⦄ switch id o
    ⦃post⟨fun _ w => ⌜w.Paired⌝, fun _ w => ⌜w.Paired⌝⟩⦄ := by
  mvcgen [switch, entry]
  case vc3.h_1.isFalse.isFalse.isTrue.pre w h target hfind hav hfree _ _ hne =>
    exact ⟨h.1, h.2 ⟨target, hfind, by simpa using hav, by simpa using hfree, hne⟩⟩
  case vc4.h_1.isFalse.isFalse.isTrue.post.success h => exact (Quiet.setController h h.2).paired
  case vc5.h_1.isFalse.isFalse.isTrue.post.except.handle => exact fun h => (Quiet.setController h h.2).paired
  -- Nothing was stopped.
  case vc1.h_1.isTrue h _ _ _ => exact h.1
  case vc2.h_1.isFalse.isTrue h _ _ _ _ => exact h.1
  case vc6.h_1.isFalse.isFalse.isFalse h _ _ _ _ _ _ _ => exact h.1
  case vc7.h_2 h _ _ => exact h.1

theorem reset_paired (o : Reset) :
    ⦃fun w => ⌜w.Paired ∧ w.StopHeard⌝⦄ reset o ⦃post⟨fun _ w => ⌜w.Paired⌝, fun _ w => ⌜w.Paired⌝⟩⦄ := by
  mvcgen [reset]
  case vc3.post.success.post.success.h_1 h _ => exact Quiet.paired (Quiet.setController h (by simp))
  case vc5.post.success.post.success.h_2.post.success h => exact h.paired
  case vc6.post.success.post.success.h_2.post.except.handle => exact Quiet.paired
  case vc7.post.success.post.except.handle => exact Quiet.paired

@[spec] theorem startPsi_paired (o : Start) :
    ⦃fun w => ⌜w.Paired ∧ w.controller.selected.kind = .psi⌝⦄ startPsi o
    ⦃post⟨fun _ w => ⌜w.Paired⌝, fun _ w => ⌜w.Paired⌝⟩⦄ := by
  mvcgen [startPsi]
  case vc1.h_1.h_1.h_1 w h _ _ _ _ _ _ _ _ _ _ =>
    have he := h.1
    simp only [Paired, h.2] at he
    -- Only the state changes, which a PSI model does not pair with keys.
    show match w.controller.selected.kind with
      | .psi => w.groot.Even
      | .groot => _
    rw [h.2]
    exact he
  case vc2.h_1.h_1.h_2 h _ _ _ _ _ _ _ _ => exact h.1
  case vc3.h_1.h_2 h _ _ _ _ _ => exact h.1
  case vc4.h_2 h _ _ _ => exact h.1

@[spec] theorem startGroot_paired :
    ⦃fun w => ⌜w.Paired ∧ w.StartFresh ∧ w.controller.selected.kind = .groot⌝⦄ startGroot
    ⦃post⟨fun _ w => ⌜w.Paired⌝, fun _ w => ⌜w.Paired⌝⟩⦄ := by
  mvcgen [startGroot, sendKey, onGroot]
  case vc1.isTrue h _ => exact h.1
  case vc2.isFalse.h_1 w h halive _ _ _ _ _ _ =>
    have hs : w.controller.state ≠ .running := h.2.1 h.2.2 (by simpa using halive)
    have hodd := h.1
    simp only [Paired, h.2.2, hs, iff_false] at hodd
    show match w.controller.selected.kind with
      | .psi => _
      | .groot => (Key.p :: w.groot.keys).count .p % 2 = 1 ↔ SessionState.running = .running
    simp only [h.2.2, List.count_cons_self, iff_true]
    simp only [GrootGroup.presses] at hodd
    omega
  case vc3.isFalse.h_2 h _ _ _ _ => exact h.1

theorem start_paired (o : Start) :
    ⦃fun w => ⌜w.Paired ∧ w.StartFresh⌝⦄ start o ⦃post⟨fun _ w => ⌜w.Paired⌝, fun _ w => ⌜w.Paired⌝⟩⦄ := by
  mvcgen [start]
  case vc1.isTrue h _ => exact h.1
  case vc2.isFalse.isTrue h _ _ => exact h.1
  case vc3.isFalse.isFalse.h_1.pre h _ _ _ hk => exact ⟨h.1, hk⟩
  case vc4.isFalse.isFalse.h_2.pre h _ _ _ hk => exact ⟨h.1, h.2, hk⟩

/-! ### Runs -/

/-- No start finds a GR00T model running, and a stop that finds one running finds its group alive. -/
def KeysMatch (w : System) : Turn → Prop
  | .call (.start _) => w.StartFresh
  | .call .stop | .call (.reset _) => w.StopHeard
  | .call (.switch id _) => w.Changes id → w.StopHeard
  | .elapse _ _ _ => True

theorem turn_paired {w : System} {t : Turn} (hw : w.Paired) (hc : KeysMatch w t) : (w.turn t).Paired := by
  cases t with
  | call c =>
    cases c with
    | start o => exact after_of_triple (start_paired o) ⟨hw, hc⟩
    | stop => exact after_of_triple stop_paired ⟨hw, hc⟩
    | reset o => exact after_of_triple (reset_paired o) ⟨hw, hc⟩
    | switch id o => exact after_of_triple (switch_paired id o) ⟨hw, hc⟩
  | elapse server grootServer vla => exact hw

theorem Launched.paired {w : System} (h : w.Launched) : w.Paired := by
  simp [Paired, h.kind, GrootGroup.Even, GrootGroup.presses, h.groot.2.2]

/-- In every run whose calls meet the condition, the number of `p` keys sent since the GR00T group was last
    started is odd exactly when the controller runs, whenever GR00T is selected. -/
theorem keys_match {w : System} (hw : systemMachine.Reach KeysMatch w) (hg : w.controller.selected.kind = .groot) :
    w.groot.presses % 2 = 1 ↔ w.controller.state = .running := by
  have hp : w.Paired := hw.invariant (fun _ h => h.paired) fun _ _ _ _ hp hc hs =>
    Option.some.inj hs ▸ turn_paired hp hc
  simpa only [Paired, hg] using hp

/-- GR00T is selected and started once. -/
theorem keys_match_started : ((bridge.turn toGroot).turn begin).groot.presses % 2 = 1 ↔
    ((bridge.turn toGroot).turn begin).controller.state = .running :=
  keys_match
    ⟨bridge, bridge_launched, .step begin (.step toGroot .refl (fun _ hk => absurd hk (by decide)) rfl)
      (fun _ _ => by decide) rfl⟩ (by decide)

/-- A second start sends a second `p`, which pauses the client of a controller that goes on reporting
    RUNNING. -/
theorem repeated_start_pauses_client :
    ¬∀ w, systemMachine.Reach Machine.Free w → w.controller.selected.kind = .groot →
      (w.groot.presses % 2 = 1 ↔ w.controller.state = .running) := by
  intro h
  have hr : systemMachine.Reach Machine.Free (((bridge.turn toGroot).turn begin).turn begin) :=
    ⟨bridge, bridge_launched, .step begin (.step begin (.step toGroot .refl trivial rfl) trivial rfl) trivial rfl⟩
  have hodd := (h _ hr (by decide)).mpr (by decide)
  exact absurd hodd (by decide)

end System
end HumanoidLab
