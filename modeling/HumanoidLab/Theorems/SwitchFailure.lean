import HumanoidLab.Bridge.Controller

/-! A switch whose target does not start. The controller ends in ERROR with the gate closed; whether a
    process of the target is left running depends on where the start failed, because neither
    `_start_backend` nor `_rollback` stops what it started. -/

namespace HumanoidLab
open Std.Do Fallible Concurrency

set_option mvcgen.warning false

def Spawn.succeeds : Spawn → Bool
  | .pid _ => true
  | _ => false

namespace GrootStart

/-- The checkpoint is valid. -/
def valid (o : GrootStart) : Bool := o.isDir && o.missing.isEmpty

/-- The server is spawned and becomes ready. -/
def serves (o : GrootStart) : Bool := o.server.succeeds && o.wait == .ready

/-- The client is spawned and does not exit. -/
def joins (o : GrootStart) : Bool := o.vla.succeeds && o.exited.isNone

/-- The wait for the server raises with the server running: it outlives KILL, or the probe raises. -/
def serverStrays (o : GrootStart) : Bool :=
  o.server.succeeds &&
    match o.wait with
    | .never => o.cleanup.server.isSome
    | .probe _ => true
    | _ => false

/-- The start of the client raises with the server running: a failed spawn does not stop it, or it
    outlives KILL. -/
def clientStrays (o : GrootStart) : Bool :=
  !o.vla.succeeds || o.exited.isSome && o.serverSurvives && o.cleanup.server.isSome

def succeeds (o : GrootStart) : Bool := o.valid && o.serves && o.joins

/-- The start raises and leaves a process running. -/
def strays (o : GrootStart) : Bool := o.valid && (o.serverStrays || o.serves && o.clientStrays)

theorem strays_of_succeeds {o : GrootStart} (h : o.succeeds = true) : o.strays = false := by
  simp_all [succeeds, strays, serves, joins, serverStrays, clientStrays]

theorem serverStrays_of_serves {o : GrootStart} (h : o.serves = true) : o.serverStrays = false := by
  simp_all [serves, serverStrays]

end GrootStart

/-! ### Entries -/

namespace Models

variable {m : Models} {id : String} {e : ModelEntry}

theorem id_of_find (h : m.find id = some e) : e.id = id := by
  unfold find at h
  split at h
  · obtain rfl := Option.some.inj h
    exact ‹id = "groot"›.symm
  · simpa using List.find?_some h

theorem groot_of_find (h : m.find id = some e) (hk : e.kind = .groot) : id = "groot" := by
  unfold find at h
  split at h
  · assumption
  · have hpsi := m.psi_kind e (List.mem_reverse.mp (List.mem_of_find?_eq_some h))
    exact absurd (hpsi.symm.trans hk) nofun

theorem find_distinct {p t : ModelEntry} (hp : m.find p.id = some p) (ht : m.find id = some t) (hne : t.id ≠ p.id) :
    ¬(t.kind = .groot ∧ p.kind = .groot) := by
  rintro ⟨htk, hpk⟩
  exact hne ((id_of_find ht).trans ((groot_of_find ht htk).trans (groot_of_find hp hpk).symm))

end Models

/-! ### Processes -/

namespace Process

@[simp] theorem alive_none : alive none = false := rfl

@[simp] theorem alive_elapse (b : Bool) (p : Option Process) : alive (p.map (elapse b)) = (alive p && b) := by
  cases p <;> simp [alive, elapse]

@[simp] theorem alive_some_elapse (b : Bool) (p : Process) : alive (some (p.elapse b)) = (alive (some p) && b) :=
  alive_elapse b (some p)

end Process

@[simp] theorem PolicyServer.alive_elapse (b : Bool) (s : PolicyServer) : (s.elapse b).alive = (s.alive && b) :=
  Process.alive_elapse b s.process

namespace GrootGroup

theorem terminate_ok {stuck : Option String} {p q : Option Process} (h : terminate stuck p = .ok q) :
    Process.alive q = false ∧ ¬(Process.alive p = true ∧ stuck.isSome = true) := by
  unfold terminate at h
  split at h
  · split at h
    · cases h
    · obtain rfl := Except.ok.inj h
      simp_all [Process.alive]
  · obtain rfl := Except.ok.inj h
    cases p <;> cases stuck <;> simp_all [Process.alive]

theorem terminate_error {stuck : Option String} {p : Option Process} {e : Exn} (h : terminate stuck p = .error e) :
    Process.alive p = true ∧ stuck.isSome = true := by
  unfold terminate at h
  split at h
  · split at h
    · simp_all [Process.alive]
    · cases h
  · cases h

theorem stop_server (o : GrootStop) (alive : Bool) :
    ⦃fun g => ⌜Process.alive g.vla = false ∧ Process.alive g.server = alive⌝⦄ stop o
    ⦃post⟨fun _ g => ⌜g.running = false ∧ (alive && o.server.isSome) = false⌝,
      fun _ g => ⌜g.running = true ∧ (alive && o.server.isSome) = true⌝⟩⦄ := by
  mvcgen [stop, lift]
  case vc1.h_1.h_1 g h _ hv _ _ hs _ _ =>
    have := (terminate_ok hs).2
    exact ⟨rfl, by simp_all +zetaDelta⟩
  case vc2.h_1.h_2 g h _ hv _ _ hs =>
    have := terminate_error hs
    simp_all +zetaDelta [running]
  case vc3.h_2 h _ hv =>
    have := terminate_error hv
    simp_all

theorem terminate_none (p : Option Process) : terminate none p = .ok (p.map fun q => { q with running := false }) := by
  cases p <;> rfl

theorem stop_smooth {o : GrootStop} (hv : o.vla = none) (hs : o.server = none) :
    ⦃⌜True⌝⦄ stop o ⦃post⟨fun _ g => ⌜g.running = false⌝, fun _ _ => ⌜False⌝⟩⦄ := by
  mvcgen [stop, lift]
  case vc2 hx => simp [hs, terminate_none] at hx
  case vc3 hx => simp [hv, terminate_none] at hx

theorem spawn_ok {s : Spawn} {p : Process} (h : spawn s = .ok p) : Process.alive (some p) = true ∧ s.succeeds = true := by
  cases s <;> cases h
  exact ⟨rfl, rfl⟩

theorem spawn_error {s : Spawn} {e : Exn} (h : spawn s = .error e) : s.succeeds = false := by
  cases s <;> first | rfl | cases h

theorem validate_ok {o : GrootStart} {path : String} {u : Unit} (h : validate o.isDir o.missing path = .ok u) :
    o.valid = true := by
  unfold validate at h
  split at h <;> try cases h
  split at h <;> simp_all [GrootStart.valid]

theorem validate_error {o : GrootStart} {path : String} {e : Exn} (h : validate o.isDir o.missing path = .error e) :
    o.valid = false := by
  unfold validate at h
  split at h
  · simp_all [GrootStart.valid]
  · split at h <;> simp_all [GrootStart.valid]

theorem serve_running (o : GrootStart) :
    ⦃fun g => ⌜g.running = false⌝⦄ serve o
    ⦃post⟨fun _ g => ⌜Process.alive g.server = true ∧ Process.alive g.vla = false ∧ o.serves = true⌝,
      fun _ g => ⌜g.running = o.serverStrays ∧ o.serves = false⌝⟩⦄ := by
  mvcgen [serve, lift, waitServer, wait, stop_server]
  case vc2.alive => exact false
  case vc6.alive => exact true
  case vc11.h_2 hspawn => simp_all [spawn_error hspawn, GrootStart.serverStrays, GrootStart.serves]
  all_goals
    have hspawn := spawn_ok ‹spawn o.server = _›
    simp_all +zetaDelta [running, elapse, GrootStart.serverStrays, GrootStart.serves]

theorem join_running (o : GrootStart) :
    ⦃fun g => ⌜Process.alive g.server = true ∧ Process.alive g.vla = false⌝⦄ join o
    ⦃post⟨fun _ g => ⌜Process.alive g.server = o.serverSurvives ∧ Process.alive g.vla = true ∧ o.joins = true⌝,
      fun _ g => ⌜g.running = o.clientStrays ∧ o.joins = false⌝⟩⦄ := by
  have stops := stop_server o.cleanup o.serverSurvives
  mvcgen [join, lift, wait, stops]
  case vc5.h_2 hspawn => simp_all [spawn_error hspawn, running, GrootStart.clientStrays, GrootStart.joins]
  all_goals
    have hspawn := spawn_ok ‹spawn o.vla = _›
    simp_all +zetaDelta [running, elapse, GrootStart.clientStrays, GrootStart.joins]

theorem start_running (o : GrootStart) :
    ⦃fun g => ⌜g.running = false⌝⦄ start o
    ⦃post⟨fun _ g => ⌜Process.alive g.server = o.serverSurvives ∧ Process.alive g.vla = true ∧ o.succeeds = true⌝,
      fun _ g => ⌜g.running = o.strays ∧ o.succeeds = false⌝⟩⦄ := by
  have stops := stop_server o.stop false
  mvcgen [start, lift, serve_running, join_running, stops]
  case vc1.isTrue => simp_all [running, alive]
  case vc2.isFalse.h_1.pre => simp_all [running]
  case vc9.isFalse.h_2 h => simp_all [validate_error h, GrootStart.strays, GrootStart.succeeds]
  case vc6.isFalse.h_1.post.success.post.success.post.except.handle hvalid _ _ _ _ _ hserves _ _ =>
    have hvalid := validate_ok hvalid
    have := GrootStart.serverStrays_of_serves hserves.2.2
    simp_all [GrootStart.strays, GrootStart.succeeds]
  all_goals
    have hvalid := validate_ok ‹validate _ _ _ = _›
    simp_all [GrootStart.strays, GrootStart.succeeds]

end GrootGroup

/-! ### What a failed start leaves -/

/-- The entries name one backend. -/
def ModelEntry.Same (a b : ModelEntry) : Prop := a.kind = b.kind ∧ a.runDir = b.runDir ∧ a.step = b.step

def ServerStart.succeeds (o : ServerStart) : Bool := o.checkpoint && !o.foreign && o.spawn.succeeds

/-- Every process exits when it is told to. -/
def BackendStop.smooth (o : BackendStop) : Prop := o.serverExits = true ∧ o.groot.vla = none ∧ o.groot.server = none

/-- `_prepare_groot` raises and leaves a process running. -/
def Prepare.strays (o : Prepare) (server : Bool) : Bool :=
  o.debug == .never && (server && o.serverSurvives || o.vlaSurvives)

/-- `_start_backend` raises and leaves a process of its backend running. -/
def BackendStart.strays (o : BackendStart) (e : ModelEntry) : Bool :=
  match e.kind with
  | .psi => e.runDir.isSome && e.step.isSome && o.server.succeeds && !o.verify.isOk && o.serverSurvives
  | .groot => o.groot.strays || o.groot.succeeds && o.prepare.strays o.groot.serverSurvives

namespace System

variable {m : Models} {e : ModelEntry} {w : System}

/-- What the pieces of a switch leave as it is. -/
structure Frame (m : Models) (e : ModelEntry) (w : System) : Prop where
  models : w.models = m
  selected : w.controller.selected = e
  opened : w.router.closed = false

/-- No backend runs. -/
def Clear (w : System) : Prop := w.server.alive = false ∧ w.groot.running = false

/-- Only the backend of this entry may run, and the policy server only for its checkpoint. -/
def Only (e : ModelEntry) (w : System) : Prop :=
  match e.kind with
  | .psi => w.groot.running = false ∧ (w.server.alive = true → w.Serves e)
  | .groot => w.server.alive = false

/-- A process of the backend of this entry runs. -/
def Runs (e : ModelEntry) (w : System) : Prop :=
  match e.kind with
  | .psi => w.server.alive = true ∧ w.Serves e
  | .groot => w.groot.running = true

theorem only_psi (hk : e.kind = .psi) : w.Only e ↔ w.groot.running = false ∧ (w.server.alive = true → w.Serves e) := by
  simp only [Only, hk]

theorem only_groot (hk : e.kind = .groot) : w.Only e ↔ w.server.alive = false := by simp only [Only, hk]

theorem runs_psi (hk : e.kind = .psi) : w.Runs e ↔ w.server.alive = true ∧ w.Serves e := by simp only [Runs, hk]

theorem runs_groot (hk : e.kind = .groot) : w.Runs e ↔ w.groot.running = true := by simp only [Runs, hk]

theorem Only.clear (h : w.Only e) (hr : ¬w.Runs e) : w.Clear := by
  cases hk : e.kind with
  | psi =>
    rw [only_psi hk] at h
    rw [runs_psi hk] at hr
    exact ⟨by simpa using fun ha => hr ⟨ha, h.2 ha⟩, h.1⟩
  | groot =>
    rw [only_groot hk] at h
    rw [runs_groot hk] at hr
    exact ⟨h, by simpa using hr⟩

theorem Clear.only (h : w.Clear) (e : ModelEntry) : w.Only e := by
  cases hk : e.kind with
  | psi => exact (only_psi hk).mpr ⟨h.2, fun ha => by simp [h.1] at ha⟩
  | groot => exact (only_groot hk).mpr h.1

theorem Clear.not_runs (h : w.Clear) (e : ModelEntry) : ¬w.Runs e := by
  cases hk : e.kind with
  | psi => simp [runs_psi hk, h.1]
  | groot => simp [runs_groot hk, h.2]

theorem server_stop (s : PolicyServer) : (s.stop true).1 = .ok () ∧ (s.stop true).2.alive = false := by
  unfold PolicyServer.stop
  split
  · exact ⟨rfl, by simp [PolicyServer.alive, *]⟩
  · simp [PolicyServer.alive]

theorem server_start_ok {o : ServerStart} {runDir : String} {step : Nat} {s t : PolicyServer}
    (h : s.start o runDir step = .ok t) :
    t.alive = true ∧ t.runDir = some runDir ∧ t.step = some step ∧ o.succeeds = true := by
  unfold PolicyServer.start at h
  split at h
  · cases h
  · split at h
    · cases h
    · split at h
      · cases h
      · split at h <;> cases h
        exact ⟨rfl, rfl, rfl, by simp_all [ServerStart.succeeds, Spawn.succeeds]⟩

theorem server_start_free {o : ServerStart} {runDir : String} {step : Nat} {s t : PolicyServer}
    (h : s.start o runDir step = .ok t) : s.alive = false := by
  unfold PolicyServer.start at h
  split at h
  · cases h
  · simpa using ‹¬s.alive = true›

theorem server_start_error {o : ServerStart} {runDir : String} {step : Nat} {s : PolicyServer} {x : Exn}
    (h : s.start o runDir step = .error x) : s.alive = true ∨ o.succeeds = false := by
  unfold PolicyServer.start at h
  split at h
  · exact Or.inl ‹_›
  · right
    unfold ServerStart.succeeds
    split at h
    · simp_all
    · split at h
      · simp_all
      · split at h <;> cases h <;> simp_all [Spawn.succeeds]

theorem Frame.setGroot (h : w.Frame m e) (g : GrootGroup) : (w.setGroot g).Frame m e := ⟨h.models, h.selected, h.opened⟩

/-- GR00T is being prepared. -/
def Preparing (m : Models) (e : ModelEntry) (server vla : Bool) (w : System) : Prop :=
  (w.Frame m e ∧ w.server.alive = false) ∧ Process.alive w.groot.server = server ∧ Process.alive w.groot.vla = vla

theorem sendKey_preparing (m : Models) (e : ModelEntry) (server vla : Bool) (key : Key) :
    ⦃fun w => ⌜w.Preparing m e server vla⌝⦄ sendKey key
    ⦃post⟨fun _ w => ⌜w.Preparing m e server vla⌝, fun _ _ => ⌜False⌝⟩⦄ := by
  have hx : ⦃fun g : GrootGroup => ⌜Process.alive g.server = server ∧ Process.alive g.vla = vla⌝⦄
      (modify fun g => { g with keys := key :: g.keys } : GrootGroup.Op Unit)
      ⦃post⟨fun _ g => ⌜Process.alive g.server = server ∧ Process.alive g.vla = vla⌝, fun _ _ => ⌜False⌝⟩⦄ := by
    mvcgen
  have h := onGroot_frame (R := fun w => w.Frame m e ∧ w.server.alive = false)
    (fun _ _ h => ⟨h.1.setGroot _, h.2⟩) hx
  mvcgen [sendKey, h]

theorem wait_preparing (m : Models) (e : ModelEntry) (server vla b c : Bool) :
    ⦃fun w => ⌜w.Preparing m e server vla⌝⦄ onGroot (GrootGroup.wait b c)
    ⦃post⟨fun _ w => ⌜w.Preparing m e (server && b) (vla && c)⌝, fun _ _ => ⌜False⌝⟩⦄ := by
  have hx : ⦃fun g => ⌜Process.alive g.server = server ∧ Process.alive g.vla = vla⌝⦄ GrootGroup.wait b c
      ⦃post⟨fun _ g => ⌜Process.alive g.server = (server && b) ∧ Process.alive g.vla = (vla && c)⌝,
        fun _ _ => ⌜False⌝⟩⦄ := by
    mvcgen [GrootGroup.wait]
    simp_all +zetaDelta [GrootGroup.elapse]
  have h := onGroot_frame (R := fun w => w.Frame m e ∧ w.server.alive = false)
    (fun _ _ h => ⟨h.1.setGroot _, h.2⟩) hx
  mvcgen [h]
  · exact fun a b c d => ⟨⟨a, b⟩, c, d⟩
  · exact fun _ _ h => h

theorem Frame.setRouter (h : w.Frame m e) {r : RouterCore} (hr : r.closed = false) : (w.setRouter r).Frame m e :=
  ⟨h.models, h.selected, hr⟩

theorem Preparing.setRouter {server vla : Bool} (h : w.Preparing m e server vla) {r : RouterCore}
    (hr : r.closed = false) : (w.setRouter r).Preparing m e server vla :=
  ⟨⟨h.1.1.setRouter hr, h.1.2⟩, h.2⟩

theorem resume_open {r q : RouterCore} (h : r.resume = .ok q) : q.closed = false := by
  unfold RouterCore.resume at h
  split at h
  · cases h
  · obtain rfl := Except.ok.inj h
    simp_all

theorem resume_closed {r : RouterCore} {text : String} (h : r.resume = .error text) : r.closed = true := by
  unfold RouterCore.resume at h
  split at h
  · assumption
  · cases h

/-- `_prepare_groot` keeps the frame and leaves the gate closed. -/
theorem prepareGroot_running (o : Prepare) (m : Models) (e : ModelEntry) (server : Bool) :
    ⦃fun w => ⌜w.Preparing m e server true⌝⦄ prepareGroot o
    ⦃post⟨fun _ w => ⌜w.Frame m e ∧ w.router.gate = false ∧ w.server.alive = false⌝,
      fun _ w => ⌜w.Frame m e ∧ w.router.gate = false ∧ w.server.alive = false ∧ w.groot.running = o.strays server⌝⟩⦄ := by
  have waits := wait_preparing m e server true o.serverSurvives o.vlaSurvives
  have key := sendKey_preparing m e (server && o.serverSurvives) (true && o.vlaSurvives)
  mvcgen [prepareGroot, key, waits]
  case vc1 w h _ r hr _ => exact (h.setRouter (r := RouterCore.select .groot w.router) h.1.1.opened).setRouter (resume_open hr)
  case vc4 w h _ => exact ⟨h.1.1.setRouter h.1.1.opened, rfl, h.1.2⟩
  case vc8 w h _ => exact ⟨h.1.1.setRouter h.1.1.opened, rfl, h.1.2⟩
  case vc11 hd _ _ _ _ _ _ w h _ =>
    refine ⟨h.1.1.setRouter h.1.1.opened, rfl, h.1.2, ?_⟩
    show w.groot.running = _
    simp [GrootGroup.running, h.2.1, h.2.2, Prepare.strays, hd]
  case vc12 w h _ _ hr =>
    have hc : w.router.closed = true := resume_closed (r := RouterCore.select .groot w.router) hr
    simp [h.1.1.opened] at hc

theorem startBackend_clear (o : BackendStart) (m : Models) (s e : ModelEntry) :
    ⦃fun w => ⌜w.Frame m s ∧ w.router.gate = false ∧ w.Clear⌝⦄ startBackend o e
    ⦃post⟨fun _ w => ⌜w.Frame m s ∧ w.router.gate = false ∧ w.Only e⌝,
      fun _ w => ⌜w.Frame m s ∧ w.router.gate = false ∧ w.Only e ∧ (w.Runs e ↔ o.strays e = true)⌝⟩⦄ := by
  have group := onGroot_frame (R := fun w => w.Frame m s ∧ w.router.gate = false ∧ w.server.alive = false)
    (fun _ _ h => ⟨h.1.setGroot _, h.2⟩) (GrootGroup.start_running o.groot)
  have prepare := prepareGroot_running o.prepare m s o.groot.serverSurvives
  mvcgen [startBackend, lift, group, prepare]
  case vc1 hk runDir step hs hd w h server hstart _ info _ _ _ =>
    obtain ⟨-, hrun, hstep, -⟩ := server_start_ok hstart
    refine ⟨⟨h.1.models, h.1.selected, h.1.opened⟩, rfl, (only_psi hk).mpr ⟨h.2.2.2, fun _ => ?_⟩⟩
    exact ⟨hrun.trans hd.symm, hstep.trans hs.symm⟩
  case vc2 hk runDir step hs hd w h server hstart _ x hverify =>
    obtain ⟨halive, hrun, hstep, hok⟩ := server_start_ok hstart
    have hserves : Serves (w.setServer (server.elapse o.serverSurvives)) e :=
      ⟨hrun.trans hd.symm, hstep.trans hs.symm⟩
    have hr : (server.elapse o.serverSurvives).alive = o.serverSurvives := by simp [halive]
    refine ⟨⟨h.1.models, h.1.selected, h.1.opened⟩, h.2.1, (only_psi hk).mpr ⟨h.2.2.2, fun _ => hserves⟩, ?_⟩
    show Runs e (w.setServer (server.elapse o.serverSurvives)) ↔ _
    simp [runs_psi hk, hr, hserves, BackendStart.strays, hk, hd, hs, hok, hverify, Except.isOk, Except.toBool]
  case vc3 hk runDir step hs hd w h x hstart =>
    refine ⟨h.1, h.2.1, h.2.2.only e, iff_of_false (h.2.2.not_runs e) ?_⟩
    have hok : o.server.succeeds = false := (server_start_error hstart).resolve_left (by simp [h.2.2.1])
    simp [BackendStart.strays, hk, hok]
  case vc4 hk _ _ hnone hs hd w h =>
    refine ⟨h.1, h.2.1, h.2.2.only e, iff_of_false (h.2.2.not_runs e) ?_⟩
    subst hd hs
    cases hr : e.runDir <;> cases ht : e.step <;> simp_all [BackendStart.strays]
  case vc5 w h => exact ⟨⟨h.1, h.2.1, h.2.2.1⟩, h.2.2.2⟩
  case vc6 w h _ => exact ⟨⟨h.1.1.setRouter h.1.1.opened, h.1.2.2⟩, h.2.1, h.2.2.1⟩
  case vc7 hk _ _ _ _ _ _ _ _ => exact fun hf hg ha => ⟨hf, hg, (only_groot hk).mpr ha⟩
  case vc8 hk _ _ _ w h _ _ _ =>
    intro hf hg ha hr
    refine ⟨hf, hg, (only_groot hk).mpr ha, ?_⟩
    simp [runs_groot hk, hr, BackendStart.strays, hk, h.2.2.2, GrootStart.strays_of_succeeds h.2.2.2]
  case vc9 hk _ _ _ _ =>
    intro hf hg ha hr hfail
    refine ⟨hf, hg, (only_groot hk).mpr ha, ?_⟩
    simp [runs_groot hk, hr, BackendStart.strays, hk, hfail]

/-! ### The pieces of a switch -/

theorem Frame.halt (h : w.Frame m e) : (w.setController w.controller.halt).Frame m e := by
  refine ⟨h.models, ?_, h.opened⟩
  rw [← h.selected]
  simp only [setController_controller, Controller.halt]
  split <;> rfl

/-- `stop` touches no process. -/
theorem stop_only (m : Models) (e : ModelEntry) :
    ⦃fun w => ⌜w.Frame m e ∧ w.Only e⌝⦄ stop
    ⦃post⟨fun _ w => ⌜w.Frame m e ∧ w.Only e⌝, fun _ _ => ⌜False⌝⟩⦄ := by
  mvcgen [stop, sendKey, onGroot]
  case vc1 w h _ _ _ _ _ => exact ⟨(Frame.halt ⟨h.1.models, h.1.selected, h.1.opened⟩), h.2⟩
  case vc2 w h _ _ _ _ _ _ => exact ⟨(Frame.halt ⟨h.1.models, h.1.selected, h.1.opened⟩), h.2⟩
  case vc3 w h _ _ _ _ _ => exact ⟨(Frame.halt ⟨h.1.models, h.1.selected, h.1.opened⟩), h.2⟩

theorem stopBackend_clear {o : BackendStop} (ho : o.smooth) (m : Models) (e : ModelEntry) :
    ⦃fun w => ⌜w.Frame m e ∧ w.Only e⌝⦄ stopBackend o e
    ⦃post⟨fun _ w => ⌜w.Frame m e ∧ w.router.gate = false ∧ w.Clear⌝, fun _ _ => ⌜False⌝⟩⦄ := by
  have group := onGroot_frame (R := fun w => w.Frame m e ∧ w.router.gate = false ∧ w.server.alive = false)
    (fun _ _ h => ⟨h.1.setGroot _, h.2⟩) (GrootGroup.stop_smooth ho.2.1 ho.2.2)
  mvcgen [stopBackend, group]
  case vc1 w h _ hk _ r _ _ _ =>
    have hr : (w.server.stop o.serverExits).2.alive = false := by
      rw [ho.1]
      exact (server_stop w.server).2
    exact ⟨⟨h.1.models, h.1.selected, h.1.opened⟩, rfl, hr, ((only_psi hk).mp h.2).1⟩
  case vc2 w h _ hk _ r _ _ hx =>
    have hr : (w.server.stop o.serverExits).1 = .ok () := by
      rw [ho.1]
      exact (server_stop w.server).1
    cases hr.symm.trans hx
  case vc3 w h _ hk => exact ⟨h.1.setRouter h.1.opened, rfl, (only_groot hk).mp h.2⟩
  case vc4 => exact fun hf hg ha hr => ⟨hf, hg, ha, hr⟩
  case vc5 => exact fun _ _ _ h => h

theorem startBackend_busy (o : BackendStart) {e : ModelEntry} (hk : e.kind = .psi) (P : System → Prop) :
    ⦃fun w => ⌜w.server.alive = true ∧ P w⌝⦄ startBackend o e ⦃post⟨fun _ _ => ⌜False⌝, fun _ w => ⌜P w⌝⟩⦄ := by
  mvcgen [startBackend, lift]
  case vc1 h _ hstart _ _ _ _ _ => cases h.1.symm.trans (server_start_free hstart)
  case vc2 h _ hstart _ _ _ => cases h.1.symm.trans (server_start_free hstart)
  case vc3 h _ _ => exact h.2
  case vc4 h => exact h.2
  case vc5 hg _ _ => simp [hk] at hg

theorem startBackend_server (o : BackendStart) {e : ModelEntry} (hk : e.kind = .groot) (P : Controller → PolicyServer → Prop) :
    ⦃fun w => ⌜P w.controller w.server⌝⦄ startBackend o e
    ⦃post⟨fun _ w => ⌜P w.controller w.server⌝, fun _ w => ⌜P w.controller w.server⌝⟩⦄ := by
  have other := fun (x : GrootGroup.Op Unit) => onGroot_other x (R := fun w => P w.controller w.server) fun _ _ h => h
  mvcgen [startBackend, prepareGroot, sendKey, lift, other]
  all_goals cases hk.symm.trans ‹e.kind = .psi›

theorem startBackend_group (o : BackendStart) {e : ModelEntry} (hk : e.kind = .psi) (P : Controller → GrootGroup → Prop) :
    ⦃fun w => ⌜P w.controller w.groot⌝⦄ startBackend o e
    ⦃post⟨fun _ w => ⌜P w.controller w.groot⌝, fun _ w => ⌜P w.controller w.groot⌝⟩⦄ := by
  mvcgen [startBackend, lift]
  case vc5 hg _ _ => simp [hk] at hg

theorem Frame.setSelected (h : w.Frame m e) : (w.setController { w.controller with selected := e }).Frame m e :=
  ⟨h.models, rfl, h.opened⟩

theorem rollback_only (o : BackendStart) (m : Models) (p : ModelEntry) :
    ⦃fun w => ⌜w.Frame m p ∧ w.router.gate = false ∧ w.Clear⌝⦄ rollback o p
    ⦃post⟨fun _ w => ⌜w.Frame m p ∧ w.router.gate = false ∧ w.Only p⌝, fun _ _ => ⌜False⌝⟩⦄ := by
  have start := startBackend_clear o m p p
  mvcgen [rollback, start]
  case vc2 h _ => exact ⟨h.1.setSelected, h.2⟩
  case vc3 h => exact ⟨h.1, h.2.1, h.2.2.1⟩

theorem rollback_busy (o : BackendStart) {p : ModelEntry} (hk : p.kind = .psi) (P : System → Prop) :
    ⦃fun w => ⌜w.server.alive = true ∧ P w⌝⦄ rollback o p ⦃post⟨fun _ w => ⌜P w⌝, fun _ _ => ⌜False⌝⟩⦄ := by
  have start := startBackend_busy o hk P
  mvcgen [rollback, start]

theorem rollback_server (o : BackendStart) {p : ModelEntry} (hk : p.kind = .groot) (P : PolicyServer → Prop) :
    ⦃fun w => ⌜w.controller.selected = p ∧ P w.server⌝⦄ rollback o p
    ⦃post⟨fun _ w => ⌜w.controller.selected = p ∧ P w.server⌝, fun _ _ => ⌜False⌝⟩⦄ := by
  have start := startBackend_server o hk fun c s => c.selected = p ∧ P s
  mvcgen [rollback, start]
  case vc2 h _ => exact ⟨rfl, h.2⟩

theorem rollback_group (o : BackendStart) {p : ModelEntry} (hk : p.kind = .psi) (P : GrootGroup → Prop) :
    ⦃fun w => ⌜w.controller.selected = p ∧ P w.groot⌝⦄ rollback o p
    ⦃post⟨fun _ w => ⌜w.controller.selected = p ∧ P w.groot⌝, fun _ _ => ⌜False⌝⟩⦄ := by
  have start := startBackend_group o hk fun c s => c.selected = p ∧ P s
  mvcgen [rollback, start]
  case vc2 h _ => exact ⟨rfl, h.2⟩

theorem rollback_clean (o : BackendStart) {strays : Bool} {p t : ModelEntry} (hc : strays = true → t.Same p)
    (ht : ¬(t.kind = .groot ∧ p.kind = .groot)) (m : Models) :
    ⦃fun w => ⌜w.Frame m p ∧ w.router.gate = false ∧ w.Only t ∧ (w.Runs t ↔ strays = true)⌝⦄ rollback o p
    ⦃post⟨fun _ w => ⌜w.Frame m p ∧ w.router.gate = false ∧ w.Only p⌝, fun _ _ => ⌜False⌝⟩⦄ := by
  cases strays with
  | false =>
    have back := rollback_only o m p
    mvcgen [back]
    case vc1 h => exact ⟨h.1, h.2.1, h.2.2.1.clear (by simpa using h.2.2.2)⟩
  | true =>
    obtain ⟨hk, hd, hs⟩ := hc rfl
    have hp : p.kind = .psi := by
      cases hp : p.kind with
      | psi => rfl
      | groot => exact absurd ⟨hk.trans hp, hp⟩ ht
    have back := rollback_busy o hp fun w => w.Frame m p ∧ w.router.gate = false ∧ w.Only p
    mvcgen [back]
    case vc1 h =>
      -- The policy server serves the previous checkpoint, which is the target's.
      obtain ⟨ha, hserves⟩ := (runs_psi (hk.trans hp)).mp (h.2.2.2.mpr trivial)
      have hg := ((only_psi (hk.trans hp)).mp h.2.2.1).1
      exact ⟨ha, h.1, h.2.1, (only_psi hp).mpr ⟨hg, fun _ => ⟨hserves.1.trans hd, hserves.2.trans hs⟩⟩⟩

theorem rollback_stray (o : BackendStart) {p t : ModelEntry} (ht : ¬(t.kind = .groot ∧ p.kind = .groot)) :
    ⦃fun w => ⌜w.controller.selected = p ∧ w.Runs t⌝⦄ rollback o p
    ⦃post⟨fun _ w => ⌜w.controller.selected = p ∧ w.Runs t⌝, fun _ _ => ⌜False⌝⟩⦄ := by
  cases hk : t.kind with
  | groot =>
    have hp : p.kind = .psi := by
      cases hp : p.kind with
      | psi => rfl
      | groot => exact absurd ⟨hk, hp⟩ ht
    simp only [runs_groot hk]
    exact rollback_group o hp fun g => g.running = true
  | psi =>
    simp only [runs_psi hk]
    cases hp : p.kind with
    | groot => exact rollback_server o hp fun s => s.alive = true ∧ s.runDir = t.runDir ∧ s.step = t.step
    | psi =>
      have back := rollback_busy o hp fun w => w.controller.selected = p ∧ w.server.alive = true ∧ w.Serves t
      mvcgen [back]
      case vc1 h => exact ⟨h.2.1, h⟩

/-! ### A switch between two models -/

theorem change_clean {o : Switch} {p t : ModelEntry} (ho : o.stop.smooth) (hc : o.start.strays t = true → t.Same p)
    (ht : ¬(t.kind = .groot ∧ p.kind = .groot)) (m : Models) :
    ⦃fun w => ⌜w.Frame m p ∧ w.Only p⌝⦄ change o p t
    ⦃post⟨fun _ w => ⌜w.Frame m t ∧ w.Only t⌝,
      fun _ w => ⌜w.Frame m p ∧ w.router.gate = false ∧ w.Only p ∧ w.controller.state = .error⌝⟩⦄ := by
  have stop := stop_only m p
  have stopped := stopBackend_clear ho m p
  have start := startBackend_clear o.start m p t
  have back := rollback_clean o.back hc ht m
  mvcgen [change, stop, stopped, start, back]
  case vc4 h _ _ => exact ⟨⟨h.1.models, rfl, h.1.opened⟩, h.2.2⟩
  case vc6 h _ => exact ⟨⟨h.1.models, h.1.selected, h.1.opened⟩, h.2.1, h.2.2, rfl⟩

theorem change_stray {o : Switch} {p t : ModelEntry} (ho : o.stop.smooth) (hs : o.start.strays t = true)
    (ht : ¬(t.kind = .groot ∧ p.kind = .groot)) (m : Models) :
    ⦃fun w => ⌜w.Frame m p ∧ w.Only p⌝⦄ change o p t
    ⦃post⟨fun _ _ => ⌜True⌝, fun _ w => ⌜w.controller.selected = p ∧ w.Runs t⌝⟩⦄ := by
  have stop := stop_only m p
  have stopped := stopBackend_clear ho m p
  have start := startBackend_clear o.start m p t
  have back := rollback_stray o.back ht
  mvcgen [change, stop, stopped, start, back]
  case vc4 h => exact ⟨h.1.selected, h.2.2.2.mpr hs⟩

/-- The call is the switch between the two models, inside its `try` and `finally`. -/
theorem switch_run {id : String} {o : Switch} {t : ModelEntry} (hf : w.models.find id = some t)
    (ha : t.available = true) (hfree : w.controller.switchLock = false) (hne : t.id ≠ w.controller.selected.id) :
    (switch id o).run w =
      match (change o w.controller.selected t).run (w.setController w.controller.lock) with
      | .ok _ v => .ok (v.setController v.controller.unlock).report (v.setController v.controller.unlock)
      | .error x v => .error x (v.setController v.controller.unlock) := by
  simp only [switch, entry, raiseIf, onController, status, ensuring_run, EStateM.run_bind, EStateM.run_get, hf,
    EStateM.run_pure, ha, hfree, EStateM.run_modify, setController_controller, Controller.lock, hne, ne_eq,
    not_false_iff, if_true, if_false, reduceCtorEq]
  cases (change o w.controller.selected t).run _ <;> simp

/-! ### Runs -/

/-- What every call but a switch keeps. -/
def Kept (m : Models) (e : ModelEntry) (w : System) : Prop := w.Frame m e ∧ w.Only e

/-- It does not depend on the session, the gate, the keys and the controller's own state. -/
theorem Kept.same {v : System} (h : w.Kept m e) (hm : v.models = w.models)
    (hs : v.controller.selected = w.controller.selected) (hc : v.router.closed = false) (hp : v.server = w.server)
    (hg : v.groot.running = w.groot.running) : v.Kept m e := by
  refine ⟨⟨hm.trans h.1.models, hs.trans h.1.selected, hc⟩, ?_⟩
  have ho := h.2
  unfold Only Serves at ho ⊢
  rwa [hp, hg]

theorem Kept.setRouter (h : w.Kept m e) {r : RouterCore} (hr : r.closed = false) : (w.setRouter r).Kept m e :=
  h.same rfl rfl hr rfl rfl

theorem Kept.setController (h : w.Kept m e) {c : Controller} (hc : c.selected = w.controller.selected) :
    (w.setController c).Kept m e := h.same rfl hc h.1.opened rfl rfl

theorem start_kept (o : Start) (m : Models) (e : ModelEntry) :
    ⦃fun w => ⌜w.Kept m e⌝⦄ start o ⦃post⟨fun _ w => ⌜w.Kept m e⌝, fun _ w => ⌜w.Kept m e⌝⟩⦄ := by
  mvcgen [start, startPsi, startGroot, sendKey, onGroot, lift]
  case vc3 h _ _ _ _ _ _ _ _ hr _ _ _ _ _ => exact h.same rfl rfl (resume_open hr) rfl rfl
  case vc4 h _ _ _ _ _ _ _ _ hr _ _ _ => exact h.same rfl rfl (resume_open hr) rfl rfl
  case vc5 h _ _ _ _ _ _ _ _ _ => exact h.same rfl rfl h.1.opened rfl rfl
  case vc6 h _ _ _ _ _ _ _ => exact h.same rfl rfl h.1.opened rfl rfl
  case vc8 h _ _ _ _ _ _ _ hr _ _ _ => exact h.same rfl rfl (resume_open hr) rfl rfl
  case vc9 h _ _ _ _ _ _ _ _ => exact h.same rfl rfl h.1.opened rfl rfl

theorem stop_kept (m : Models) (e : ModelEntry) :
    ⦃fun w => ⌜w.Kept m e⌝⦄ stop ⦃post⟨fun _ w => ⌜w.Kept m e⌝, fun _ w => ⌜w.Kept m e⌝⟩⦄ := by
  have stop := stop_only m e
  mvcgen [stop]
  case vc2 => exact fun hf ho => ⟨hf, ho⟩

theorem onGroot_kept (x : GrootGroup.Op Unit) (m : Models) {e : ModelEntry} (hk : e.kind = .groot) :
    ⦃fun w => ⌜w.Kept m e⌝⦄ onGroot x ⦃post⟨fun _ w => ⌜w.Kept m e⌝, fun _ w => ⌜w.Kept m e⌝⟩⦄ := by
  refine onGroot_other x fun w g h => ⟨h.1.setGroot g, ?_⟩
  have ho := (only_groot hk).mp h.2
  exact (only_groot (w := w.setGroot g) hk).mpr ho

theorem prepareGroot_kept (o : Prepare) (m : Models) {e : ModelEntry} (hk : e.kind = .groot) :
    ⦃fun w => ⌜w.Kept m e⌝⦄ prepareGroot o ⦃post⟨fun _ w => ⌜w.Kept m e⌝, fun _ w => ⌜w.Kept m e⌝⟩⦄ := by
  have group := fun x => onGroot_kept x m hk
  mvcgen [prepareGroot, sendKey, group]
  case vc1 h _ _ hr _ => exact h.same rfl rfl (resume_open hr) rfl rfl
  case vc4 h _ => exact h.setRouter h.1.opened
  case vc8 h _ => exact h.setRouter h.1.opened
  case vc11 h _ => exact h.setRouter h.1.opened
  case vc12 h _ _ _ => exact h.setRouter h.1.opened

theorem stopGroup_kept (o : GrootStop) (m : Models) (e : ModelEntry) :
    ⦃fun w => ⌜w.Kept m e⌝⦄ stopGroup o e ⦃post⟨fun _ w => ⌜w.Kept m e⌝, fun _ w => ⌜w.Kept m e⌝⟩⦄ := by
  unfold stopGroup
  split
  case h_1 => mvcgen
  case h_2 hk => exact onGroot_kept _ m hk

theorem startGroup_kept (o : Reset) (m : Models) (e : ModelEntry) :
    ⦃fun w => ⌜w.Kept m e⌝⦄ startGroup o e ⦃post⟨fun _ w => ⌜w.Kept m e⌝, fun _ w => ⌜w.Kept m e⌝⟩⦄ := by
  unfold startGroup
  split
  case h_1 => mvcgen
  case h_2 hk =>
    have group := fun x => onGroot_kept x m hk
    have prepare := prepareGroot_kept o.prepare m hk
    mvcgen [group, prepare]

theorem armSettle_kept (m : Models) (e : ModelEntry) :
    ⦃fun w => ⌜w.Kept m e⌝⦄ armSettle e ⦃post⟨fun _ w => ⌜w.Kept m e⌝, fun _ w => ⌜w.Kept m e⌝⟩⦄ := by
  mvcgen [armSettle]
  case vc1 h _ _ _ hr _ => exact h.same rfl rfl (resume_open hr) rfl rfl
  case vc2 h _ _ _ _ => exact h.setRouter h.1.opened
  case vc3 h _ _ _ _ hr _ => exact h.same rfl rfl (resume_open hr) rfl rfl
  case vc4 h _ _ _ _ _ => exact h.setRouter h.1.opened

theorem resetDone_kept (o : Reset) (m : Models) (e : ModelEntry) :
    ⦃fun w => ⌜w.Kept m e⌝⦄ resetDone o e ⦃post⟨fun _ w => ⌜w.Kept m e⌝, fun _ w => ⌜w.Kept m e⌝⟩⦄ := by
  have group := startGroup_kept o m e
  have settle := armSettle_kept m e
  mvcgen [resetDone, group, settle]
  case vc2 h _ => exact h.setController rfl
  case vc3 h _ => exact Kept.setController h rfl

theorem reset_kept (o : Reset) (m : Models) (e : ModelEntry) :
    ⦃fun w => ⌜w.Kept m e⌝⦄ reset o ⦃post⟨fun _ w => ⌜w.Kept m e⌝, fun _ w => ⌜w.Kept m e⌝⟩⦄ := by
  have stop := stop_only m e
  have stopped := stopGroup_kept o.stop m
  have rest := resetDone_kept o m
  mvcgen [reset, stop, stopped, rest]
  -- `active` is the selected entry.
  case vc2 w h active =>
    have ha : active = e := h.1.selected
    exact ha ▸ h
  case vc3 h _ _ _ _ _ _ hk _ => exact Kept.setController (h.1.selected ▸ hk) rfl
  case vc5 h _ _ _ _ _ _ _ _ hk => exact h.1.selected ▸ hk
  case vc6 h _ _ _ _ _ _ _ _ => exact fun hk => h.1.selected ▸ hk
  case vc7 h _ _ _ => exact fun hk => h.1.selected ▸ hk

/-- This switch stops its processes, and a start of its target that fails leaves none of another backend
    than the previous one. -/
def SwitchClean (w : System) (id : String) (o : Switch) : Prop :=
  o.stop.smooth ∧ ∀ t, w.models.find id = some t → o.start.strays t = true → t.Same w.controller.selected

/-- Every switch of another model is clean. -/
def SwitchesClean (w : System) : Turn → Prop
  | .call (.switch id o) => w.Changes id → w.SwitchClean id o
  | _ => True

/-- What holds between two calls: at most the backend of the selected entry runs. -/
structure Exclusive (w : System) : Prop where
  found : w.models.find w.controller.selected.id = some w.controller.selected
  kept : w.Kept w.models w.controller.selected

theorem Exclusive.of_kept {m : Models} {e : ModelEntry} (hf : m.find e.id = some e) (h : w.Kept m e) : w.Exclusive := by
  obtain ⟨⟨rfl, rfl, ho⟩, hk⟩ := h
  exact ⟨hf, ⟨rfl, rfl, ho⟩, hk⟩

theorem Launched.exclusive (h : w.Launched) : w.Exclusive := by
  refine ⟨h.selected, ⟨rfl, rfl, h.gate.2⟩, (only_psi h.kind).mpr ⟨?_, fun _ => h.serves⟩⟩
  simp [GrootGroup.running, h.groot.1, h.groot.2.1]

/-- A switch that is refused, or to the selected entry, changes nothing but the lock. -/
theorem switch_unchanged {id : String} {o : Switch} {m : Models} {e : ModelEntry} (hn : ¬w.Changes id) (h : w.Kept m e) :
    (after (switch id o) w).Kept m e := by
  simp only [after, switch, entry, raiseIf, onController, status, ensuring_run, EStateM.run_bind, EStateM.run_get]
  cases hf : w.models.find id with
  | none => exact h
  | some t =>
    by_cases ha : t.available = true
    · by_cases hl : w.controller.switchLock = true
      · simpa [ha, hl] using h
      · have hl : w.controller.switchLock = false := by simpa using hl
        have hid : t.id = w.controller.selected.id := by
          by_contra hne
          exact hn ⟨t, hf, ha, hl, hne⟩
        simpa [ha, hl, hid, Controller.lock] using
          (h.setController (c := w.controller.lock) rfl).setController (c := w.controller.lock.unlock) rfl
    · simpa [ha] using h

theorem switch_exclusive {id : String} {o : Switch} (h : w.Exclusive) (hc : w.Changes id → w.SwitchClean id o) :
    (after (switch id o) w).Exclusive := by
  by_cases hch : w.Changes id
  · obtain ⟨hsmooth, hclean⟩ := hc hch
    obtain ⟨t, hf, ha, hl, hne⟩ := hch
    have hpre : (w.setController w.controller.lock).Kept w.models w.controller.selected := h.kept.setController rfl
    have hx := change_clean (m := w.models) hsmooth (hclean t hf) (Models.find_distinct h.found hf hne)
    unfold after
    rw [switch_run hf ha hl hne]
    cases hr : (change o w.controller.selected t).run (w.setController w.controller.lock) with
    | ok a v =>
      have hv := ok_of_triple hx hpre hr
      exact .of_kept ((Models.id_of_find hf).symm ▸ hf) (Kept.setController hv rfl)
    | error x v =>
      have hv := error_of_triple hx hpre hr
      exact .of_kept h.found (Kept.setController ⟨hv.1, hv.2.2.1⟩ rfl)
  · exact .of_kept h.found (switch_unchanged hch h.kept)

theorem elapse_exclusive (h : w.Exclusive) (server grootServer vla : Bool) :
    (w.turn (.elapse server grootServer vla)).Exclusive := by
  refine ⟨h.found, ⟨rfl, rfl, h.kept.1.opened⟩, ?_⟩
  have ho := h.kept.2
  cases hk : w.controller.selected.kind with
  | psi =>
    rw [only_psi hk] at ho
    refine (only_psi hk).mpr ⟨?_, fun ha => ?_⟩
    · simp_all [turn, GrootGroup.running, GrootGroup.elapse]
    · refine ho.2 ?_
      simp_all [turn]
  | groot =>
    rw [only_groot hk] at ho
    refine (only_groot hk).mpr ?_
    simp_all [turn]

theorem turn_exclusive {t : Turn} (h : w.Exclusive) (hc : SwitchesClean w t) : (w.turn t).Exclusive := by
  cases t with
  | elapse server grootServer vla => exact elapse_exclusive h server grootServer vla
  | call c =>
    cases c with
    | start o => exact .of_kept h.found (after_of_triple (start_kept o _ _) h.kept)
    | stop => exact .of_kept h.found (after_of_triple (stop_kept _ _) h.kept)
    | reset o => exact .of_kept h.found (after_of_triple (reset_kept o _ _) h.kept)
    | switch id o => exact switch_exclusive h hc

theorem exclusive (h : systemMachine.Reach SwitchesClean w) : w.Exclusive :=
  h.invariant (fun _ hl => hl.exclusive) fun _ _ _ _ he hc hs => Option.some.inj hs ▸ turn_exclusive he hc

/-! ### The claim of a failed switch -/

/-- What a switch that raises is to leave. -/
structure FailedClosed (target : ModelEntry) (w : System) : Prop where
  state : w.controller.state = .error
  gate : w.router.gate = false
  target : ¬target.Same w.controller.selected → ¬w.Runs target
  server : w.server.alive = true → w.controller.selected.kind = .psi ∧ w.Serves w.controller.selected

theorem FailedClosed.of_only {t : ModelEntry} (hs : w.controller.state = .error) (hg : w.router.gate = false)
    (ho : w.Only w.controller.selected) (hd : ¬(t.kind = .groot ∧ w.controller.selected.kind = .groot)) :
    w.FailedClosed t := by
  refine ⟨hs, hg, fun hsame hr => ?_, fun ha => ?_⟩
  · cases hk : t.kind with
    | psi =>
      obtain ⟨ha, hserves⟩ := (runs_psi hk).mp hr
      cases hp : w.controller.selected.kind with
      | psi =>
        have hselected := ((only_psi hp).mp ho).2 ha
        exact hsame ⟨hk.trans hp.symm, hserves.1.symm.trans hselected.1, hserves.2.symm.trans hselected.2⟩
      | groot => exact absurd (ha.symm.trans ((only_groot hp).mp ho)) nofun
    | groot =>
      have hp : w.controller.selected.kind = .psi := by
        cases hp : w.controller.selected.kind with
        | psi => rfl
        | groot => exact absurd ⟨hk, hp⟩ hd
      exact absurd (((runs_groot hk).mp hr).symm.trans ((only_psi hp).mp ho).1) nofun
  · cases hp : w.controller.selected.kind with
    | psi => exact ⟨rfl, ((only_psi hp).mp ho).2 ha⟩
    | groot => exact absurd (ha.symm.trans ((only_groot hp).mp ho)) nofun

/-- A switch that raises while it starts its target ends closed exactly when the start that fails leaves no
    process running, or one of the previous model's own backend. -/
theorem failed_switch_closed_iff {w' : System} {id : String} {t : ModelEntry} {o : Switch} {x : Exn}
    (hw : systemMachine.Reach SwitchesClean w) (hf : w.models.find id = some t) (ha : t.available = true)
    (hl : w.controller.switchLock = false) (hne : t.id ≠ w.controller.selected.id) (hstop : o.stop.smooth)
    (hx : (switch id o).run w = .error x w') :
    w'.FailedClosed t ↔ (o.start.strays t = true → t.Same w.controller.selected) := by
  have h := exclusive hw
  have hd := Models.find_distinct h.found hf hne
  have hpre : (w.setController w.controller.lock).Kept w.models w.controller.selected := h.kept.setController rfl
  rw [switch_run hf ha hl hne] at hx
  cases hr : (change o w.controller.selected t).run (w.setController w.controller.lock) with
  | ok a v => simp [hr] at hx
  | error y v =>
    simp only [hr, EStateM.Result.error.injEq] at hx
    obtain ⟨rfl, rfl⟩ := hx
    constructor
    · intro hclosed hs
      by_contra hsame
      obtain ⟨hsel, hruns⟩ := error_of_triple (change_stray hstop hs hd w.models) hpre hr
      exact hclosed.target (by simpa [Controller.unlock, hsel] using hsame) hruns
    · intro hclean
      obtain ⟨hframe, hgate, honly, hstate⟩ := error_of_triple (change_clean hstop hclean hd w.models) hpre hr
      refine FailedClosed.of_only hstate hgate ?_ ?_
      · rw [← hframe.selected] at honly
        exact honly
      · rw [← hframe.selected] at hd
        exact hd

/-- The checkpoint of the target is missing, and the previous server comes back. -/
def missing : Switch where
  start := { smooth with server := { checkpoint := false, spawn := .pid 11 } }
  back := smooth

theorem failed_switch_closed_iff_missing :
    (after (switch "base" missing) bridge).FailedClosed base ↔ (missing.start.strays base = true → base.Same fineTuned) :=
  failed_switch_closed_iff (w := bridge) (t := base) (o := missing) (.init bridge_launched)
    (show bridge.models.find "base" = some base by decide) rfl rfl (by decide) ⟨rfl, rfl, rfl⟩ rfl

/-- The target's server starts but does not serve what it was started for, and goes on running. -/
def refused : Switch where
  start := { smooth with verify := .error ⟨"CheckpointError", "serves another checkpoint"⟩ }
  back := smooth

theorem refused_server_survives :
    ¬∀ (w w' : System) (id : String) (t : ModelEntry) (o : Switch) (x : Exn), systemMachine.Reach SwitchesClean w →
      w.models.find id = some t → t.available = true → w.controller.switchLock = false →
      t.id ≠ w.controller.selected.id → o.stop.smooth → (switch id o).run w = .error x w' → w'.FailedClosed t := by
  intro h
  have hclosed := h bridge _ "base" base refused _ (.init bridge_launched) (by decide) rfl rfl (by decide) ⟨rfl, rfl, rfl⟩ rfl
  exact hclosed.target (by simp [ModelEntry.Same]; decide) ⟨rfl, rfl, rfl⟩

end System
end HumanoidLab
