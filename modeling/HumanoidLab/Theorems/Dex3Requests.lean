import HumanoidLab.Theorems.Dex3Moves

/-! Every request of the Dex3 node has one outcome: what the node asked for was reported, is pending, or waits to be sent, in that order.
    So the node never waits for an outcome that cannot come. -/

namespace HumanoidLab.FluxDex3
open Concurrency

variable {S : Type} {config : NodeConfig} {timeout : ℚ} {policy : Policy S} {s t : System S} {j : Journal}

def Request.key (r : Request) : Session × Nat := (r.session, r.seq)

def Submission.key (x : Submission) : Session × Nat := x.request.key

/-- The prediction that is pending. -/
def Pending.key : Pending → Option (Session × Nat)
  | .status => none
  | .predict session seq _ => some (session, seq)

def NetworkWorker.waiting (w : NetworkWorker) : List (Session × Nat) := (w.pending.bind Pending.key).toList

/-- The outcome of a request is still to come to the node. -/
def System.Underway (s : System S) (key : Session × Nat) : Prop :=
  key ∈ s.worker.waiting ∨ key ∈ s.node.commands.map Request.key ∨ ∃ e ∈ s.node.events, e.outcome = some key

/-- The requests of a run. -/
structure Requests (s : System S) (j : Journal) : Prop where
  flow : j.submitted.map Submission.key = j.outcomes ++ s.worker.waiting ++ s.node.commands.map Request.key
  distinct : (j.submitted.map Submission.key).Nodup
  known : ∀ x ∈ j.submitted, x.request.session ∈ s.sessions
  current : ∀ session, s.node.executor.session = some session → session ∈ s.sessions ∧
    ∀ x ∈ j.submitted, x.request.session = session → x.request.seq < s.node.nextSeq
  inflight : s.node.inflight = true → ∃ key, s.node.awaits key ∧ s.Underway key
  held : s.node.paused = true → s.node.executor.session = none
  pending : s.node.pausedRequestPending = true → s.node.paused = true ∧
    ∃ session seq, s.node.pausedSession = some session ∧ s.Underway (session, seq)

theorem requests_init {clock : ℚ} : Requests ({ clock } : System S) {} where
  flow := rfl
  distinct := .nil
  known x hx := by cases hx
  current session h := by cases h
  inflight h := by cases h
  held h := by cases h
  pending h := by cases h

/-! ### What a move changes -/

/-- A node that waits for nothing. -/
theorem Requests.idle (h : Requests s j) {node : Node} (hcommands : node.commands = s.node.commands)
    (hsession : node.executor.session = none) (hinflight : node.inflight = false) (hpending : node.pausedRequestPending = false) :
    Requests { s with node } j where
  flow := by
    show _ = _ ++ node.commands.map Request.key
    rw [hcommands]
    exact h.flow
  distinct := h.distinct
  known := h.known
  current session hs := by
    rw [hsession] at hs
    cases hs
  inflight hin := by
    rw [hinflight] at hin
    cases hin
  held _ := hsession
  pending hp := by
    rw [hpending] at hp
    cases hp

/-- An event settles the paused request, or leaves the node as it is. -/
theorem settleEvent_eq (event : Event) (n : Node) : ∃ pending : Bool, n.settleEvent event = { n with pausedRequestPending := pending } ∧
    (pending = true → n.pausedRequestPending = true ∧
      (n.paused = true → ∀ key, event.outcome = some key → n.pausedSession ≠ some key.1)) := by
  have hsettle : ∀ session : Option Session, (∀ key, event.outcome = some key → session = some key.1) →
      ∃ pending : Bool, n.settle session = { n with pausedRequestPending := pending } ∧
        (pending = true → n.pausedRequestPending = true ∧
          (n.paused = true → ∀ key, event.outcome = some key → n.pausedSession ≠ some key.1)) := by
    intro session hof
    refine ⟨_, rfl, fun hpending => ?_⟩
    split at hpending
    · cases hpending
    next hother =>
    refine ⟨hpending, fun hpaused key hkey hsame => hother ⟨hpaused, ?_⟩⟩
    rw [hof key hkey, hsame]
  cases event with
  | status => exact ⟨n.pausedRequestPending, rfl, fun h => ⟨h, fun _ key hkey => by cases hkey⟩⟩
  | error session seq text =>
    refine hsettle session fun key hkey => ?_
    cases session with
    | none => cases hkey
    | some session =>
      cases seq with
      | none => cases hkey
      | some seq =>
        obtain rfl := Option.some.inj hkey
        rfl
  | actions session seq stamp actions =>
    refine hsettle (some session) fun key hkey => ?_
    obtain rfl := Option.some.inj hkey
    rfl

theorem install_session (c : Chunk) (seq : Nat) (now : ℚ) (e : Executor) : (e.install c seq now).session = e.session := by
  unfold Executor.install
  simp only
  split <;> rfl

theorem tick_session {executorConfig : ExecutorConfig} {now : ℚ} {e e' : Executor} {target : List ℚ}
    (h : e.tick executorConfig now = (some target, e')) : e'.session = e.session := by
  unfold Executor.tick at h
  split at h
  · split at h
    · cases h
      rfl
    · split at h <;>
      · cases h
        rfl
  · cases h

/-- The network thread has an event more, the node one less. -/
theorem Underway.mono {key : Session × Nat} (h : s.Underway key)
    (hwaiting : key ∈ s.worker.waiting → t.Underway key) (hcommands : key ∈ s.node.commands.map Request.key → t.Underway key)
    (hevents : ∀ e ∈ s.node.events, e.outcome = some key → t.Underway key) : t.Underway key := by
  rcases h with h | h | ⟨e, he, hkey⟩
  · exact hwaiting h
  · exact hcommands h
  · exact hevents e he hkey

/-- A step of the network thread: the flow moves on, and nothing gets lost. -/
theorem Requests.network (h : Requests s j) {worker : NetworkWorker} {commands : List Request} {events : List Event}
    {requests : List (Peer × Except String WireRequest)} {outcomes : List (Session × Nat)}
    (hflow : j.outcomes ++ s.worker.waiting ++ s.node.commands.map Request.key = outcomes ++ worker.waiting ++ commands.map Request.key)
    (hwaiting : ∀ key ∈ s.worker.waiting, key ∈ worker.waiting ∨ ∃ e ∈ events, e.outcome = some key)
    (hcommands : ∀ key ∈ s.node.commands.map Request.key,
      key ∈ worker.waiting ∨ key ∈ commands.map Request.key ∨ ∃ e ∈ events, e.outcome = some key)
    (hevents : ∀ e ∈ s.node.events, e ∈ events) :
    Requests { s with node := { s.node with commands, events }, worker, requests } { j with outcomes } := by
  have hunderway : ∀ key, s.Underway key →
      ({ s with node := { s.node with commands, events }, worker, requests } : System S).Underway key := fun key hunder =>
    Underway.mono hunder (fun hw => (hwaiting key hw).imp_right Or.inr) (hcommands key)
      fun e he hkey => Or.inr (Or.inr ⟨e, hevents e he, hkey⟩)
  refine ⟨h.flow.trans hflow, h.distinct, h.known, h.current, fun hin => ?_, h.held, fun hp => ?_⟩
  · obtain ⟨key, hawaits, hunder⟩ := h.inflight hin
    exact ⟨key, hawaits, hunderway key hunder⟩
  · obtain ⟨hpaused, session, seq, hsession, hunder⟩ := h.pending hp
    exact ⟨hpaused, session, seq, hsession, hunderway _ hunder⟩

theorem waiting_none {w : NetworkWorker} (h : w.pending = none) : w.waiting = [] := by
  rw [NetworkWorker.waiting, h]
  rfl

theorem waiting_predict {w : NetworkWorker} {session : Session} {seq : Nat} {stamp : ℚ}
    (h : w.pending = some (.predict session seq stamp)) : w.waiting = [(session, seq)] := by
  rw [NetworkWorker.waiting, h]
  rfl

theorem waiting_idle {w : NetworkWorker} (h : ∀ session seq stamp, w.pending ≠ some (.predict session seq stamp)) : w.waiting = [] := by
  rcases hp : w.pending with _ | (_ | ⟨session, seq, stamp⟩)
  · exact waiting_none hp
  · rw [NetworkWorker.waiting, hp]
    rfl
  · exact absurd hp (h session seq stamp)

theorem Requests.move {x y : System S × Journal} (hmove : Move config policy x y) (h : Requests x.1 x.2) : Requests y.1 y.2 := by
  cases hmove with
  | wait now hle => exact ⟨h.flow, h.distinct, h.known, h.current, h.inflight, h.held, h.pending⟩
  | sensors => exact ⟨h.flow, h.distinct, h.known, h.current, h.inflight, h.held, h.pending⟩
  | abort reason => exact h.idle rfl rfl rfl rfl
  | reserve session =>
    refine ⟨h.flow, h.distinct, fun x hx => List.mem_cons_of_mem _ (h.known x hx), fun k hk => ?_, h.inflight, h.held, h.pending⟩
    obtain ⟨hmem, hless⟩ := h.current k hk
    exact ⟨List.mem_cons_of_mem _ hmem, hless⟩
  | @begins s j session prompt fresh known idle resumes =>
    refine ⟨h.flow, h.distinct, fun x hx => List.mem_cons_of_mem _ (h.known x hx), fun k hk => ?_, fun hin => ?_, fun hp => ?_,
      fun hp => ?_⟩
    · obtain rfl : session = k := Option.some.inj hk
      exact ⟨List.mem_cons_self, fun x hx hsame => absurd (hsame ▸ h.known x hx) fresh⟩
    all_goals first | cases hin | cases hp
  | @submit s j session stamp image state sent active free next =>
    obtain ⟨hmem, hless⟩ := h.current session active
    have hrunning : s.node.paused = true → False := fun hpaused => by
      have hnone := h.held hpaused
      rw [active] at hnone
      cases hnone
    refine ⟨?_, ?_, fun x hx => ?_, fun k hk => ⟨(h.current k hk).1, fun x hx hsame => ?_⟩, fun _ => ?_, h.held,
      fun hp => absurd (h.pending hp).1 hrunning⟩
    · simp only [List.map_append, h.flow, List.append_assoc]
      rfl
    · rw [List.map_append, List.nodup_append]
      refine ⟨h.distinct, List.nodup_singleton _, ?_⟩
      rintro _ hold _ hnew rfl
      obtain ⟨x, hx, hkey⟩ := List.mem_map.mp hold
      have hnew := List.mem_singleton.mp hnew
      rw [← hkey] at hnew
      obtain ⟨hsame, hseq⟩ := Prod.mk.inj hnew
      exact absurd (hless x hx hsame) (by
        show ¬x.request.seq < _
        rw [show x.request.seq = s.node.nextSeq from hseq]
        exact lt_irrefl _)
    · rcases List.mem_append.mp hx with hx | hx
      · exact h.known x hx
      · obtain rfl := List.mem_singleton.mp hx
        exact hmem
    · show x.request.seq < s.node.nextSeq + 1
      rcases List.mem_append.mp hx with hx | hx
      · exact Nat.lt_succ_of_lt ((h.current k hk).2 x hx hsame)
      · obtain rfl := List.mem_singleton.mp hx
        exact Nat.lt_succ_self _
    · refine ⟨(session, s.node.nextSeq), ⟨rfl, active, rfl⟩, Or.inr (Or.inl ?_)⟩
      rw [List.map_append]
      exact List.mem_append_right _ (List.mem_singleton_self _)
  | @pause s j session action reason running active last =>
    refine ⟨h.flow, h.distinct, h.known, fun k hk => ?_, fun hin => ?_, fun _ => rfl, fun hp => ⟨rfl, ?_⟩⟩
    · cases hk
    · cases hin
    obtain ⟨⟨k, seq⟩, ⟨-, hsession, -⟩, hunderway⟩ := h.inflight hp
    rw [active] at hsession
    exact ⟨session, seq, rfl, (Option.some.inj hsession) ▸ hunderway⟩
  | @discard s j event rest hevents unawaited =>
    obtain ⟨pending, hsettled, hpending⟩ := settleEvent_eq event { s.node with events := rest }
    simp only [hsettled]
    have hunderway : ∀ key, event.outcome ≠ some key → s.Underway key →
        ({ s with node := { s.node with pausedRequestPending := pending, events := rest } } : System S).Underway key := by
      intro key hother hunder
      refine Underway.mono hunder Or.inl (fun hc => Or.inr (Or.inl hc)) fun e he hkey => ?_
      rw [hevents, List.mem_cons] at he
      rcases he with rfl | he
      · exact absurd hkey hother
      · exact Or.inr (Or.inr ⟨e, he, hkey⟩)
    refine ⟨h.flow, h.distinct, h.known, h.current, fun hin => ?_, h.held, fun hp => ?_⟩
    · obtain ⟨key, hawaits, hunder⟩ := h.inflight hin
      exact ⟨key, hawaits, hunderway key (unawaited key hawaits) hunder⟩
    · obtain ⟨hbefore, hother⟩ := hpending hp
      obtain ⟨hpaused, session, seq, hsession, hunder⟩ := h.pending hbefore
      exact ⟨hpaused, session, seq, hsession, hunderway _ (fun hkey => hother hpaused _ hkey hsession) hunder⟩
  | fails event rest reason hevents => exact h.idle rfl rfl rfl rfl
  | @accept s j session seq stamp actions rest age chunk executor hevents awaited read accepted =>
    have hsession : executor.session = s.node.executor.session := by
      obtain ⟨-, -, -, -, -, chunk, -, -, -, rfl⟩ := accept_ok accepted
      exact install_session _ _ _ _
    have hrunning : s.node.paused = true → False := fun hpaused => by
      have hnone := h.held hpaused
      rw [awaited.2.1] at hnone
      cases hnone
    refine ⟨h.flow, h.distinct, h.known, fun k hk => h.current k (hsession ▸ hk), fun hin => ?_, fun hp => absurd hp hrunning, fun hp => ?_⟩
    · cases hin
    obtain ⟨pending, hsettled, hpending⟩ := settleEvent_eq (.actions session seq stamp actions) { s.node with events := rest }
    have heq : (({ s.node with events := rest } : Node).settle (some session)).pausedRequestPending = pending :=
      congrArg Node.pausedRequestPending hsettled
    exact absurd (h.pending (hpending (heq ▸ hp)).1).1 hrunning
  | @play s j target executor command running ticks =>
    have hsession := tick_session ticks
    refine ⟨h.flow, h.distinct, h.known, fun k hk => h.current k (hsession ▸ hk), fun hin => ?_, fun hp => ?_, h.pending⟩
    · obtain ⟨key, ⟨-, hk, hseq⟩, hunder⟩ := h.inflight hin
      exact ⟨key, ⟨hin, hsession ▸ hk, hseq⟩, hunder⟩
    · exact hsession ▸ h.held hp
  | hold target command held idle => exact ⟨h.flow, h.distinct, h.known, h.current, h.inflight, h.held, h.pending⟩
  | @network s j worker pending connection =>
    have hsame : worker.waiting = s.worker.waiting := by rw [NetworkWorker.waiting, NetworkWorker.waiting, pending]
    exact h.network (by rw [hsame]) (fun key hw => Or.inl (hsame ▸ hw)) (fun key hc => Or.inr (Or.inl hc)) fun e he => he
  | @send s j r rest worker idle hcommands pending =>
    refine h.network ?_ (fun key hw => ?_) (fun key hc => ?_) fun e he => he
    · rw [waiting_none idle, waiting_predict pending, hcommands, List.append_nil, List.append_assoc]
      rfl
    · rw [waiting_none idle] at hw
      cases hw
    · rw [hcommands, List.map_cons, List.mem_cons] at hc
      rcases hc with rfl | hc
      · exact Or.inl (waiting_predict pending ▸ List.mem_singleton_self _)
      · exact Or.inr (Or.inl hc)
  | @sendFails s j r rest text worker idle hcommands pending =>
    refine h.network ?_ (fun key hw => ?_) (fun key hc => ?_) fun e he => List.mem_append_left _ he
    · rw [waiting_none idle, waiting_none pending, hcommands, List.append_nil, List.append_nil, List.append_assoc]
      rfl
    · rw [waiting_none idle] at hw
      cases hw
    · rw [hcommands, List.map_cons, List.mem_cons] at hc
      rcases hc with rfl | hc
      · exact Or.inr (Or.inr ⟨_, List.mem_append_right _ (List.mem_singleton_self _), rfl⟩)
      · exact Or.inr (Or.inl hc)
  | @sendStatus s j worker idle pending =>
    have hnone : worker.waiting = [] := waiting_idle fun session seq stamp hp => by
      rw [pending] at hp
      cases hp
    refine h.network ?_ (fun key hw => ?_) (fun key hc => Or.inr (Or.inl hc)) fun e he => he
    · rw [waiting_none idle, hnone]
    · rw [waiting_none idle] at hw
      cases hw
  | @report s j event worker idle pending hnone =>
    refine h.network ?_ (fun key hw => ?_) (fun key hc => Or.inr (Or.inl hc)) fun e he => List.mem_append_left _ he
    · rw [waiting_idle idle, waiting_none pending]
    · rw [waiting_idle idle] at hw
      cases hw
  | @settle s j session seq stamp event worker waiting pending houtcome =>
    refine h.network ?_ (fun key hw => ?_) (fun key hc => Or.inr (Or.inl hc)) fun e he => List.mem_append_left _ he
    · rw [waiting_predict waiting, waiting_none pending, List.append_nil]
    · rw [waiting_predict waiting] at hw
      obtain rfl := List.mem_singleton.mp hw
      refine Or.inr ⟨event, List.mem_append_right _ (List.mem_singleton_self _), ?_⟩
      cases houtcome <;> rfl
  | wire requests replies sent answered => exact ⟨h.flow, h.distinct, h.known, h.current, h.inflight, h.held, h.pending⟩
  | answer address reply => exact ⟨h.flow, h.distinct, h.known, h.current, h.inflight, h.held, h.pending⟩
  | enqueue address r => exact ⟨h.flow, h.distinct, h.known, h.current, h.inflight, h.held, h.pending⟩
  | drain result rest => exact ⟨h.flow, h.distinct, h.known, h.current, h.inflight, h.held, h.pending⟩
  | load result thread => exact ⟨h.flow, h.distinct, h.known, h.current, h.inflight, h.held, h.pending⟩
  | take model job rest => exact ⟨h.flow, h.distinct, h.known, h.current, h.inflight, h.held, h.pending⟩
  | work model job loaded => exact ⟨h.flow, h.distinct, h.known, h.current, h.inflight, h.held, h.pending⟩

/-! ### Runs -/

variable {clock : ℚ} {as : List (SystemStep S)}

theorem requests_run (hrun : (journaledDex3 config timeout policy).run ({ clock }, {}) as = some (s, j)) : Requests s j :=
  (moves_of_run hrun).keeps (I := fun x => Requests x.1 x.2) (fun _ _ hmove h => h.move hmove) requests_init

/-- In every run the outcomes are those of the requests of the node, each once and in the order in which they were made; the others are
    pending or wait to be sent. The node, running or paused, waits only for an outcome that is still to come. -/
theorem one_outcome (hrun : (journaledDex3 config timeout policy).run ({ clock }, {}) as = some (s, j)) :
    (j.submitted.map Submission.key).Nodup ∧
      j.submitted.map Submission.key = j.outcomes ++ s.worker.waiting ++ s.node.commands.map Request.key ∧
      (s.node.inflight = true → ∃ key, s.node.awaits key ∧ s.Underway key) ∧
      (s.node.pausedRequestPending = true → s.node.paused = true ∧
        ∃ session seq, s.node.pausedSession = some session ∧ s.Underway (session, seq)) :=
  have h := requests_run hrun
  ⟨h.distinct, h.flow, h.inflight, h.pending⟩

/-! A run: the model is loaded, a task is started, and the first row of its chunk is played. -/

/-- A camera message without light. -/
def blackMessage : ImageMessage :=
  { encoding := "rgb8", height := 192, width := 256, step := 768, data := List.replicate 147456 0, sec := 1, nanosec := 0 }

def blackFrame : RgbImage where
  height := 192
  width := 256
  data := packRows 768 768 (List.replicate 147456 0) 192
  shape := by decide
  size := packRows_length (by decide) (List.length_replicate ..)

theorem rgbImage_black : rgbImage blackMessage = .ok blackFrame := by
  unfold rgbImage
  rw [dif_pos (by decide : blackMessage.encoding = "rgb8" ∧ (blackMessage.height, blackMessage.width) ∈ [(480, 640), (192, 256)]), dif_pos]
  · rfl
  · exact ⟨by decide, List.length_replicate ..⟩

/-- The clocks start together, at a stamp of one second. -/
def demoReading (now : ℚ) : Reading := ⟨now, ⌊10 ^ 9 * (1 + now)⌋⟩

def demoTick (now : ℚ) : Node.TickTimes := ⟨demoReading now, now, now, now, demoReading now, now⟩

def demoConfig : NodeConfig := { freshness := 1, pairTolerance := 1 / 2, maxChunkAge := 5, output := none }

/-- A policy that moves every joint by a 32nd with each row. -/
def rampPolicy : Policy Unit where
  reset _ := .ok ()
  predict _ _ _ _ := (.ok ⟨true, [32, 28], (List.range 896).map fun i => .fin ((i / 28 : Nat) / 32), by decide +kernel⟩, ())

def demoSteps : List (SystemStep Unit) :=
  [.store .low (List.replicate 35 (.fin 0)) 0, .store .left (List.replicate 7 (.fin 0)) 0, .store .right (List.replicate 7 (.fin 0)) 0,
    .policy (.ok ("model", ())), .drain, .send 0 none, .serve 0, .receive 0, .event ⟨demoReading 0, 10 ^ 9, 0⟩, .expire 0,
    .start "a" "pour water" ⟨demoReading 0, demoReading 0, 0⟩, .send 0 none, .serve 0, .policy (.error ""), .policy (.error ""), .drain,
    .receive 0, .event ⟨demoReading 0, 10 ^ 9, 0⟩, .finish (demoTick 0)]

def demoNode : Node := { image := some (blackFrame, 0, 1) }

/-- The run with the steps `as`, once the image is there. -/
def demoRun (as : List (SystemStep Unit)) : Option (System Unit × Journal) :=
  (journaledDex3 demoConfig 5 rampPolicy).run ({ clock := 0, node := demoNode }, {}) as

/-- An image of its time is kept. -/
theorem receiveImage_fresh {n : Node} {m : ImageMessage} {clock : Reading} {image : RgbImage} {stamp : ℚ} (himage : rgbImage m = .ok image)
    (hstamp : Psi0Dex3.float64 (m.sec + Psi0Dex3.float64 (m.nanosec * Psi0Dex3.float64 (1 / 10 ^ 9))) = stamp)
    (hfresh : ¬(stamp ≤ 0 ∨ ageOf clock.ros stamp < Psi0Dex3.float64 (-5 / 100) ∨ config.freshness < ageOf clock.ros stamp)) :
    n.receiveImage config m clock = { n with image := some (image, clock.mono, stamp) } := by
  unfold Node.receiveImage
  rw [himage, hstamp]
  exact if_neg hfresh

theorem demoRun_eq (as : List (SystemStep Unit)) :
    (journaledDex3 demoConfig 5 rampPolicy).run ({ clock := 0 }, {}) (.image blackMessage (demoReading 0) :: as) = demoRun as := by
  have hstamp : Psi0Dex3.float64 (blackMessage.sec + Psi0Dex3.float64 (blackMessage.nanosec * Psi0Dex3.float64 (1 / 10 ^ 9))) = 1 := by
    decide +kernel
  have himage : ({} : Node).receiveImage demoConfig blackMessage (demoReading 0) = demoNode :=
    receiveImage_fresh rgbImage_black hstamp (by decide +kernel)
  have hstep : System.step demoConfig 5 rampPolicy { clock := 0 } (.image blackMessage (demoReading 0)) =
      some { clock := 0, node := demoNode } := by
    have hact : System.act demoConfig 5 rampPolicy { clock := 0 } (.image blackMessage (demoReading 0)) =
        some { clock := 0, node := demoNode } := by
      rw [← himage]
      rfl
    have hchain : ((0 : ℚ) :: (SystemStep.image blackMessage (demoReading 0) : SystemStep Unit).readings).IsChain (· ≤ ·) := by
      simp [SystemStep.readings, demoReading]
    rw [System.step, if_pos hchain, hact]
    rfl
  have hjournal : (journaledDex3 demoConfig 5 rampPolicy).step ({ clock := 0 }, {}) (.image blackMessage (demoReading 0)) =
      some ({ clock := 0, node := demoNode }, {}) := by
    refine Machine.recording_step_iff.mpr ⟨hstep, ?_⟩
    rw [hstep]
    rfl
  rw [Machine.run_cons, hjournal, Option.bind_some, demoRun]

/-- The run asks for one chunk and plays its first row. -/
theorem demo_records : ∃ s j, demoRun demoSteps = some (s, j) ∧ j.outcomes = [("a", 0)] ∧ j.calls = [.reset, .predict "a" 0] ∧
    j.published = [⟨1, "pour water", List.replicate 28 0, none⟩] := by
  have hrecords : (demoRun demoSteps).map (fun x => (x.2.outcomes, x.2.calls, x.2.published)) =
      some ([("a", 0)], [.reset, .predict "a" 0], [⟨1, "pour water", List.replicate 28 0, none⟩]) := by
    decide +kernel
  obtain ⟨⟨s, j⟩, hrun, hj⟩ := Option.map_eq_some_iff.mp hrecords
  obtain ⟨houtcomes, hj⟩ := Prod.ext_iff.mp hj
  obtain ⟨hcalls, hpublished⟩ := Prod.ext_iff.mp hj
  exact ⟨s, j, hrun, houtcomes, hcalls, hpublished⟩

/-- The one request of the run has its outcome. -/
theorem one_outcome_demo : ∃ s j,
    (journaledDex3 demoConfig 5 rampPolicy).run ({ clock := 0 }, {}) (.image blackMessage (demoReading 0) :: demoSteps) = some (s, j) ∧
      j.outcomes = [("a", 0)] ∧
      j.submitted.map Submission.key = j.outcomes ++ s.worker.waiting ++ s.node.commands.map Request.key := by
  obtain ⟨s, j, hrun, houtcomes, -⟩ := demo_records
  exact ⟨s, j, (demoRun_eq _).trans hrun, houtcomes, (one_outcome ((demoRun_eq _).trans hrun)).2.1⟩

/-! ### Without an answer -/

/-- A step of the node or of its network thread that needs no message of the server, with the reading of the ROS clock that it takes. -/
def SystemStep.Own (ros : Int) : SystemStep S → Prop
  | .event times => times.check.ros = ros ∧ times.age = ros
  | .send _ _ => True
  | .noReply => True
  | .expire _ => True
  | _ => False

variable (ros : System S → Int)

/-- Such steps lead from a state to another, where the ROS clock reads as it is said to. -/
def Recovers (config : NodeConfig) (timeout : ℚ) (policy : Policy S) (x y : System S × Journal) : Prop :=
  (journaledDex3 config timeout policy).Path (fun x a => a.Own (ros x.1)) x y

variable {ros}

theorem Recovers.trans {x y z : System S × Journal} (h : Recovers ros config timeout policy x y)
    (h' : Recovers ros config timeout policy y z) : Recovers ros config timeout policy x z :=
  Machine.Path.trans h h'

theorem recovers_step {a : SystemStep S} (hact : System.act config timeout policy s a = some t)
    (hchain : (s.clock :: a.readings).IsChain (· ≤ ·)) (hown : a.Own (ros s)) :
    ∃ u k, Recovers ros config timeout policy (s, j) (u, k) ∧ u.node = t.node ∧ u.worker = t.worker := by
  have hstep : System.step config timeout policy s a =
      some { t with clock := (s.clock :: a.readings).getLast (List.cons_ne_nil _ _) } := by
    rw [System.step, if_pos hchain, hact]
    rfl
  exact ⟨_, _, .step a .refl hown (Machine.recording_step_iff.mpr ⟨hstep, rfl⟩), rfl, rfl⟩

/-- The events are read. -/
theorem recovers_events (ros : System S → Int) (config : NodeConfig) (timeout : ℚ) (policy : Policy S) (s : System S) (j : Journal) :
    ∃ t k, Recovers ros config timeout policy (s, j) (t, k) ∧ t.node.events = [] ∧ t.node.commands = s.node.commands ∧
      t.worker = s.worker := by
  generalize hevents : s.node.events = events
  induction events generalizing s j with
  | nil => exact ⟨s, j, .refl, hevents, rfl, rfl⟩
  | cons event rest ih =>
    obtain ⟨hrest, hcommands⟩ := onEvent_queues config { s.node with events := rest } event ⟨⟨s.clock, ros s⟩, ros s, s.clock⟩
    have hact : System.act config timeout policy s (.event ⟨⟨s.clock, ros s⟩, ros s, s.clock⟩) = some { s with
        node := ({ s.node with events := rest } : Node).onEvent config event ⟨⟨s.clock, ros s⟩, ros s, s.clock⟩ } := by
      unfold System.act
      simp only [hevents]
    obtain ⟨u, k, hpath, hnode, hworker⟩ := recovers_step (j := j) hact (by simp [SystemStep.readings]) ⟨rfl, rfl⟩
    obtain ⟨t, l, hpath', hdone, hcommands', hworker'⟩ := ih u k (by rw [hnode]; exact hrest)
    refine ⟨t, l, hpath.trans hpath', hdone, ?_, hworker'.trans hworker⟩
    rw [hcommands', hnode]
    exact hcommands

/-- What is pending is settled by the deadline at the latest. -/
theorem recovers_pending (ros : System S → Int) (config : NodeConfig) (timeout : ℚ) (policy : Policy S) (s : System S) (j : Journal) :
    ∃ t k, Recovers ros config timeout policy (s, j) (t, k) ∧ t.worker.place = .sending ∧ t.worker.pending = none ∧
      t.node.commands = s.node.commands := by
  have hexpires : ∀ (s : System S) (j : Journal), s.worker.place = .expiring → ∃ t k, Recovers ros config timeout policy (s, j) (t, k) ∧
      t.worker.place = .sending ∧ t.worker.pending = none ∧ t.node.commands = s.node.commands := by
    intro s j hplace
    have hact : System.act config timeout policy s (.expire (max s.clock s.worker.deadline)) =
        some (({ s with worker := (s.worker.expire (max s.clock s.worker.deadline)).2 } : System S).report
          (s.worker.expire (max s.clock s.worker.deadline)).1) :=
      if_pos hplace
    obtain ⟨t, k, hpath, hnode, hworker⟩ := recovers_step (j := j) hact (by simp [SystemStep.readings]) trivial
    have hsettled : (s.worker.expire (max s.clock s.worker.deadline)).2.place = .sending ∧
        (s.worker.expire (max s.clock s.worker.deadline)).2.pending = none := by
      unfold NetworkWorker.expire
      split
      next hnone => exact ⟨rfl, hnone⟩
      · rw [if_neg (not_lt.mpr (le_max_right _ _))]
        exact ⟨rfl, rfl⟩
    refine ⟨t, k, hpath, ?_, ?_, by rw [hnode]; rfl⟩ <;> rw [hworker]
    · exact hsettled.1
    · exact hsettled.2
  have hpolls : ∀ (s : System S) (j : Journal), s.worker.place = .polling → ∃ t k, Recovers ros config timeout policy (s, j) (t, k) ∧
      t.worker.place = .sending ∧ t.worker.pending = none ∧ t.node.commands = s.node.commands := by
    intro s j hplace
    have hact : System.act config timeout policy s .noReply = some { s with worker := { s.worker with place := .expiring } } :=
      if_pos hplace
    obtain ⟨u, k, hpath, hnode, hworker⟩ := recovers_step (j := j) hact (by simp [SystemStep.readings]) trivial
    obtain ⟨t, l, hpath', hrest⟩ := hexpires u k (by rw [hworker])
    exact ⟨t, l, hpath.trans hpath', by rw [hnode] at hrest; exact hrest⟩
  cases hplace : s.worker.place with
  | expiring => exact hexpires s j hplace
  | polling => exact hpolls s j hplace
  | sending =>
    cases hpending : s.worker.pending with
    | none => exact ⟨s, j, .refl, hplace, hpending, rfl⟩
    | some pending =>
      have hact : System.act config timeout policy s (.send s.clock none) =
          some { s with worker := { s.worker with place := .polling } } := by
        unfold System.act NetworkWorker.send System.report
        simp [hplace, hpending]
      obtain ⟨u, k, hpath, hnode, hworker⟩ := recovers_step (j := j) hact (by simp [SystemStep.readings]) trivial
      obtain ⟨t, l, hpath', hrest⟩ := hpolls u k (by rw [hworker])
      exact ⟨t, l, hpath.trans hpath', by rw [hnode] at hrest; exact hrest⟩

/-- The requests are sent, and each of them is settled. -/
theorem recovers_requests (ros : System S → Int) (config : NodeConfig) (timeout : ℚ) (policy : Policy S) (s : System S) (j : Journal) :
    ∃ t k, Recovers ros config timeout policy (s, j) (t, k) ∧ t.worker.pending = none ∧ t.node.commands = [] := by
  generalize hcommands : s.node.commands = commands
  induction commands generalizing s j with
  | nil =>
    obtain ⟨t, k, hpath, -, hpending, hsame⟩ := recovers_pending ros config timeout policy s j
    exact ⟨t, k, hpath, hpending, hsame.trans hcommands⟩
  | cons r rest ih =>
    obtain ⟨u, k, hpath, hplace, hpending, hsame⟩ := recovers_pending ros config timeout policy s j
    have hact : ∃ v, System.act config timeout policy u (.send u.clock none) = some v ∧ v.node.commands = rest := by
      refine ⟨_, if_pos hplace, ?_⟩
      show (u.worker.send timeout u.clock none u.node.commands).commands = rest
      rw [hsame, hcommands]
      simp [NetworkWorker.send, hpending]
    obtain ⟨v, hact, hrest⟩ := hact
    obtain ⟨v', k', hpath', hnode, -⟩ := recovers_step (j := k) hact (by simp [SystemStep.readings]) trivial
    obtain ⟨t, l, hpath'', hdone⟩ := ih v' k' (by rw [hnode]; exact hrest)
    exact ⟨t, l, (hpath.trans hpath').trans hpath'', hdone⟩

theorem Requests.recovers {x y : System S × Journal} (hpath : Recovers ros config timeout policy x y) (h : Requests x.1 x.2) :
    Requests y.1 y.2 := by
  refine Machine.Path.keeps hpath (I := fun y => Requests y.1 y.2) h fun u a v _ hu _ hstep => ?_
  obtain ⟨hact, hjournal⟩ := Machine.recording_step_iff.mp
    (show (journaledDex3 config timeout policy).step (u.1, u.2) a = some (v.1, v.2) from hstep)
  have hact' : System.step config timeout policy u.1 a = some v.1 := hact
  rw [hact', Option.elim_some] at hjournal
  rw [hjournal]
  exact (step_moves hact).keeps (I := fun x => Requests x.1 x.2) (fun _ _ hmove h => h.move hmove) hu

/-- From every state of every run, the node and its network thread alone come to a state in which nothing is waited for, whatever the ROS
    clock reads: a server that is silent, or messages that are lost, hold up neither the next request nor the start of the next task. -/
theorem never_held_up (ros : System S → Int) (hrun : (journaledDex3 config timeout policy).run ({ clock }, {}) as = some (s, j)) :
    ∃ t k, Recovers ros config timeout policy (s, j) (t, k) ∧ t.node.inflight = false ∧ t.node.pausedRequestPending = false ∧
      t.node.commands = [] ∧ t.worker.pending = none ∧ t.node.events = [] := by
  obtain ⟨u, k, hpath, hpending, hcommands⟩ := recovers_requests ros config timeout policy s j
  obtain ⟨t, l, hpath', hevents, hcommands', hworker⟩ := recovers_events ros config timeout policy u k
  have hall := hpath.trans hpath'
  have hrequests : Requests t l := (requests_run hrun).recovers hall
  have hnone : ∀ key, ¬t.Underway key := by
    rintro key (hwaiting | hqueued | ⟨e, he, -⟩)
    · rw [waiting_none (hworker ▸ hpending)] at hwaiting
      cases hwaiting
    · rw [hcommands', hcommands] at hqueued
      cases hqueued
    · rw [hevents] at he
      cases he
  refine ⟨t, l, hall, Bool.eq_false_iff.mpr fun hin => ?_, Bool.eq_false_iff.mpr fun hp => ?_, hcommands'.trans hcommands,
    hworker ▸ hpending, hevents⟩
  · obtain ⟨key, -, hunderway⟩ := hrequests.inflight hin
    exact hnone key hunderway
  · obtain ⟨-, session, seq, -, hunderway⟩ := hrequests.pending hp
    exact hnone _ hunderway

/-- The request of the run is sent, and nothing answers. -/
theorem never_held_up_demo : ∃ s j,
    (journaledDex3 demoConfig 5 rampPolicy).run ({ clock := 0 }, {}) (.image blackMessage (demoReading 0) :: demoSteps.take 12) =
        some (s, j) ∧
      s.node.inflight = true ∧ ∀ ros, ∃ t k, Recovers ros demoConfig 5 rampPolicy (s, j) (t, k) ∧ t.node.inflight = false := by
  have hinflight : (demoRun (demoSteps.take 12)).map (fun x => x.1.node.inflight) = some true := by decide +kernel
  obtain ⟨⟨s, j⟩, hrun, hs⟩ := Option.map_eq_some_iff.mp hinflight
  have hrun := (demoRun_eq _).trans hrun
  refine ⟨s, j, hrun, hs, fun ros => ?_⟩
  obtain ⟨t, k, hpath, hdone, -⟩ := never_held_up ros hrun
  exact ⟨t, k, hpath, hdone⟩

end HumanoidLab.FluxDex3
