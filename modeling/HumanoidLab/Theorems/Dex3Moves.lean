import HumanoidLab.FluxDex3.System
import Mathlib.Logic.Relation

/-! What the steps of the Dex3 system do: each is a sequence of moves, which change one thing and say what they need for it. An invariant
    is kept by a step when the moves keep it. -/

namespace HumanoidLab.FluxDex3
open Concurrency Fallible

variable {S : Type}

/-- What an event settles. -/
def Node.settleEvent : Event → Node → Node
  | .status .. => id
  | .error session _ _ => Node.settle session
  | .actions session _ _ _ => Node.settle (some session)

/-- The outcome that the node waits for. -/
def Node.awaits (n : Node) (key : Session × Nat) : Prop := n.inflight = true ∧ n.executor.session = some key.1 ∧ n.nextSeq = key.2 + 1

/-- What becomes of a pending prediction. -/
inductive Outcome (replies : List (Peer × WireReply)) (connection : Nat) (session : Session) (seq : Nat) (stamp : ℚ) : Event → Prop
  | failed (text : String) : Outcome replies connection session seq stamp (.error (some session) (some seq) text)
  | answered {actions : NdArray ℚ} (h : (Peer.node connection, WireReply.predict session seq actions) ∈ replies) :
      Outcome replies connection session seq stamp (.actions session seq stamp actions)

inductive Move (config : NodeConfig) (policy : Policy S) : System S × Journal → System S × Journal → Prop
  | wait {s : System S} {j : Journal} (now : ℚ) (h : s.clock ≤ now) : Move config policy (s, j) ({ s with clock := now }, j)
  -- The node.
  | sensors {s : System S} {j : Journal} (image : Option (RgbImage × ℚ × ℚ)) (latest : JointTopic → Option JointSample)
      (history : JointTopic → List JointSample) (serverStatus : ServerStatus) (checkpoint reason : String) (lastRequestStart : Option ℚ) :
      Move config policy (s, j)
        ({ s with node := { s.node with image, latest, history, serverStatus, checkpoint, reason, lastRequestStart } }, j)
  | abort {s : System S} {j : Journal} (reason : String) : Move config policy (s, j) ({ s with node := s.node.abort reason }, j)
  | reserve {s : System S} {j : Journal} (session : Session) :
      Move config policy (s, j) ({ s with sessions := session :: s.sessions }, j)
  | begins {s : System S} {j : Journal} (session : Session) (prompt : String) (fresh : session ∉ s.sessions)
      (known : prompt ∈ prompts) (idle : s.node.executor.session = none)
      (resumes : s.node.paused = true → prompt = s.node.prompt ∧ s.node.pausedRequestPending = false) :
      Move config policy (s, j) ({ s with node := s.node.begin session prompt, sessions := session :: s.sessions },
        { j with task := if s.node.paused then j.task else j.task + 1 })
  | submit {s : System S} {j : Journal} (session : Session) (stamp : ℚ) (image : RgbImage) (state : List ℚ) (sent : ℚ)
      (active : s.node.executor.session = some session) (free : s.node.inflight = false) (next : s.node.executor.nextChunk = none) :
      Move config policy (s, j)
        ({ s with node := { s.node with
            commands := s.node.commands ++ [⟨session, s.node.nextSeq, stamp, s.node.prompt, image, state⟩]
            nextSeq := s.node.nextSeq + 1, inflight := true, lastRequestStart := some sent } },
          { j with submitted := j.submitted ++ [⟨j.task, ⟨session, s.node.nextSeq, stamp, s.node.prompt, image, state⟩⟩] })
  | pause {s : System S} {j : Journal} (session : Session) (action : List ℚ) (reason : String) (running : s.node.paused = false)
      (active : s.node.executor.session = some session) (last : s.node.lastAction = some action) :
      Move config policy (s, j)
        ({ s with node := { s.node with
            pauseTarget := some action, pausedSession := some session, pausedRequestPending := s.node.inflight, executor := {}
            inflight := false, paused := true, holdUntilFirstChunk := false, reason } }, j)
  | discard {s : System S} {j : Journal} (event : Event) (rest : List Event) (h : s.node.events = event :: rest)
      (unawaited : ∀ key, s.node.awaits key → event.outcome ≠ some key) :
      Move config policy (s, j) ({ s with node := ({ s.node with events := rest } : Node).settleEvent event }, j)
  | fails {s : System S} {j : Journal} (event : Event) (rest : List Event) (reason : String) (h : s.node.events = event :: rest) :
      Move config policy (s, j) ({ s with node := ({ s.node with events := rest } : Node).abort reason }, j)
  | accept {s : System S} {j : Journal} (session : Session) (seq : Nat) (stamp : ℚ) (actions : NdArray ℚ) (rest : List Event) (age : ℚ)
      (chunk : Chunk) (executor : Executor) (h : s.node.events = .actions session seq stamp actions :: rest)
      (awaited : s.node.awaits (session, seq)) (read : chunkOf config actions = some chunk)
      (accepted : s.node.executor.accept config.executor session seq age actions s.clock = .ok executor) :
      Move config policy (s, j)
        ({ s with node := { ({ s.node with events := rest } : Node).settle (some session) with executor, inflight := false } },
          { j with accepted := j.accepted ++ [⟨j.task, session, seq, age, chunk⟩] })
  | play {s : System S} {j : Journal} (target : List ℚ) (executor : Executor) (command : Option Command) (running : s.node.paused = false)
      (ticks : s.node.executor.tick config.executor s.clock = (some target, executor)) :
      Move config policy (s, j)
        ({ s with node := s.node.played target executor },
          { j with published := j.published ++ [⟨j.task, s.node.prompt, target, command⟩] })
  | hold {s : System S} {j : Journal} (target : List ℚ) (command : Option Command) (held : s.node.pauseTarget = some target)
      (idle : s.node.paused = true ∨ s.node.holdUntilFirstChunk = true ∧ s.node.executor.current = none) :
      Move config policy (s, j) (s, { j with published := j.published ++ [⟨j.task, s.node.prompt, target, command⟩] })
  -- The network thread.
  | network {s : System S} {j : Journal} (worker : NetworkWorker) (pending : worker.pending = s.worker.pending)
      (connection : worker.connection = s.worker.connection) : Move config policy (s, j) ({ s with worker }, j)
  | send {s : System S} {j : Journal} (r : Request) (rest : List Request) (worker : NetworkWorker) (idle : s.worker.pending = none)
      (h : s.node.commands = r :: rest) (pending : worker.pending = some (.predict r.session r.seq r.stamp)) :
      Move config policy (s, j)
        ({ s with
          node := { s.node with commands := rest }, worker
          requests := s.requests ++ [(.node s.worker.connection, .ok (.predict r))] }, j)
  | sendFails {s : System S} {j : Journal} (r : Request) (rest : List Request) (text : String) (worker : NetworkWorker)
      (idle : s.worker.pending = none) (h : s.node.commands = r :: rest) (pending : worker.pending = none) :
      Move config policy (s, j)
        ({ s with
          node := { s.node with commands := rest, events := s.node.events ++ [.error (some r.session) (some r.seq) text] }, worker },
          { j with outcomes := j.outcomes ++ [(r.session, r.seq)] })
  | sendStatus {s : System S} {j : Journal} (worker : NetworkWorker) (idle : s.worker.pending = none)
      (pending : worker.pending = some .status) :
      Move config policy (s, j) ({ s with worker, requests := s.requests ++ [(.node s.worker.connection, .ok .status)] }, j)
  | report {s : System S} {j : Journal} (event : Event) (worker : NetworkWorker)
      (idle : ∀ session seq stamp, s.worker.pending ≠ some (.predict session seq stamp)) (pending : worker.pending = none)
      (h : event.outcome = none) :
      Move config policy (s, j) ({ s with node := { s.node with events := s.node.events ++ [event] }, worker }, j)
  | settle {s : System S} {j : Journal} (session : Session) (seq : Nat) (stamp : ℚ) (event : Event) (worker : NetworkWorker)
      (waiting : s.worker.pending = some (.predict session seq stamp)) (pending : worker.pending = none)
      (h : Outcome s.replies s.worker.connection session seq stamp event) :
      Move config policy (s, j)
        ({ s with node := { s.node with events := s.node.events ++ [event] }, worker },
          { j with outcomes := j.outcomes ++ [(session, seq)] })
  -- The wire.
  | wire {s : System S} {j : Journal} (requests : List (Peer × Except String WireRequest)) (replies : List (Peer × WireReply))
      (sent : ∀ m ∈ requests, m ∈ s.requests ∨ ∃ id, m.1 = .other id) (answered : ∀ m ∈ replies, m ∈ s.replies) :
      Move config policy (s, j) ({ s with requests, replies }, j)
  -- The server.
  | answer {s : System S} {j : Journal} (address : Peer) (reply : WireReply)
      (h : ∀ session seq actions, reply ≠ .predict session seq actions) :
      Move config policy (s, j) ({ s with replies := s.replies ++ [(address, reply)] }, j)
  | enqueue {s : System S} {j : Journal} (address : Peer) (r : Request) (h : (address, .ok (.predict r)) ∈ s.requests)
      (admitted : s.server.refusal r.session r.seq = none) (alive : s.server.crashed = false) :
      Move config policy (s, j) ({ s with server := s.server.enqueue address r }, j)
  | drain {s : System S} {j : Journal} (result : ServerResult) (rest : List ServerResult) (h : s.server.results = result :: rest) :
      Move config policy (s, j)
        ({ s with
          replies := s.replies ++ (({ s.server with results := rest } : Server S).drain result).1.toList
          server := (({ s.server with results := rest } : Server S).drain result).2 }, j)
  | load {s : System S} {j : Journal} (result : ServerResult) (thread : PolicyThread S) (h : s.server.thread = .loading)
      (loaded : (∃ identity model, result = .loaded identity ∧ thread = .waiting model) ∨
        ∃ text, result = .fatal text ∧ thread = .finished) :
      Move config policy (s, j) ({ s with server := { s.server with results := s.server.results ++ [result], thread } }, j)
  | take {s : System S} {j : Journal} (model : S) (job : Job) (rest : List Job) (h : s.server.thread = .waiting model)
      (jobs : s.server.jobs = job :: rest) :
      Move config policy (s, j) ({ s with server := { s.server with jobs := rest, thread := .working model job } }, j)
  | work {s : System S} {j : Journal} (model : S) (job : Job) (loaded : Except String (String × S))
      (h : s.server.thread = .working model job) :
      Move config policy (s, j)
        ({ s with server := { s.server with
            results := s.server.results ++ [(Server.work policy job model).1]
            thread := .waiting (Server.work policy job model).2 } },
          { j with
            calls := j.calls ++ Journal.callsOf policy s (.policy loaded)
            predicted := j.predicted ++ (Journal.predicts policy s (.policy loaded)).toList })

abbrev Moves (config : NodeConfig) (policy : Policy S) : System S × Journal → System S × Journal → Prop :=
  Relation.ReflTransGen (Move config policy)

/-! ### The callbacks of the node -/

section
variable {config : NodeConfig} {timeout : ℚ} {policy : Policy S} {s t : System S} {j : Journal} {a : SystemStep S}

/-- What a request adds to the requests of the node. -/
def Journal.submits (j : Journal) (before after : Node) : Journal :=
  { j with submitted := j.submitted ++ (after.commands.drop before.commands.length).map (⟨j.task, ·⟩) }

theorem Journal.submits_of_eq {before after : Node} (h : after.commands = before.commands) : j.submits before after = j := by
  simp [Journal.submits, h]

/-- `_request`, where no chunk waits. -/
theorem request_moves (clock : Reading) (sent : ℚ) (hnext : s.node.executor.nextChunk = none) :
    Moves config policy (s, j)
      ({ s with node := s.node.request config clock sent }, j.submits s.node (s.node.request config clock sent)) := by
  unfold Node.request
  split
  · rw [Journal.submits_of_eq rfl]
  next session hsession =>
  split
  · rw [Journal.submits_of_eq rfl]
  next hbusy =>
  rw [not_or, Bool.not_eq_true] at hbusy
  split
  · rw [Journal.submits_of_eq (by rfl)]
    exact .single (.abort _)
  next image state stamp _ =>
  split
  · have hsubmits : j.submits s.node { s.node with
        commands := s.node.commands ++ [⟨session, s.node.nextSeq, stamp, s.node.prompt, image, state⟩]
        nextSeq := s.node.nextSeq + 1, inflight := true, lastRequestStart := some sent } =
        { j with submitted := j.submitted ++ [⟨j.task, ⟨session, s.node.nextSeq, stamp, s.node.prompt, image, state⟩⟩] } := by
      simp [Journal.submits]
    rw [hsubmits]
    exact .single (.submit session stamp image state sent hsession hbusy.1 hnext)
  · rw [Journal.submits_of_eq (by rfl)]
    exact .single (.abort _)

theorem start_moves (session : Session) (prompt : String) (times : Node.StartTimes) (hfresh : session ∉ s.sessions) :
    Moves config policy (s, j) ({ s with node := (s.node.start config session prompt times).2, sessions := session :: s.sessions },
      ({ j with task := Journal.begun config s (.start session prompt times) j.task } : Journal).submits s.node
        (s.node.start config session prompt times).2) := by
  cases hrefusal : s.node.refusal config prompt times.check with
  | some reason =>
    have hstart : (s.node.start config session prompt times).2 = { s.node with reason } := by
      unfold Node.start
      rw [hrefusal]
    have htask : Journal.begun config s (.start session prompt times) j.task = j.task := if_pos (Or.inl (by rw [hrefusal]; rfl))
    rw [hstart, htask, Journal.submits_of_eq (by rfl)]
    exact .trans (.single (.reserve session)) (.single (.sensors ..))
  | none =>
    have hchecks : s.node.executor.session = none ∧ prompt ∈ prompts ∧
        (s.node.paused = true → prompt = s.node.prompt ∧ s.node.pausedRequestPending = false) := by
      unfold Node.refusal at hrefusal
      split at hrefusal
      · cases hrefusal
      next hidle =>
      split at hrefusal
      · cases hrefusal
      split at hrefusal
      · cases hrefusal
      next hprompt =>
      split at hrefusal
      · cases hrefusal
      next hsame =>
      split at hrefusal
      · cases hrefusal
      next hsettled =>
      refine ⟨Option.not_isSome_iff_eq_none.mp hidle, not_not.mp hprompt, fun hpaused => ⟨?_, ?_⟩⟩
      · exact not_not.mp fun hne => hsame ⟨hpaused, hne⟩
      · exact Bool.eq_false_iff.mpr fun hpending => hsettled ⟨hpaused, hpending⟩
    obtain ⟨hidle, hprompt, hresumes⟩ := hchecks
    have htask : Journal.begun config s (.start session prompt times) j.task = if s.node.paused then j.task else j.task + 1 := by
      simp only [Journal.begun, hrefusal, Option.isSome_none, Bool.false_eq_true, false_or]
    have hstart : ∃ reason, (s.node.start config session prompt times).2 =
        { (s.node.begin session prompt).request config times.observe times.sent with reason } := by
      unfold Node.start
      rw [hrefusal]
      exact ⟨_, rfl⟩
    obtain ⟨reason, hstart⟩ := hstart
    rw [htask, hstart]
    refine .head (.begins session prompt hfresh hprompt hidle hresumes) (.tail (request_moves times.observe times.sent rfl) ?_)
    exact Move.sensors ..

theorem accept_ok {executorConfig : ExecutorConfig} {session : Session} {seq : Nat} {age now : ℚ} {actions : NdArray ℚ} {e e' : Executor}
    (h : e.accept executorConfig session seq age actions now = .ok e') :
    e.session = some session ∧ e.lastSeq < seq ∧ 0 ≤ age ∧ age ≤ executorConfig.maxChunkAge ∧
      ∃ read chunk, readChunk actions = .ok read ∧ limitChunk executorConfig.limits read = .ok chunk ∧
        (e.current = none ∨ e.nextChunk = none) ∧ e' = e.install chunk seq now := by
  unfold Executor.accept at h
  split at h
  · cases h
  next hsession =>
  split at h
  · cases h
  next hage =>
  obtain ⟨read, hread, h⟩ := bind_ok h
  obtain ⟨chunk, hchunk, h⟩ := bind_ok h
  split at h
  · cases h
  next hqueued =>
  cases h
  rw [not_or, not_not, not_le] at hsession
  rw [not_or, not_lt, not_lt] at hage
  refine ⟨hsession.1, hsession.2, hage.1, hage.2, read, chunk, hread, hchunk, ?_, rfl⟩
  rcases hc : e.current with _ | c
  · exact Or.inl rfl
  · refine Or.inr (Option.not_isSome_iff_eq_none.mp fun hnext => hqueued ⟨?_, hnext⟩)
    rw [hc]
    rfl

theorem judge_some {n : Node} {session : Session} {seq : Nat} {stamp : ℚ} {actions : NdArray ℚ} {times : Node.EventTimes}
    {verdict : Except String Executor} (h : n.judge config session seq stamp actions times = some verdict) :
    n.awaits (session, seq) ∧ ∀ e, verdict = .ok e →
      n.executor.accept config.executor session seq (ageOf times.age stamp) actions times.accepted = .ok e := by
  unfold Node.judge at h
  split at h
  · cases h
  next hawaits =>
  rw [not_or, not_or, not_not, Bool.not_eq_false, not_not] at hawaits
  refine ⟨⟨hawaits.2.1, hawaits.1, ?_⟩, ?_⟩
  · show n.nextSeq = seq + 1
    omega
  · rintro e rfl
    obtain ⟨_, _, haccept⟩ := bind_ok (Option.some.inj h)
    exact haccept

theorem judge_none {n : Node} {session : Session} {seq : Nat} {stamp : ℚ} {actions : NdArray ℚ} {times : Node.EventTimes}
    (h : n.judge config session seq stamp actions times = none) : ¬n.awaits (session, seq) := by
  rintro ⟨hinflight, hsession, hseq⟩
  unfold Node.judge at h
  rw [if_neg] at h
  · cases h
  · rw [not_or, not_or, not_not, Bool.not_eq_false, not_not]
    refine ⟨hsession, hinflight, ?_⟩
    rw [hseq]
    push_cast
    omega

theorem event_moves {event : Event} {rest : List Event} (times : Node.EventTimes) (hevents : s.node.events = event :: rest)
    (hclock : s.clock = times.accepted) :
    Moves config policy (s, j) ({ s with node := ({ s.node with events := rest } : Node).onEvent config event times },
      { j with accepted := j.accepted ++ (Journal.accepts config s (.event times) j.task).toList }) := by
  cases event with
  | status status checkpoint error =>
    have hnone : Journal.accepts config s (.event times) j.task = none := by
      simp only [Journal.accepts, hevents]
    rw [hnone, Option.toList_none, List.append_nil]
    refine .head (.discard _ rest hevents (by rintro key - h; cases h)) ?_
    show Moves config policy _ ({ s with node := ({ s.node with events := rest } : Node).onStatus config status checkpoint error }, j)
    unfold Node.onStatus
    simp only
    split
    · exact .head (.sensors _ _ _ status checkpoint _ _) (.single (.abort _))
    · exact .single (.sensors ..)
  | error session seq text =>
    have hnone : Journal.accepts config s (.event times) j.task = none := by
      simp only [Journal.accepts, hevents]
    rw [hnone, Option.toList_none, List.append_nil]
    cases session with
    | none => exact .head (.discard _ rest hevents (by rintro key - h; cases h)) (.single (.sensors ..))
    | some session =>
      by_cases hcurrent : s.node.executor.session = some session
      · have hfails : ({ s.node with events := rest } : Node).onEvent config (.error (some session) seq text) times =
            ({ s.node with events := rest } : Node).abort ("prediction failed: " ++ text) := by
          exact (if_pos hcurrent).trans rfl
        rw [hfails]
        exact .single (.fails _ rest _ hevents)
      · have hdiscards : ({ s.node with events := rest } : Node).onEvent config (.error (some session) seq text) times =
            ({ s.node with events := rest } : Node).settle (some session) := by
          exact if_neg hcurrent
        rw [hdiscards]
        refine .single (.discard (.error (some session) seq text) rest hevents ?_)
        rintro key ⟨-, hsession, -⟩ houtcome
        cases seq with
        | none => cases houtcome
        | some seq =>
          obtain rfl := Option.some.inj houtcome
          exact hcurrent hsession
  | actions session seq stamp actions =>
    have hjudge : (({ s.node with events := rest } : Node).settle (some session)).judge config session seq stamp actions times =
        s.node.judge config session seq stamp actions times := rfl
    show Moves config policy _ ({ s with node := Node.onActions config session seq stamp actions times _ }, _)
    unfold Node.onActions
    simp only [hjudge, Journal.accepts, hevents]
    cases hverdict : s.node.judge config session seq stamp actions times with
    | none =>
      simp only [Option.toList_none, List.append_nil]
      refine .single (.discard (.actions session seq stamp actions) rest hevents ?_)
      rintro key hawaits houtcome
      obtain rfl := Option.some.inj houtcome
      exact judge_none hverdict hawaits
    | some verdict =>
      obtain ⟨hawaits, haccept⟩ := judge_some hverdict
      cases verdict with
      | error e =>
        simp only [Option.toList_none, List.append_nil]
        exact .single (.fails _ rest ("prediction rejected: " ++ e) hevents)
      | ok executor =>
        have hinstalled := haccept executor rfl
        obtain ⟨-, -, -, -, read, chunk, hread, hchunk, -⟩ := accept_ok hinstalled
        have hof : chunkOf config actions = some chunk := by
          have hboth : (readChunk actions >>= limitChunk config.executor.limits) = .ok chunk := by
            rw [hread]
            exact hchunk
          simp only [chunkOf, hboth]
        simp only [hof, Option.map_some, Option.toList_some]
        exact .single (.accept session seq stamp actions rest _ chunk executor hevents hawaits hof (hclock ▸ hinstalled))

theorem tick_none {executorConfig : ExecutorConfig} {now : ℚ} {e e' : Executor} (h : e.tick executorConfig now = (none, e')) :
    e' = e ∧ (e.session = none ∨ e.current = none) := by
  unfold Executor.tick at h
  split at h
  · split at h
    · cases h
    · split at h <;> cases h
  next hnone =>
  cases h
  refine ⟨rfl, ?_⟩
  rcases hsession : e.session with _ | session
  · exact Or.inl rfl
  · rcases hcurrent : e.current with _ | current
    · exact Or.inr rfl
    · exact absurd hcurrent (hnone session current hsession)

/-- The system and the journal once a tick is finished. -/
def finished (config : NodeConfig) (times : Node.TickTimes) (s : System S) (j : Journal) : System S × Journal :=
  ({ s with node := (s.node.finishTick config times).2 },
    ({ j with published := j.published ++ (Journal.publishes config s (.finish times) j.task).toList } : Journal).submits s.node
      (s.node.finishTick config times).2)

theorem finished_silent {times : Node.TickTimes} {n : Node} (h : s.node.finishTick config times = (none, n))
    (hcommands : n.commands = s.node.commands) : finished config times s j = ({ s with node := n }, j) := by
  have hpublishes : Journal.publishes config s (.finish times) j.task = none := by
    simp only [Journal.publishes, h, Option.map_none]
  rw [finished, hpublishes, h, Option.toList_none, List.append_nil, Journal.submits_of_eq hcommands]

theorem finished_publishes {times : Node.TickTimes} {n : Node} {target : List ℚ} {command : Option Command}
    (h : s.node.finishTick config times = (some (target, command), n)) :
    finished config times s j = ({ s with node := n },
      ({ j with published := j.published ++ [⟨j.task, s.node.prompt, target, command⟩] } : Journal).submits s.node n) := by
  have hpublishes : Journal.publishes config s (.finish times) j.task = some ⟨j.task, s.node.prompt, target, command⟩ := by
    simp only [Journal.publishes, h, Option.map_some]
  rw [finished, hpublishes, h, Option.toList_some]

/-- A held target is published, or dropped. -/
theorem hold_moves {times : Node.TickTimes} {failure : String}
    (hidle : s.node.paused = true ∨ s.node.holdUntilFirstChunk = true ∧ s.node.executor.current = none)
    (h : s.node.finishTick config times = s.node.publishHeld config failure times.publish) :
    Moves config policy (s, j) (finished config times s j) := by
  unfold Node.publishHeld at h
  split at h
  · rw [finished_silent h rfl]
  next target htarget =>
  split at h
  · rw [finished_publishes h, Journal.submits_of_eq (by rfl)]
    exact .single (.hold target _ htarget hidle)
  · rw [finished_silent h rfl]
    exact .single (.abort _)

/-- A row is published, and the next prediction asked for. -/
theorem play_moves {times : Node.TickTimes} {target : List ℚ} {executor : Executor} {command : Option Command}
    (hclock : s.clock = times.tick) (hrunning : s.node.paused = false)
    (htick : s.node.executor.tick config.executor times.tick = (some target, executor))
    (h : s.node.finishTick config times = (some (target, command), (s.node.played target executor).requestNext config times)) :
    Moves config policy (s, j) (finished config times s j) := by
  rw [finished_publishes h]
  refine .head (.play target executor command hrunning (hclock ▸ htick)) ?_
  unfold Node.requestNext
  split
  next hnext => exact request_moves times.observe times.sent (Option.isNone_iff_eq_none.mp hnext.2.1)
  · rw [Journal.submits_of_eq (by rfl)]

theorem finish_moves (times : Node.TickTimes) (hclock : s.clock = times.tick) :
    Moves config policy (s, j) (finished config times s j) := by
  obtain ⟨out, hout⟩ : ∃ out, s.node.finishTick config times = out := ⟨_, rfl⟩
  have hcases := hout
  unfold Node.finishTick at hcases
  split at hcases
  next hpaused => exact hold_moves (Or.inl hpaused) (hout.trans hcases.symm)
  next hpaused =>
  split at hcases
  · rw [finished_silent (hout.trans hcases.symm) rfl]
  next hsession =>
  split at hcases
  · rw [finished_silent (hout.trans hcases.symm) rfl]
    exact .single (.abort _)
  split at hcases
  next htick =>
    split at hcases
    next hhold =>
      have hcurrent := (tick_none htick).2.resolve_left fun hnone => hsession (by rw [hnone]; rfl)
      exact hold_moves (Or.inr ⟨hhold, hcurrent⟩) (hout.trans hcases.symm)
    · rw [finished_silent (hout.trans hcases.symm) rfl]
  next target executor htick =>
    split at hcases
    · rw [finished_silent (hout.trans hcases.symm) rfl]
      exact .single (.abort _)
    · exact play_moves hclock (Bool.eq_false_iff.mpr hpaused) htick (hout.trans hcases.symm)

/-! ### The steps -/

/-- The steps that the journal keeps nothing of but requests and outcomes. -/
def SystemStep.plain : SystemStep S → Bool
  | .start .. | .event _ | .finish _ | .policy _ => false
  | _ => true

theorem extend_plain (ha : a.plain = true) : j.extend config policy s t a =
    { j with
      submitted := j.submitted ++ (t.node.commands.drop s.node.commands.length).map (⟨j.task, ·⟩)
      outcomes := j.outcomes ++ (t.node.events.drop s.node.events.length).filterMap Event.outcome } := by
  cases a <;> first
    | exact absurd ha Bool.false_ne_true
    | simp [Journal.extend, Journal.begun, Journal.callsOf, Journal.predicts, Journal.accepts, Journal.publishes]

/-- A step that neither requests nor reports. -/
theorem extend_silent (ha : a.plain = true) (hcommands : t.node.commands.length ≤ s.node.commands.length)
    (hevents : t.node.events.length ≤ s.node.events.length) : j.extend config policy s t a = j := by
  rw [extend_plain ha, List.drop_eq_nil_of_le hcommands, List.drop_eq_nil_of_le hevents, List.map_nil, List.append_nil, List.filterMap_nil,
    List.append_nil]

/-- A step that reports an event. -/
theorem extend_reports (event : Event) (ha : a.plain = true) (hcommands : t.node.commands.length ≤ s.node.commands.length)
    (hevents : t.node.events = s.node.events ++ [event]) :
    j.extend config policy s t a = { j with outcomes := j.outcomes ++ event.outcome.toList } := by
  rw [extend_plain ha, List.drop_eq_nil_of_le hcommands, hevents, List.drop_left, List.map_nil, List.append_nil]
  cases houtcome : event.outcome <;> simp [houtcome]

/-- A camera message changes the image that is kept, or the reason. -/
theorem receiveImage_changes (config : NodeConfig) (n : Node) (m : ImageMessage) (clock : Reading) :
    ∃ image reason, n.receiveImage config m clock = { n with image, reason } := by
  unfold Node.receiveImage
  split
  · exact ⟨_, _, rfl⟩
  · simp only
    split <;> exact ⟨_, _, rfl⟩

theorem send_moves {now : ℚ} {failure : Option String} (h : System.act config timeout policy s (.send now failure) = some t) :
    Moves config policy (s, j) (t, j.extend config policy s t (.send now failure)) := by
  unfold System.act at h
  simp only at h
  split at h
  swap
  · cases h
  cases h
  unfold NetworkWorker.send System.report
  simp only
  split
  · rw [extend_silent rfl (by rfl) (by simp)]
    simp only [Option.map_none, Option.toList_none, List.append_nil]
    exact .single (.network _ rfl rfl)
  next hidle =>
  rw [Option.not_isSome_iff_eq_none] at hidle
  rcases hcommands : s.node.commands with _ | ⟨r, rest⟩
  · simp only
    split
    · rw [extend_silent rfl (by simp) (by simp)]
      simp only [Option.map_none, Option.toList_none, List.append_nil, ← hcommands]
      exact .single (.network _ rfl rfl)
    split
    · rw [extend_reports serverUnavailable rfl (by simp) (by simp)]
      simp only [Option.map_none, Option.toList_none, Option.toList_some, List.append_nil, ← hcommands]
      have hnone : serverUnavailable.outcome.toList = [] := rfl
      rw [hnone, List.append_nil]
      refine .single (.report serverUnavailable _ (fun session seq stamp hpending => ?_) hidle rfl)
      rw [hidle] at hpending
      cases hpending
    · rw [extend_silent rfl (by simp) (by simp)]
      simp only [Option.map_some, Option.toList_none, Option.toList_some, List.append_nil, ← hcommands]
      exact .single (.sendStatus _ hidle rfl)
  · cases failure with
    | some text =>
      simp only
      rw [extend_reports (.error (some r.session) (some r.seq) text) rfl (by simp [hcommands]) (by simp)]
      simp only [Option.map_none, Option.toList_none, Option.toList_some, List.append_nil]
      exact .single (.sendFails r rest text _ hidle hcommands hidle)
    | none =>
      simp only
      rw [extend_silent rfl (by simp [hcommands]) (by simp)]
      simp only [Option.map_some, Option.toList_none, Option.toList_some, List.append_nil]
      exact .single (.send r rest _ hidle hcommands rfl)

/-- What is pending, and an event for it. -/
def Reports (s : System S) (event : Event) : Prop :=
  ((∀ session seq stamp, s.worker.pending ≠ some (.predict session seq stamp)) ∧ event.outcome = none) ∨
  ∃ session seq stamp, s.worker.pending = some (.predict session seq stamp) ∧
    Outcome s.replies s.worker.connection session seq stamp event

theorem report_moves (worker : NetworkWorker) {event : Event} (hpending : worker.pending = none) (h : Reports s event) :
    Moves config policy (s, j) ({ s with worker, node := { s.node with events := s.node.events ++ [event] } },
      { j with outcomes := j.outcomes ++ event.outcome.toList }) := by
  rcases h with ⟨hidle, hnone⟩ | ⟨session, seq, stamp, hwaiting, houtcome⟩
  · rw [hnone, Option.toList_none, List.append_nil]
    exact .single (.report event worker hidle hpending hnone)
  · have hkey : event.outcome.toList = [(session, seq)] := by cases houtcome <;> rfl
    rw [hkey]
    exact .single (.settle session seq stamp event worker hwaiting hpending houtcome)

theorem reports_idle {event : Event} (hidle : s.worker.pending = none ∨ s.worker.pending = some .status) (h : event.outcome = none) :
    Reports s event := by
  refine Or.inl ⟨fun session seq stamp hwaiting => ?_, h⟩
  rcases hidle with hidle | hidle <;>
  · rw [hwaiting] at hidle
    cases hidle

theorem reports_failed (text : String) : Reports s (Pending.failed s.worker.pending text) := by
  rcases hwaiting : s.worker.pending with _ | (_ | ⟨session, seq, stamp⟩)
  · exact reports_idle (Or.inl hwaiting) rfl
  · exact reports_idle (Or.inr hwaiting) rfl
  · exact Or.inr ⟨session, seq, stamp, hwaiting, .failed text⟩

theorem reports_answered {pending : Pending} {reply : WireReply} (hwaiting : s.worker.pending = some pending)
    (hreply : (.node s.worker.connection, reply) ∈ s.replies) : Reports s (pending.answered reply) := by
  have hfailed : ∀ text, Reports s (Pending.failed (some pending) text) := fun text => hwaiting ▸ reports_failed text
  cases reply with
  | error text of => exact hfailed text
  | status report checkpoint error =>
    cases pending with
    | status => exact reports_idle (Or.inr hwaiting) rfl
    | predict session seq stamp => exact hfailed _
  | predict session seq actions =>
    cases pending with
    | status => exact hfailed _
    | predict ofSession ofSeq stamp =>
      unfold Pending.answered
      simp only
      split
      next hsame =>
        obtain ⟨rfl, rfl⟩ := hsame
        exact Or.inr ⟨session, seq, stamp, hwaiting, .answered hreply⟩
      · exact hfailed _

theorem receive_moves {i : Nat} (h : System.act config timeout policy s (.receive i) = some t) :
    Moves config policy (s, j) (t, j.extend config policy s t (.receive i)) := by
  have herased : ∀ m ∈ s.replies.eraseIdx i, m ∈ s.replies := fun m hm => List.mem_of_mem_eraseIdx hm
  unfold System.act at h
  simp only at h
  split at h
  swap
  · cases h
  next connection reply hreply =>
  split at h
  swap
  · cases h
  next hplace =>
  cases h
  unfold NetworkWorker.receive System.report
  rcases hwaiting : s.worker.pending with _ | pending
  · simp only
    rw [extend_silent rfl (by rfl) (by simp)]
    simp only [Option.toList_none, List.append_nil]
    refine .head (.network { s.worker with pending := none, place := .sending } hwaiting.symm rfl) ?_
    exact .single (.wire s.requests _ (fun m hm => Or.inl hm) herased)
  · simp only
    rw [extend_reports (pending.answered reply) rfl (by rfl) (by simp)]
    have hmem : (.node s.worker.connection, reply) ∈ s.replies := hplace.2 ▸ List.mem_of_getElem? hreply
    refine .tail (report_moves { s.worker with pending := none, place := .expiring } rfl (reports_answered hwaiting hmem)) ?_
    exact .wire s.requests _ (fun m hm => Or.inl hm) herased

theorem receiveFails_moves {text : String} (h : System.act config timeout policy s (.receiveFails text) = some t) :
    Moves config policy (s, j) (t, j.extend config policy s t (.receiveFails text)) := by
  unfold System.act at h
  simp only at h
  split at h
  swap
  · cases h
  cases h
  unfold NetworkWorker.receiveFails System.report
  rw [extend_reports (Pending.failed s.worker.pending text) rfl (by rfl) (by simp)]
  exact report_moves _ rfl (reports_failed text)

theorem expire_moves {now : ℚ} (h : System.act config timeout policy s (.expire now) = some t) :
    Moves config policy (s, j) (t, j.extend config policy s t (.expire now)) := by
  unfold System.act at h
  simp only at h
  split at h
  swap
  · cases h
  cases h
  unfold NetworkWorker.expire System.report
  rcases hwaiting : s.worker.pending with _ | pending
  · simp only
    rw [extend_silent rfl (by rfl) (by simp)]
    simp only [Option.toList_none, List.append_nil]
    exact .single (.network _ (by rw [hwaiting]) rfl)
  · simp only
    split
    · rw [extend_silent rfl (by rfl) (by simp)]
      simp only [Option.toList_none, List.append_nil]
      exact .single (.network _ (by rw [hwaiting]) rfl)
    · cases pending with
      | status =>
        rw [extend_reports serverUnavailable rfl (by rfl) (by simp)]
        exact report_moves _ rfl (reports_idle (Or.inr hwaiting) rfl)
      | predict session seq stamp =>
        rw [extend_reports (.error (some session) (some seq) "prediction timed out") rfl (by rfl) (by simp)]
        exact report_moves _ rfl (Or.inr ⟨session, seq, stamp, hwaiting, .failed _⟩)

theorem serve_moves {i : Nat} (h : System.act config timeout policy s (.serve i) = some t) :
    Moves config policy (s, j) (t, j.extend config policy s t (.serve i)) := by
  have herased : ∀ m ∈ s.requests.eraseIdx i, m ∈ s.requests ∨ ∃ id, m.1 = .other id :=
    fun m hm => Or.inl (List.mem_of_mem_eraseIdx hm)
  unfold System.act at h
  simp only at h
  split at h
  swap
  · cases h
  next address decoded hrequest =>
  split at h
  · cases h
  next halive =>
  cases h
  rw [extend_silent rfl (by rfl) (by rfl)]
  have hanswer : ∀ reply : WireReply, (∀ session seq actions, reply ≠ .predict session seq actions) → Moves config policy (s, j)
      ({ s with requests := s.requests.eraseIdx i, replies := s.replies ++ [(address, reply)] }, j) := fun reply hreply =>
    .head (.answer address reply hreply) (.single (.wire (s.requests.eraseIdx i) _ herased fun m hm => hm))
  match decoded with
  | .error text => exact hanswer _ fun _ _ _ hne => by cases hne
  | .ok .status => exact hanswer _ fun _ _ _ hne => by cases hne
  | .ok (.predict r) =>
    unfold Server.handle
    simp only
    cases hrefusal : s.server.refusal r.session r.seq with
    | some text => exact hanswer _ fun _ _ _ hne => by cases hne
    | none =>
      simp only [Option.map_none, Option.toList_none, List.append_nil]
      refine .head (.enqueue address r (List.mem_of_getElem? hrequest) hrefusal (Bool.eq_false_iff.mpr halive)) ?_
      exact .single (.wire _ s.replies herased fun m hm => hm)

theorem drain_moves (h : System.act config timeout policy s .drain = some t) :
    Moves config policy (s, j) (t, j.extend config policy s t .drain) := by
  unfold System.act at h
  simp only at h
  split at h
  swap
  · cases h
  next result rest hresults =>
  split at h
  · cases h
  cases h
  rw [extend_silent rfl (by rfl) (by rfl)]
  exact .single (.drain result rest hresults)

theorem policy_moves {loaded : Except String (String × S)} (h : System.act config timeout policy s (.policy loaded) = some t) :
    Moves config policy (s, j) (t, j.extend config policy s t (.policy loaded)) := by
  unfold System.act at h
  simp only at h
  obtain ⟨server, hthread, rfl⟩ := Option.map_eq_some_iff.mp h
  have hextend : j.extend config policy s { s with server } (.policy loaded) =
      { j with
        calls := j.calls ++ Journal.callsOf policy s (.policy loaded)
        predicted := j.predicted ++ (Journal.predicts policy s (.policy loaded)).toList } := by
    simp [Journal.extend, Journal.begun, Journal.accepts, Journal.publishes]
  rw [hextend]
  unfold Server.threadStep at hthread
  split at hthread
  next hloading =>
    have hcalls : Journal.callsOf policy s (.policy loaded) = [] := by simp only [Journal.callsOf, hloading]
    have hpredicts : Journal.predicts policy s (.policy loaded) = none := by simp only [Journal.predicts, hloading]
    rw [hcalls, hpredicts, Option.toList_none, List.append_nil, List.append_nil]
    split at hthread
    next identity model =>
      cases hthread
      exact .single (.load _ _ hloading (Or.inl ⟨identity, model, rfl, rfl⟩))
    next text =>
      cases hthread
      exact .single (.load _ _ hloading (Or.inr ⟨text, rfl, rfl⟩))
  next model hwaiting =>
    have hcalls : Journal.callsOf policy s (.policy loaded) = [] := by simp only [Journal.callsOf, hwaiting]
    have hpredicts : Journal.predicts policy s (.policy loaded) = none := by simp only [Journal.predicts, hwaiting]
    rw [hcalls, hpredicts, Option.toList_none, List.append_nil, List.append_nil]
    split at hthread
    next job rest hjobs =>
      cases hthread
      exact .single (.take model job rest hwaiting hjobs)
    · cases hthread
  next model job hworking =>
    cases hthread
    exact .single (.work model job loaded hworking)
  · cases hthread

/-! What the callbacks leave of the events. -/

theorem request_events {n : Node} (clock : Reading) (sent : ℚ) : (n.request config clock sent).events = n.events := by
  unfold Node.request
  split
  · rfl
  split
  · rfl
  split
  · rfl
  split <;> rfl

theorem start_events {n : Node} (session : Session) (prompt : String) (times : Node.StartTimes) :
    (n.start config session prompt times).2.events = n.events := by
  unfold Node.start
  split
  · rfl
  · exact request_events _ _

theorem onEvent_queues (config : NodeConfig) (n : Node) (event : Event) (times : Node.EventTimes) :
    (n.onEvent config event times).events = n.events ∧ (n.onEvent config event times).commands = n.commands := by
  cases event with
  | status status checkpoint error =>
    unfold Node.onEvent Node.onStatus
    simp only
    split <;> exact ⟨rfl, rfl⟩
  | error session seq text =>
    unfold Node.onEvent Node.onError
    cases session with
    | none => exact ⟨rfl, rfl⟩
    | some session =>
      simp only
      split <;> exact ⟨rfl, rfl⟩
  | actions session seq stamp actions =>
    unfold Node.onEvent Node.onActions
    simp only
    split <;> exact ⟨rfl, rfl⟩

theorem publishHeld_events {n : Node} (failure : String) (now : ℚ) : (n.publishHeld config failure now).2.events = n.events := by
  unfold Node.publishHeld
  split
  · rfl
  split <;> rfl

theorem finishTick_events {n : Node} (times : Node.TickTimes) : (n.finishTick config times).2.events = n.events := by
  unfold Node.finishTick
  split
  · exact publishHeld_events _ _
  split
  · rfl
  split
  · rfl
  split
  · split
    · exact publishHeld_events _ _
    · rfl
  split
  · rfl
  unfold Node.requestNext
  split
  · exact request_events _ _
  · rfl

theorem act_moves (htick : ∀ times, a = .finish times → s.clock = times.tick)
    (hevent : ∀ times, a = .event times → s.clock = times.accepted) (h : System.act config timeout policy s a = some t) :
    Moves config policy (s, j) (t, j.extend config policy s t a) := by
  cases a with
  | store key motors now =>
    cases h
    rw [extend_silent rfl (by rfl) (by rfl)]
    exact .single (.sensors ..)
  | image m clock =>
    cases h
    obtain ⟨image, reason, himage⟩ := receiveImage_changes config s.node m clock
    rw [extend_silent rfl (by rw [himage]) (by rw [himage]), himage]
    exact .single (.sensors ..)
  | start session prompt times =>
    unfold System.act at h
    simp only at h
    split at h
    · cases h
    next hfresh =>
    cases h
    have hextend : j.extend config policy s { s with
          node := (s.node.start config session prompt times).2, sessions := session :: s.sessions } (.start session prompt times) =
        ({ j with task := Journal.begun config s (.start session prompt times) j.task } : Journal).submits s.node
          (s.node.start config session prompt times).2 := by
      simp [Journal.extend, Journal.submits, Journal.callsOf, Journal.predicts, Journal.accepts, Journal.publishes, start_events]
    rw [hextend]
    exact start_moves session prompt times hfresh
  | pause =>
    cases h
    unfold Node.pause
    split
    · rw [extend_silent rfl (by rfl) (by rfl)]
    next hrunning =>
    split
    next session action hsession haction =>
      rw [extend_silent rfl (by rfl) (by rfl)]
      exact .single (.pause session action _ (Bool.eq_false_iff.mpr hrunning) hsession haction)
    · rw [extend_silent rfl (by rfl) (by rfl)]
  | stop =>
    cases h
    rw [extend_silent rfl (by rfl) (by rfl)]
    exact .single (.abort _)
  | event times =>
    unfold System.act at h
    simp only at h
    split at h
    · cases h
    next event rest hevents =>
    cases h
    have hqueues : (({ s.node with events := rest } : Node).onEvent config event times).events = rest ∧
        (({ s.node with events := rest } : Node).onEvent config event times).commands = s.node.commands :=
      onEvent_queues config _ event times
    have hdrop : rest.drop (rest.length + 1) = [] := List.drop_eq_nil_of_le (by omega)
    have hextend : j.extend config policy s { s with node := ({ s.node with events := rest } : Node).onEvent config event times }
          (.event times) =
        { j with accepted := j.accepted ++ (Journal.accepts config s (.event times) j.task).toList } := by
      simp [Journal.extend, Journal.begun, Journal.callsOf, Journal.predicts, Journal.publishes, hqueues.1, hqueues.2, hevents, hdrop]
    rw [hextend]
    exact event_moves times hevents (hevent times rfl)
  | finish times =>
    unfold System.act at h
    simp only at h
    split at h
    swap
    · cases h
    next hevents =>
    cases h
    have hextend : ({ s with node := (s.node.finishTick config times).2 },
        j.extend config policy s { s with node := (s.node.finishTick config times).2 } (.finish times)) = finished config times s j := by
      simp [finished, Journal.extend, Journal.submits, Journal.begun, Journal.callsOf, Journal.predicts, Journal.accepts,
        finishTick_events]
    rw [hextend]
    exact finish_moves times (htick times rfl)
  | send now failure => exact send_moves h
  | noReply =>
    unfold System.act at h
    simp only at h
    split at h
    swap
    · cases h
    cases h
    rw [extend_silent rfl (by rfl) (by rfl)]
    exact .single (.network _ rfl rfl)
  | receive i => exact receive_moves h
  | receiveFails text => exact receiveFails_moves h
  | expire now => exact expire_moves h
  | client id decoded =>
    cases h
    rw [extend_silent rfl (by rfl) (by rfl)]
    refine .single (.wire _ _ (fun m hm => ?_) fun m hm => hm)
    rcases List.mem_append.mp hm with hm | hm
    · exact Or.inl hm
    · obtain rfl := List.mem_singleton.mp hm
      exact Or.inr ⟨id, rfl⟩
  | loseRequest i =>
    unfold System.act at h
    simp only at h
    split at h
    swap
    · cases h
    cases h
    rw [extend_silent rfl (by rfl) (by rfl)]
    exact .single (.wire _ _ (fun m hm => Or.inl (List.mem_of_mem_eraseIdx hm)) fun m hm => hm)
  | loseReply i =>
    unfold System.act at h
    simp only at h
    split at h
    swap
    · cases h
    cases h
    rw [extend_silent rfl (by rfl) (by rfl)]
    exact .single (.wire _ _ (fun m hm => Or.inl hm) fun m hm => List.mem_of_mem_eraseIdx hm)
  | serve i => exact serve_moves h
  | drain => exact drain_moves h
  | policy loaded => exact policy_moves h

/-- No callback reads the clock of the system. -/
theorem act_clock (now : ℚ) : System.act config timeout policy { s with clock := now } a =
    (System.act config timeout policy s a).map fun t => { t with clock := now } := by
  unfold System.act
  cases a <;> simp only <;> (repeat' split) <;> first | rfl | rw [Option.map_map]; rfl

/-- When the scheduler is asked in a step. -/
def SystemStep.asks (a : SystemStep S) (now : ℚ) : ℚ :=
  match a with
  | .event times => times.accepted
  | .finish times => times.tick
  | _ => now

theorem asks_between (h : (s.clock :: a.readings).IsChain (· ≤ ·)) :
    s.clock ≤ a.asks s.clock ∧ a.asks s.clock ≤ (s.clock :: a.readings).getLast (List.cons_ne_nil _ _) := by
  cases a <;> simp only [SystemStep.readings, SystemStep.asks, List.isChain_cons_cons, List.isChain_singleton, List.getLast_cons_cons,
    List.getLast_singleton] at h ⊢ <;> grind

/-- A step of the system is a sequence of moves. -/
theorem step_moves (h : (dex3Machine config timeout policy).step s a = some t) :
    Moves config policy (s, j) (t, j.extend config policy s t a) := by
  unfold dex3Machine System.step at h
  simp only at h
  split at h
  swap
  · cases h
  next hchain =>
  obtain ⟨u, hact, rfl⟩ := Option.map_eq_some_iff.mp h
  obtain ⟨hbefore, hafter⟩ := asks_between hchain
  have hwaited : System.act config timeout policy { s with clock := a.asks s.clock } a = some { u with clock := a.asks s.clock } := by
    rw [act_clock, hact]
    rfl
  refine .head (.wait (a.asks s.clock) hbefore) (.tail (act_moves ?_ ?_ hwaited) (.wait _ hafter))
  · rintro times rfl
    rfl
  · rintro times rfl
    rfl

/-! ### Runs -/

variable {as : List (SystemStep S)} {j' : Journal}

/-- A run of the system with its journal is a sequence of moves. -/
theorem moves_of_run (h : (journaledDex3 config timeout policy).run (s, j) as = some (t, j')) : Moves config policy (s, j) (t, j') := by
  induction as generalizing s j with
  | nil =>
    obtain ⟨rfl, rfl⟩ : s = t ∧ j = j' := by simpa using h
    exact .refl
  | cons a as ih =>
    rw [Machine.run_cons, Option.bind_eq_some_iff] at h
    obtain ⟨⟨u, k⟩, hu, h⟩ := h
    obtain ⟨hstep, rfl⟩ := Machine.recording_step_iff.mp hu
    have hact : System.step config timeout policy s a = some u := hstep
    rw [hact, Option.elim_some] at h
    exact (step_moves hstep).trans (ih h)

/-- What every move keeps, a run keeps. -/
theorem Moves.keeps {I : System S × Journal → Prop} {x y : System S × Journal} (h : Moves config policy x y)
    (step : ∀ x y, Move config policy x y → I x → I y) (hx : I x) : I y := by
  induction h with
  | refl => exact hx
  | tail _ hmove ih => exact step _ _ hmove ih

end

end HumanoidLab.FluxDex3
