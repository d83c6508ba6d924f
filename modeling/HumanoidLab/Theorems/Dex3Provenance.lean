import HumanoidLab.Theorems.Dex3Requests

/-! Where a target of the Dex3 node comes from: it is a row of what the policy predicted for an observation that the node sent for the
    task that is running, whatever is lost, late or sent by others. -/

namespace HumanoidLab.FluxDex3
open Concurrency Fallible

variable {S : Type} {config : NodeConfig} {timeout : ℚ} {policy : Policy S} {s t : System S} {j k : Journal}

/-! ### The answers of the server -/

/-- Actions that the encoder of a reply lets through. -/
def Encodable (actions : NdArray ℚ) : Prop := actions.shape = [32, 28] ∧ ∀ v ∈ actions.values, v ≠ .nonFinite

/-- The node asked for this. -/
def Journal.Asked (j : Journal) (r : Request) : Prop := ∃ x ∈ j.submitted, x.request = r

/-- The policy answered this to what the node asked for. -/
def Journal.Answered (j : Journal) (r : Request) (actions : NdArray ℚ) : Prop := j.Asked r ∧ (r, actions) ∈ j.predicted ∧ Encodable actions

/-- A job is the one that is being answered. -/
def Matches (j : Journal) (pending : Option ServerPending) (job : Job) : Prop :=
  ∀ p, pending = some p → p.token = job.token → p.session = job.request.session ∧ p.seq = job.request.seq ∧
    ∀ connection, p.address = .node connection → j.Asked job.request

/-- What the server holds and has sent. -/
structure Served (s : System S) (j : Journal) : Prop where
  commands : ∀ r ∈ s.node.commands, j.Asked r
  pending : ∀ session seq stamp, s.worker.pending = some (.predict session seq stamp) →
    ∃ r, j.Asked r ∧ r.key = (session, seq) ∧ r.stamp = stamp
  requests : ∀ connection r, (.node connection, .ok (.predict r)) ∈ s.requests → j.Asked r
  tokens : ∀ p, s.server.pending = some p → p.token < s.server.tokens
  jobs : ∀ job ∈ s.server.jobs, job.token < s.server.tokens ∧ Matches j s.server.pending job
  working : ∀ model job, s.server.thread = .working model job → job.token < s.server.tokens ∧ Matches j s.server.pending job
  results : ∀ token reply, .prediction token reply ∈ s.server.results → token < s.server.tokens ∧ ∃ job actions,
    job.token = token ∧ Matches j s.server.pending job ∧ reply = .predict job.request.session job.request.seq actions ∧
      (job.request, actions) ∈ j.predicted ∧ Encodable actions
  replies : ∀ connection session seq actions, (.node connection, .predict session seq actions) ∈ s.replies →
    ∃ r, j.Answered r actions ∧ r.key = (session, seq)
  events : ∀ session seq stamp actions, .actions session seq stamp actions ∈ s.node.events →
    ∃ r, j.Answered r actions ∧ r.key = (session, seq) ∧ r.stamp = stamp

theorem served_init {clock : ℚ} : Served ({ clock } : System S) {} where
  commands r hr := by cases hr
  pending session seq stamp h := by cases h
  requests connection r h := by cases h
  tokens p h := by cases h
  jobs job h := by cases h
  working model job h := by cases h
  results token reply h := by cases h
  replies connection session seq actions h := by cases h
  events session seq stamp actions h := by cases h

/-- A journal that has all of another's. -/
structure Journal.Extends (j k : Journal) : Prop where
  submitted : ∀ x ∈ j.submitted, x ∈ k.submitted
  predicted : ∀ x ∈ j.predicted, x ∈ k.predicted

theorem Journal.Extends.asked (h : j.Extends k) {r : Request} (hr : j.Asked r) : k.Asked r := by
  obtain ⟨x, hx, rfl⟩ := hr
  exact ⟨x, h.submitted x hx, rfl⟩

theorem Journal.Extends.answered (h : j.Extends k) {r : Request} {actions : NdArray ℚ} (hr : j.Answered r actions) : k.Answered r actions :=
  ⟨h.asked hr.1, h.predicted _ hr.2.1, hr.2.2⟩

theorem Matches.mono (h : j.Extends k) {pending : Option ServerPending} {job : Job} (hm : Matches j pending job) :
    Matches k pending job := fun p hp htoken => by
  obtain ⟨hsession, hseq, hasked⟩ := hm p hp htoken
  exact ⟨hsession, hseq, fun connection haddress => h.asked (hasked connection haddress)⟩

/-- The journal grows. -/
theorem Served.grow (h : Served s j) (hext : j.Extends k) : Served s k where
  commands r hr := hext.asked (h.commands r hr)
  pending session seq stamp hp := by
    obtain ⟨r, hr, hkey, hstamp⟩ := h.pending session seq stamp hp
    exact ⟨r, hext.asked hr, hkey, hstamp⟩
  requests connection r hr := hext.asked (h.requests connection r hr)
  tokens := h.tokens
  jobs job hjob := ⟨(h.jobs job hjob).1, (h.jobs job hjob).2.mono hext⟩
  working model job hjob := ⟨(h.working model job hjob).1, (h.working model job hjob).2.mono hext⟩
  results token reply hr := by
    obtain ⟨hless, job, actions, htoken, hmatches, hreply, hpredicted, hvalid⟩ := h.results token reply hr
    exact ⟨hless, job, actions, htoken, hmatches.mono hext, hreply, hext.predicted _ hpredicted, hvalid⟩
  replies connection session seq actions hr := by
    obtain ⟨r, hanswered, hkey⟩ := h.replies connection session seq actions hr
    exact ⟨r, hext.answered hanswered, hkey⟩
  events session seq stamp actions he := by
    obtain ⟨r, hanswered, hkey, hstamp⟩ := h.events session seq stamp actions he
    exact ⟨r, hext.answered hanswered, hkey, hstamp⟩

/-- The node changes, but for what it has asked for and what was reported to it. -/
theorem Served.node (h : Served s j) (node : Node) (hcommands : ∀ r ∈ node.commands, r ∈ s.node.commands)
    (hevents : ∀ e ∈ node.events, e ∈ s.node.events) : Served { s with node } j :=
  ⟨fun r hr => h.commands r (hcommands r hr), h.pending, h.requests, h.tokens, h.jobs, h.working, h.results, h.replies,
    fun session seq stamp actions he => h.events session seq stamp actions (hevents _ he)⟩

theorem asked_unique (h : Requests s j) {r r' : Request} (hr : j.Asked r) (hr' : j.Asked r') (hkey : r.key = r'.key) : r = r' := by
  obtain ⟨x, hx, rfl⟩ := hr
  obtain ⟨y, hy, rfl⟩ := hr'
  rw [List.inj_on_of_nodup_map h.distinct hx hy hkey]

theorem checkActions_ok {answer : PolicyArray} {actions : NdArray ℚ} (h : Server.checkActions answer = .ok actions) :
    Encodable actions := by
  unfold Server.checkActions at h
  split at h
  · cases h
  next hshape =>
  split at h
  · cases h
  next hfinite =>
  cases h
  rw [not_or, not_not] at hshape
  exact ⟨hshape.1, fun v hv hne => hfinite (List.any_eq_true.mpr ⟨v, hv, decide_eq_true hne⟩)⟩

/-- A job ends with a prediction of the policy, or with an error. -/
theorem work_prediction {job : Job} {model : S} {token : Nat} {reply : WireReply}
    (h : (Server.work policy job model).1 = .prediction token reply) :
    token = job.token ∧ ∃ actions, reply = .predict job.request.session job.request.seq actions ∧ Encodable actions := by
  unfold Server.work at h
  split at h
  · cases h
  next model' hreset =>
  simp only at h
  split at h
  · cases h
  next actions hactions =>
  cases h
  obtain ⟨raw, -, hcheck⟩ := bind_ok hactions
  exact ⟨rfl, actions, rfl, checkActions_ok hcheck⟩

/-! ### What a move changes -/

/-- The server hands something back, or on. -/
theorem Served.passes (h : Served s j) {server : Server S} (htokens : server.tokens = s.server.tokens)
    (hpending : ∀ p, server.pending = some p → s.server.pending = some p) (hjobs : ∀ job ∈ server.jobs, job ∈ s.server.jobs)
    (hthread : ∀ model job, server.thread = .working model job → s.server.thread = .working model job ∨ job ∈ s.server.jobs)
    (hresults : ∀ token reply, .prediction token reply ∈ server.results → .prediction token reply ∈ s.server.results) :
    Served { s with server } j := by
  have hmatches : ∀ job : Job, job.token < s.server.tokens ∧ Matches j s.server.pending job →
      job.token < server.tokens ∧ Matches j server.pending job := fun job hjob =>
    ⟨htokens ▸ hjob.1, fun p hp => hjob.2 p (hpending p hp)⟩
  refine ⟨h.commands, h.pending, h.requests, fun p hp => ?_, fun job hjob => hmatches job (h.jobs job (hjobs job hjob)),
    fun model job hjob => ?_, fun token reply hr => ?_, h.replies, h.events⟩
  · show p.token < server.tokens
    rw [htokens]
    exact h.tokens p (hpending p hp)
  · rcases hthread model job hjob with hworking | hwaiting
    · exact hmatches job (h.working model job hworking)
    · exact hmatches job (h.jobs job hwaiting)
  · obtain ⟨hless, job, actions, rfl, hjob, hrest⟩ := h.results token reply (hresults token reply hr)
    obtain ⟨hless, hjob⟩ := hmatches job ⟨hless, hjob⟩
    exact ⟨hless, job, actions, rfl, hjob, hrest⟩

/-- A reply is sent; one with actions answers a request. -/
theorem Served.replied (h : Served s j) {address : Peer} {reply : WireReply}
    (hreply : ∀ connection session seq actions, address = .node connection → reply = .predict session seq actions →
      ∃ r, j.Answered r actions ∧ r.key = (session, seq)) : Served { s with replies := s.replies ++ [(address, reply)] } j := by
  refine ⟨h.commands, h.pending, h.requests, h.tokens, h.jobs, h.working, h.results, fun connection session seq actions hr => ?_, h.events⟩
  rcases List.mem_append.mp hr with hr | hr
  · exact h.replies connection session seq actions hr
  · obtain ⟨haddress, hsame⟩ := Prod.mk.inj (List.mem_singleton.mp hr)
    exact hreply connection session seq actions haddress.symm hsame.symm

theorem enqueue_jobs {address : Peer} {r : Request} {server : Server S} {job : Job} (h : job ∈ (server.enqueue address r).jobs) :
    job ∈ server.jobs ∨ job = ⟨server.tokens, r, decide (server.sessionId ≠ some r.session)⟩ := by
  unfold Server.enqueue at h
  simp only at h
  split at h
  · rcases List.mem_append.mp h with h | h
    · exact Or.inl h
    · exact Or.inr (List.mem_singleton.mp h)
  · exact Or.inl h

/-- A request is accepted: its token is new, and it alone is being answered. -/
theorem Served.enqueue (h : Served s j) {address : Peer} {r : Request} (hmem : (address, .ok (.predict r)) ∈ s.requests) :
    Served { s with server := s.server.enqueue address r } j := by
  have hmatches : ∀ job : Job, job.token < s.server.tokens →
      job.token < s.server.tokens + 1 ∧ Matches j (s.server.enqueue address r).pending job := by
    refine fun job hless => ⟨Nat.lt_succ_of_lt hless, fun p hp htoken => ?_⟩
    obtain rfl := Option.some.inj hp
    exact absurd htoken.symm hless.ne
  refine ⟨h.commands, h.pending, h.requests, fun p hp => ?_, fun job hjob => ?_,
    fun model job hjob => hmatches job (h.working model job hjob).1, fun token reply hresult => ?_, h.replies, h.events⟩
  · obtain rfl := Option.some.inj hp
    exact Nat.lt_succ_self _
  · rcases enqueue_jobs hjob with hjob | rfl
    · exact hmatches job (h.jobs job hjob).1
    · refine ⟨Nat.lt_succ_self _, fun p hp _ => ?_⟩
      obtain rfl := Option.some.inj hp
      exact ⟨rfl, rfl, fun connection haddress => h.requests connection r (haddress ▸ hmem)⟩
  · obtain ⟨hless, job, actions, rfl, -, hrest⟩ := h.results token reply hresult
    obtain ⟨hless, hjob⟩ := hmatches job hless
    exact ⟨hless, job, actions, rfl, hjob, hrest⟩

/-- A result is handed back: a prediction goes to the sender of its request. -/
theorem Served.drain (h : Served s j) {result : ServerResult} {rest : List ServerResult} (hresults : s.server.results = result :: rest) :
    Served { s with
      replies := s.replies ++ (({ s.server with results := rest } : Server S).drain result).1.toList
      server := (({ s.server with results := rest } : Server S).drain result).2 } j := by
  have hpasses : ∀ (status : ServerStatus) (identity error : String) (pending : Option ServerPending),
      (∀ p, pending = some p → s.server.pending = some p) →
      Served { s with server := { s.server with results := rest, status, identity, error, pending } } j :=
    fun status identity error pending hpending => h.passes rfl hpending (fun job hjob => hjob) (fun model job hjob => Or.inl hjob)
      fun token reply hr => hresults ▸ List.mem_cons_of_mem _ hr
  have hdropped : Served { s with
      replies := s.replies ++ (none : Option (Peer × WireReply)).toList, server := { s.server with results := rest } } j := by
    rw [Option.toList_none, List.append_nil]
    exact hpasses s.server.status s.server.identity s.server.error s.server.pending fun p hp => hp
  unfold Server.drain
  cases result with
  | loaded identity =>
    simp only [Option.toList_none, List.append_nil]
    exact hpasses .ready identity s.server.error s.server.pending fun p hp => hp
  | fatal text =>
    simp only [Option.toList_none, List.append_nil]
    exact hpasses .error s.server.identity _ s.server.pending fun p hp => hp
  | prediction token reply =>
    simp only
    split
    · exact hdropped
    next p hp =>
    split
    swap
    · exact hdropped
    next htoken =>
    refine (hpasses s.server.status s.server.identity s.server.error none fun p hp => by cases hp).replied ?_
    rintro connection session seq actions haddress rfl
    obtain ⟨-, job, actions', rfl, hmatches, hreply, hpredicted, hvalid⟩ := h.results token _ (hresults ▸ List.mem_cons_self)
    obtain ⟨rfl, rfl, rfl⟩ := WireReply.predict.inj hreply
    exact ⟨job.request, ⟨(hmatches p hp htoken).2.2 connection haddress, hpredicted, hvalid⟩, rfl⟩
  | predictionError token text =>
    simp only
    split
    · exact hdropped
    next p hp =>
    split
    swap
    · exact hdropped
    refine (hpasses .error s.server.identity _ none fun p hp => by cases hp).replied ?_
    intro connection session seq actions haddress hreply
    cases hreply

/-- A job is done: its prediction is in the journal. -/
theorem Served.work (h : Served s j) {model : S} {job : Job} (loaded : Except String (String × S))
    (hworking : s.server.thread = .working model job) :
    Served { s with server := { s.server with
      results := s.server.results ++ [(Server.work policy job model).1]
      thread := .waiting (Server.work policy job model).2 } }
      { j with
        calls := j.calls ++ Journal.callsOf policy s (.policy loaded)
        predicted := j.predicted ++ (Journal.predicts policy s (.policy loaded)).toList } := by
  have hgrown := h.grow (k := { j with
    calls := j.calls ++ Journal.callsOf policy s (.policy loaded)
    predicted := j.predicted ++ (Journal.predicts policy s (.policy loaded)).toList })
    ⟨fun _ hx => hx, fun _ hx => List.mem_append_left _ hx⟩
  refine ⟨hgrown.commands, hgrown.pending, hgrown.requests, hgrown.tokens, hgrown.jobs, fun _ _ hjob => ?_, fun token reply hr => ?_,
    hgrown.replies, hgrown.events⟩
  · cases hjob
  rcases List.mem_append.mp hr with hr | hr
  · exact hgrown.results token reply hr
  · have hresult := (List.mem_singleton.mp hr).symm
    obtain ⟨rfl, actions, rfl, hvalid⟩ := work_prediction hresult
    obtain ⟨hless, hmatches⟩ := hgrown.working model job hworking
    refine ⟨hless, job, actions, rfl, hmatches, rfl, List.mem_append_right _ ?_, hvalid⟩
    simp only [Journal.predicts, hworking, hresult, Option.toList_some, List.mem_singleton]

/-- A step of the network thread. -/
theorem Served.network (h : Served s j) {commands : List Request} {events : List Event} {worker : NetworkWorker}
    {requests : List (Peer × Except String WireRequest)} (hcommands : ∀ r ∈ commands, r ∈ s.node.commands)
    (hevents : ∀ session seq stamp actions, .actions session seq stamp actions ∈ events →
      .actions session seq stamp actions ∈ s.node.events ∨ ∃ r, j.Answered r actions ∧ r.key = (session, seq) ∧ r.stamp = stamp)
    (hpending : ∀ session seq stamp, worker.pending = some (.predict session seq stamp) →
      s.worker.pending = some (.predict session seq stamp) ∨ ∃ r ∈ s.node.commands, r.key = (session, seq) ∧ r.stamp = stamp)
    (hrequests : ∀ connection r, (.node connection, .ok (.predict r)) ∈ requests →
      (.node connection, .ok (.predict r)) ∈ s.requests ∨ r ∈ s.node.commands) :
    Served { s with node := { s.node with commands, events }, worker, requests } j := by
  refine ⟨fun r hr => h.commands r (hcommands r hr), fun session seq stamp hp => ?_, fun connection r hr => ?_, h.tokens, h.jobs, h.working,
    h.results, h.replies, fun session seq stamp actions he => ?_⟩
  · rcases hpending session seq stamp hp with hp | ⟨r, hr, hkey, hstamp⟩
    · exact h.pending session seq stamp hp
    · exact ⟨r, h.commands r hr, hkey, hstamp⟩
  · rcases hrequests connection r hr with hr | hr
    · exact h.requests connection r hr
    · exact h.commands r hr
  · rcases hevents session seq stamp actions he with he | hanswered
    · exact h.events session seq stamp actions he
    · exact hanswered

theorem settleEvent_queues (event : Event) (n : Node) :
    (n.settleEvent event).commands = n.commands ∧ (n.settleEvent event).events = n.events := by
  obtain ⟨pending, hsettled, -⟩ := settleEvent_eq event n
  rw [hsettled]
  exact ⟨rfl, rfl⟩

theorem Served.move {x y : System S × Journal} (hmove : Move config policy x y) (hrequests : Requests x.1 x.2) (h : Served x.1 x.2) :
    Served y.1 y.2 := by
  cases hmove with
  | wait now hle => exact ⟨h.commands, h.pending, h.requests, h.tokens, h.jobs, h.working, h.results, h.replies, h.events⟩
  | sensors => exact h.node _ (fun _ hr => hr) fun _ he => he
  | abort reason => exact h.node _ (fun _ hr => hr) fun _ he => he
  | reserve session => exact ⟨h.commands, h.pending, h.requests, h.tokens, h.jobs, h.working, h.results, h.replies, h.events⟩
  | @begins s j session prompt fresh known idle resumes =>
    have hbegun := (h.node (s.node.begin session prompt) (fun _ hr => hr) fun _ he => he).grow
      (k := { j with task := if s.node.paused then j.task else j.task + 1 }) ⟨fun _ hx => hx, fun _ hx => hx⟩
    exact ⟨hbegun.commands, hbegun.pending, hbegun.requests, hbegun.tokens, hbegun.jobs, hbegun.working, hbegun.results, hbegun.replies,
      hbegun.events⟩
  | @submit s j session stamp image state sent active free next =>
    have hgrown := h.grow (k := { j with
      submitted := j.submitted ++ [⟨j.task, ⟨session, s.node.nextSeq, stamp, s.node.prompt, image, state⟩⟩] })
      ⟨fun _ hx => List.mem_append_left _ hx, fun _ hx => hx⟩
    refine ⟨fun r hr => ?_, hgrown.pending, hgrown.requests, hgrown.tokens, hgrown.jobs, hgrown.working, hgrown.results, hgrown.replies,
      hgrown.events⟩
    rcases List.mem_append.mp hr with hr | hr
    · exact hgrown.commands r hr
    · exact ⟨_, List.mem_append_right _ (List.mem_singleton_self _), (List.mem_singleton.mp hr).symm⟩
  | pause session action reason running active last => exact h.node _ (fun _ hr => hr) fun _ he => he
  | @discard s j event rest hevents unawaited =>
    obtain ⟨hcommands, hrest⟩ := settleEvent_queues event { s.node with events := rest }
    refine h.node _ (fun r hr => hcommands ▸ hr) fun e he => ?_
    rw [hrest] at he
    exact hevents ▸ List.mem_cons_of_mem _ he
  | @fails s j event rest reason hevents =>
    exact h.node _ (fun _ hr => hr) fun _ he => hevents ▸ List.mem_cons_of_mem _ he
  | @accept s j session seq stamp actions rest age chunk executor hevents awaited read accepted =>
    have hnode := h.node { ({ s.node with events := rest } : Node).settle (some session) with executor, inflight := false }
      (fun _ hr => hr) fun _ he => hevents ▸ List.mem_cons_of_mem _ he
    exact hnode.grow ⟨fun _ hx => hx, fun _ hx => hx⟩
  | @play s j target executor command running ticks =>
    have hnode := h.node (s.node.played target executor) (fun _ hr => hr) fun _ he => he
    exact hnode.grow ⟨fun _ hx => hx, fun _ hx => hx⟩
  | hold target command held idle => exact h.grow ⟨fun _ hx => hx, fun _ hx => hx⟩
  | @network s j worker pending connection =>
    exact h.network (fun _ hr => hr) (fun _ _ _ _ he => Or.inl he) (fun _ _ _ hp => Or.inl (pending ▸ hp)) fun _ _ hr => Or.inl hr
  | @send s j r rest worker idle hcommands pending =>
    refine h.network (fun _ hr => hcommands ▸ List.mem_cons_of_mem _ hr) (fun _ _ _ _ he => Or.inl he) (fun session seq stamp hp => ?_)
      fun connection r' hr => ?_
    · rw [pending] at hp
      cases hp
      exact Or.inr ⟨r, hcommands ▸ List.mem_cons_self, rfl, rfl⟩
    · rcases List.mem_append.mp hr with hr | hr
      · exact Or.inl hr
      · cases List.mem_singleton.mp hr
        exact Or.inr (hcommands ▸ List.mem_cons_self)
  | @sendFails s j r rest text worker idle hcommands pending =>
    refine (h.network (fun _ hr => hcommands ▸ List.mem_cons_of_mem _ hr) (fun session seq stamp actions he => ?_)
      (fun session seq stamp hp => ?_) fun connection r' hr => Or.inl hr).grow ⟨fun _ hx => hx, fun _ hx => hx⟩
    · rcases List.mem_append.mp he with he | he
      · exact Or.inl he
      · cases List.mem_singleton.mp he
    · rw [pending] at hp
      cases hp
  | @sendStatus s j worker idle pending =>
    refine h.network (fun _ hr => hr) (fun _ _ _ _ he => Or.inl he) (fun session seq stamp hp => ?_) fun connection r hr => ?_
    · rw [pending] at hp
      cases hp
    · rcases List.mem_append.mp hr with hr | hr
      · exact Or.inl hr
      · cases List.mem_singleton.mp hr
  | @report s j event worker idle pending hnone =>
    refine h.network (fun _ hr => hr) (fun session seq stamp actions he => ?_) (fun session seq stamp hp => ?_) fun _ _ hr => Or.inl hr
    · rcases List.mem_append.mp he with he | he
      · exact Or.inl he
      · rw [← List.mem_singleton.mp he] at hnone
        cases hnone
    · rw [pending] at hp
      cases hp
  | @settle s j session seq stamp event worker waiting pending houtcome =>
    refine (h.network (fun _ hr => hr) (fun session' seq' stamp' actions he => ?_) (fun session' seq' stamp' hp => ?_)
      fun _ _ hr => Or.inl hr).grow ⟨fun _ hx => hx, fun _ hx => hx⟩
    · rcases List.mem_append.mp he with he | he
      · exact Or.inl he
      · rw [← List.mem_singleton.mp he] at houtcome
        cases houtcome with
        | answered hreply =>
          obtain ⟨r, hanswered, hkey⟩ := h.replies _ session seq actions hreply
          obtain ⟨r', hasked, hkey', hstamp⟩ := h.pending session seq stamp waiting
          obtain rfl := asked_unique hrequests hanswered.1 hasked (hkey.trans hkey'.symm)
          exact Or.inr ⟨r, hanswered, hkey, hstamp⟩
    · rw [pending] at hp
      cases hp
  | @wire s j requests replies sent answered =>
    refine ⟨h.commands, h.pending, fun connection r hr => ?_, h.tokens, h.jobs, h.working, h.results,
      fun connection session seq actions hr => h.replies connection session seq actions (answered _ hr), h.events⟩
    rcases sent _ hr with hr | ⟨id, hother⟩
    · exact h.requests connection r hr
    · cases hother
  | answer address reply hreply => exact h.replied fun connection session seq actions _ hsame => absurd hsame (hreply session seq actions)
  | enqueue address r hmem admitted alive => exact h.enqueue hmem
  | drain result rest hresults => exact h.drain hresults
  | @load s j result thread hthread loaded =>
    refine h.passes rfl (fun _ hp => hp) (fun _ hjob => hjob) (fun model job hworking => ?_) fun token reply hr => ?_
    · rcases loaded with ⟨identity, model', -, rfl⟩ | ⟨text, -, rfl⟩ <;> cases hworking
    · rcases List.mem_append.mp hr with hr | hr
      · exact hr
      · rcases loaded with ⟨identity, model', rfl, -⟩ | ⟨text, rfl, -⟩ <;> cases List.mem_singleton.mp hr
  | @take s j model job rest hthread hjobs =>
    refine h.passes rfl (fun _ hp => hp) (fun job' hjob => hjobs ▸ List.mem_cons_of_mem _ hjob) (fun model' job' hworking => ?_)
      fun _ _ hr => hr
    cases hworking
    exact Or.inr (hjobs ▸ List.mem_cons_self)
  | work model job loaded hworking => exact h.work loaded hworking

/-! ### The chunks of a task -/

/-- A chunk was predicted for a request of a task, and was taken over while its observation was young enough. -/
def Prepared (config : NodeConfig) (j : Journal) (task : Nat) (prompt : String) (chunk : Chunk) : Prop :=
  ∃ a ∈ j.accepted, a.task = task ∧ a.chunk = chunk ∧ 0 ≤ a.age ∧ a.age ≤ config.maxChunkAge ∧
    ∃ x ∈ j.submitted, x.task = task ∧ x.request.prompt = prompt ∧ x.key = (a.session, a.seq) ∧
      ∃ actions, (x.request, actions) ∈ j.predicted ∧ chunkOf config actions = some chunk

/-- A target is a row of such a chunk. -/
def PreparedRow (config : NodeConfig) (j : Journal) (task : Nat) (prompt : String) (target : List ℚ) : Prop :=
  ∃ chunk, target ∈ chunk.rows ∧ Prepared config j task prompt chunk

/-- What the node plays or holds. -/
structure Played (config : NodeConfig) (s : System S) (j : Journal) : Prop where
  known : ∀ session, s.node.executor.session = some session → s.node.prompt ∈ prompts
  asked : ∀ x ∈ j.submitted, x.request.prompt ∈ prompts
  submitted : ∀ x ∈ j.submitted, s.node.executor.session = some x.request.session → x.task = j.task ∧ x.request.prompt = s.node.prompt
  current : ∀ chunk, s.node.executor.current = some chunk → Prepared config j j.task s.node.prompt chunk
  next : ∀ chunk, s.node.executor.nextChunk = some chunk → Prepared config j j.task s.node.prompt chunk
  last : ∀ target, s.node.lastAction = some target → PreparedRow config j j.task s.node.prompt target
  held : ∀ target, s.node.pauseTarget = some target → PreparedRow config j j.task s.node.prompt target
  published : ∀ p ∈ j.published, PreparedRow config j p.task p.prompt p.target

theorem played_init {clock : ℚ} : Played config ({ clock } : System S) {} where
  known session h := by cases h
  asked x hx := by cases hx
  submitted x hx := by cases hx
  current chunk h := by cases h
  next chunk h := by cases h
  last target h := by cases h
  held target h := by cases h
  published p hp := by cases hp

theorem Prepared.mono (h : j.Extends k) (haccepted : ∀ a ∈ j.accepted, a ∈ k.accepted) {task : Nat} {prompt : String} {chunk : Chunk}
    (hp : Prepared config j task prompt chunk) : Prepared config k task prompt chunk := by
  obtain ⟨a, ha, htask, hchunk, hyoung, hold, x, hx, htask', hprompt, hkey, actions, hactions, hread⟩ := hp
  exact ⟨a, haccepted a ha, htask, hchunk, hyoung, hold, x, h.submitted x hx, htask', hprompt, hkey, actions, h.predicted _ hactions, hread⟩

theorem PreparedRow.mono (h : j.Extends k) (haccepted : ∀ a ∈ j.accepted, a ∈ k.accepted) {task : Nat} {prompt : String} {target : List ℚ}
    (hp : PreparedRow config j task prompt target) : PreparedRow config k task prompt target := by
  obtain ⟨chunk, hrow, hchunk⟩ := hp
  exact ⟨chunk, hrow, hchunk.mono h haccepted⟩

/-- The node changes without a new chunk, task or target. -/
theorem Played.node (h : Played config s j) {node : Node} (hprompt : node.prompt = s.node.prompt)
    (hsession : ∀ session, node.executor.session = some session → s.node.executor.session = some session)
    (hcurrent : ∀ chunk, node.executor.current = some chunk → s.node.executor.current = some chunk)
    (hnext : ∀ chunk, node.executor.nextChunk = some chunk → s.node.executor.nextChunk = some chunk)
    (hlast : ∀ target, node.lastAction = some target → s.node.lastAction = some target)
    (hheld : ∀ target, node.pauseTarget = some target → s.node.pauseTarget = some target ∨ s.node.lastAction = some target) :
    Played config { s with node } j where
  known session hs := by
    show node.prompt ∈ prompts
    rw [hprompt]
    exact h.known session (hsession session hs)
  asked := h.asked
  submitted x hx hs := by
    show _ ∧ _ = node.prompt
    rw [hprompt]
    exact h.submitted x hx (hsession _ hs)
  current chunk hc := by
    show Prepared config j j.task node.prompt chunk
    rw [hprompt]
    exact h.current chunk (hcurrent chunk hc)
  next chunk hc := by
    show Prepared config j j.task node.prompt chunk
    rw [hprompt]
    exact h.next chunk (hnext chunk hc)
  last target ht := by
    show PreparedRow config j j.task node.prompt target
    rw [hprompt]
    exact h.last target (hlast target ht)
  held target ht := by
    show PreparedRow config j j.task node.prompt target
    rw [hprompt]
    rcases hheld target ht with ht | ht
    · exact h.held target ht
    · exact h.last target ht
  published := h.published

/-- A step that is not the node's, and the journal of which adds no chunk, task or target. -/
theorem Played.frame (h : Played config s j) (hnode : t.node.executor = s.node.executor ∧ t.node.prompt = s.node.prompt ∧
      t.node.lastAction = s.node.lastAction ∧ t.node.pauseTarget = s.node.pauseTarget)
    (hjournal : k.task = j.task ∧ k.submitted = j.submitted ∧ k.accepted = j.accepted ∧ k.published = j.published)
    (hpredicted : ∀ x ∈ j.predicted, x ∈ k.predicted) : Played config t k := by
  obtain ⟨hexecutor, hprompt, hlast, hheld⟩ := hnode
  obtain ⟨htask, hsubmitted, haccepted, hpublished⟩ := hjournal
  have hext : j.Extends k := ⟨fun x hx => hsubmitted ▸ hx, hpredicted⟩
  have hkept : ∀ a ∈ j.accepted, a ∈ k.accepted := fun a ha => haccepted ▸ ha
  refine ⟨?_, ?_, ?_, ?_, ?_, ?_, ?_, ?_⟩
  · rw [hexecutor, hprompt]
    exact h.known
  · rw [hsubmitted]
    exact h.asked
  · rw [hsubmitted, hexecutor, hprompt, htask]
    exact h.submitted
  · rw [hexecutor, hprompt, htask]
    exact fun chunk hc => (h.current chunk hc).mono hext hkept
  · rw [hexecutor, hprompt, htask]
    exact fun chunk hc => (h.next chunk hc).mono hext hkept
  · rw [hlast, hprompt, htask]
    exact fun target ht => (h.last target ht).mono hext hkept
  · rw [hheld, hprompt, htask]
    exact fun target ht => (h.held target ht).mono hext hkept
  · rw [hpublished]
    exact fun p hp => (h.published p hp).mono hext hkept

theorem chunkOf_ok {actions : NdArray ℚ} {read chunk : Chunk} (hread : readChunk actions = .ok read)
    (hchunk : limitChunk config.executor.limits read = .ok chunk) : chunkOf config actions = some chunk := by
  have hboth : (readChunk actions >>= limitChunk config.executor.limits) = .ok chunk := by
    rw [hread]
    exact hchunk
  unfold chunkOf
  rw [hboth]

/-- An installed chunk is the one that is played, or it waits. -/
theorem install_chunks (c : Chunk) (seq : Nat) (now : ℚ) (e : Executor) :
    (∀ chunk, (e.install c seq now).current = some chunk → chunk = c ∨ e.current = some chunk) ∧
      ∀ chunk, (e.install c seq now).nextChunk = some chunk → chunk = c := by
  unfold Executor.install
  simp only
  split
  · exact ⟨fun chunk hc => Or.inl (Option.some.inj hc).symm, fun chunk hc => by cases hc⟩
  · exact ⟨fun chunk hc => Or.inr hc, fun chunk hc => (Option.some.inj hc).symm⟩

/-- A row of the chunk that is played, or of the one that waited. -/
theorem tick_chunks {executorConfig : ExecutorConfig} {now : ℚ} {e e' : Executor} {target : List ℚ}
    (h : e.tick executorConfig now = (some target, e')) :
    (∃ chunk, target ∈ chunk.rows ∧ e'.current = some chunk ∧ (e.current = some chunk ∨ e.nextChunk = some chunk)) ∧
      ∀ chunk, e'.nextChunk = some chunk → e.nextChunk = some chunk := by
  unfold Executor.tick at h
  split at h
  swap
  · cases h
  next session current hsession hcurrent =>
  split at h
  · cases h
    exact ⟨⟨current, List.get_mem _ _, hcurrent, Or.inl hcurrent⟩, fun chunk hc => hc⟩
  split at h
  next hnext =>
    cases h
    exact ⟨⟨current, List.get_mem _ _, hcurrent, Or.inl hcurrent⟩, fun chunk hc => hc⟩
  next next hnext =>
    cases h
    exact ⟨⟨next, List.get_mem _ _, rfl, Or.inr hnext⟩, fun chunk hc => by cases hc⟩

theorem Played.begins (h : Played config s j) (hrequests : Requests s j) {session : Session} {prompt : String}
    (hfresh : session ∉ s.sessions) (hknown : prompt ∈ prompts)
    (hresumes : s.node.paused = true → prompt = s.node.prompt ∧ s.node.pausedRequestPending = false) :
    Played config { s with node := s.node.begin session prompt, sessions := session :: s.sessions }
      { j with task := if s.node.paused then j.task else j.task + 1 } := by
  have hkept : ∀ target, PreparedRow config j j.task s.node.prompt target → s.node.paused = true →
      PreparedRow config { j with task := if s.node.paused then j.task else j.task + 1 } (if s.node.paused then j.task else j.task + 1)
        prompt target := by
    intro target ht hpaused
    rw [(hresumes hpaused).1]
    simp only [hpaused, if_true]
    exact ht
  refine ⟨fun _ _ => hknown, h.asked, fun x hx hs => ?_, fun chunk hc => ?_, fun chunk hc => ?_, fun target ht => ?_, fun target ht => ?_,
    h.published⟩
  · obtain rfl : session = x.request.session := Option.some.inj hs
    exact absurd (hrequests.known x hx) hfresh
  · cases hc
  · cases hc
  · by_cases hpaused : s.node.paused = true
    · exact hkept target (h.last target ((if_pos hpaused).symm.trans ht)) hpaused
    · exact absurd ((if_neg hpaused).symm.trans ht) (by simp)
  · by_cases hpaused : s.node.paused = true
    · exact hkept target (h.held target ((if_pos hpaused).symm.trans ht)) hpaused
    · exact absurd ((if_neg hpaused).symm.trans ht) (by simp)

theorem Played.accept (h : Played config s j) (hserved : Served s j) {session : Session} {seq : Nat} {stamp age : ℚ}
    {actions : NdArray ℚ} {rest : List Event} {chunk : Chunk} {executor : Executor}
    (hevents : s.node.events = .actions session seq stamp actions :: rest) (hread : chunkOf config actions = some chunk)
    (haccepted : s.node.executor.accept config.executor session seq age actions s.clock = .ok executor) :
    Played config
      { s with node := { ({ s.node with events := rest } : Node).settle (some session) with executor, inflight := false } }
      { j with accepted := j.accepted ++ [⟨j.task, session, seq, age, chunk⟩] } := by
  obtain ⟨hsession, -, hyoung, hold, read, chunk', hchunk, hlimited, -, rfl⟩ := accept_ok haccepted
  obtain rfl := Option.some.inj (hread.symm.trans (chunkOf_ok hchunk hlimited))
  obtain ⟨r, ⟨⟨x, hx, rfl⟩, hpredicted, -⟩, hkey, -⟩ := hserved.events session seq stamp actions (hevents ▸ List.mem_cons_self)
  obtain ⟨hsame, hseq⟩ := Prod.mk.inj hkey
  obtain ⟨htask, hprompt⟩ := h.submitted x hx (hsame ▸ hsession)
  set k : Journal := { j with accepted := j.accepted ++ [⟨j.task, session, seq, age, chunk⟩] } with hk
  have hext : j.Extends k := ⟨fun _ hx => hx, fun _ hx => hx⟩
  have hkept : ∀ a ∈ j.accepted, a ∈ k.accepted := fun a ha => List.mem_append_left _ ha
  have hnew : Prepared config k j.task s.node.prompt chunk := by
    refine ⟨⟨j.task, session, seq, age, chunk⟩, List.mem_append_right _ (List.mem_singleton_self _), rfl, rfl, hyoung, hold, x, hx, htask,
      hprompt, hkey, actions, hpredicted, hread⟩
  obtain ⟨hcurrent, hnext⟩ := install_chunks chunk seq s.clock s.node.executor
  refine ⟨fun k hk => h.known k (install_session .. ▸ hk), h.asked, fun x hx hs => h.submitted x hx (install_session .. ▸ hs),
    fun c hc => ?_, fun c hc => ?_, fun target ht => (h.last target ht).mono hext hkept,
    fun target ht => (h.held target ht).mono hext hkept, fun p hp => (h.published p hp).mono hext hkept⟩
  · rcases hcurrent c hc with rfl | hc
    · exact hnew
    · exact (h.current c hc).mono hext hkept
  · obtain rfl := hnext c hc
    exact hnew

/-- A target is published. -/
theorem Played.publish (h : Played config s j) {target : List ℚ} (command : Option Command)
    (ht : PreparedRow config j j.task s.node.prompt target) :
    Played config s { j with published := j.published ++ [⟨j.task, s.node.prompt, target, command⟩] } := by
  refine ⟨h.known, h.asked, h.submitted, h.current, h.next, h.last, h.held, fun p hp => ?_⟩
  rcases List.mem_append.mp hp with hp | hp
  · exact h.published p hp
  · obtain rfl := List.mem_singleton.mp hp
    exact ht

theorem Played.move {x y : System S × Journal} (hmove : Move config policy x y) (hrequests : Requests x.1 x.2) (hserved : Served x.1 x.2)
    (h : Played config x.1 x.2) : Played config y.1 y.2 := by
  cases hmove with
  | abort reason =>
    exact h.node rfl (fun _ hs => by cases hs) (fun _ hc => by cases hc) (fun _ hc => by cases hc) (fun _ ht => by cases ht)
      fun _ ht => by cases ht
  | begins session prompt fresh known idle resumes => exact h.begins hrequests fresh known resumes
  | @submit s j session stamp image state sent active free next =>
    have hext : j.Extends { j with
        submitted := j.submitted ++ [⟨j.task, ⟨session, s.node.nextSeq, stamp, s.node.prompt, image, state⟩⟩] } :=
      ⟨fun _ hx => List.mem_append_left _ hx, fun _ hx => hx⟩
    refine ⟨h.known, fun x hx => ?_, fun x hx hs => ?_, fun c hc => (h.current c hc).mono hext fun _ ha => ha,
      fun c hc => (h.next c hc).mono hext fun _ ha => ha, fun t ht => (h.last t ht).mono hext fun _ ha => ha,
      fun t ht => (h.held t ht).mono hext fun _ ha => ha, fun p hp => (h.published p hp).mono hext fun _ ha => ha⟩
    · rcases List.mem_append.mp hx with hx | hx
      · exact h.asked x hx
      · obtain rfl := List.mem_singleton.mp hx
        exact h.known session active
    · rcases List.mem_append.mp hx with hx | hx
      · exact h.submitted x hx hs
      · obtain rfl := List.mem_singleton.mp hx
        exact ⟨rfl, rfl⟩
  | @pause s j session action reason running active last =>
    refine h.node rfl (fun _ hs => by cases hs) (fun _ hc => by cases hc) (fun _ hc => by cases hc) (fun _ ht => ht) fun target ht => ?_
    exact Or.inr (last.trans ht)
  | @discard s j event rest hevents unawaited =>
    obtain ⟨pending, hsettled, -⟩ := settleEvent_eq event { s.node with events := rest }
    simp only [hsettled]
    exact h.frame ⟨rfl, rfl, rfl, rfl⟩ ⟨rfl, rfl, rfl, rfl⟩ fun _ hx => hx
  | @fails s j event rest reason hevents =>
    obtain ⟨pending, hsettled, -⟩ := settleEvent_eq event { s.node with events := rest }
    exact h.node rfl (fun _ hs => by cases hs) (fun _ hc => by cases hc) (fun _ hc => by cases hc) (fun _ ht => by cases ht)
      fun _ ht => by cases ht
  | accept session seq stamp actions rest age chunk executor hevents awaited read accepted => exact h.accept hserved hevents read accepted
  | @play s j target executor command running ticks =>
    obtain ⟨⟨chunk, hrow, hcurrent, hbefore⟩, hnext⟩ := tick_chunks ticks
    have hsession := tick_session ticks
    have hchunk : Prepared config j j.task s.node.prompt chunk := hbefore.elim (h.current chunk) (h.next chunk)
    have hplayed : Played config { s with node := s.node.played target executor } j := by
      refine ⟨fun k hk => h.known k (hsession ▸ hk), h.asked, fun x hx hs => h.submitted x hx (hsession ▸ hs), fun c hc => ?_,
        fun c hc => h.next c (hnext c hc), fun t ht => ?_, fun t ht => ?_, h.published⟩
      · obtain rfl := Option.some.inj (hcurrent.symm.trans hc)
        exact hchunk
      · obtain rfl : target = t := Option.some.inj ht
        exact ⟨chunk, hrow, hchunk⟩
      · cases ht
    exact hplayed.publish command ⟨chunk, hrow, hchunk⟩
  | hold target command held idle => exact h.publish command (h.held target held)
  | work model job loaded hworking => exact h.frame ⟨rfl, rfl, rfl, rfl⟩ ⟨rfl, rfl, rfl, rfl⟩ fun _ hx => List.mem_append_left _ hx
  | _ => exact h.frame ⟨rfl, rfl, rfl, rfl⟩ ⟨rfl, rfl, rfl, rfl⟩ fun _ hx => hx

/-! ### Runs -/

variable {clock : ℚ} {as : List (SystemStep S)}

theorem provenance_run (hrun : (journaledDex3 config timeout policy).run ({ clock }, {}) as = some (s, j)) :
    Served s j ∧ Played config s j := by
  have hall : Requests s j ∧ Served s j ∧ Played config s j :=
    (moves_of_run hrun).keeps (I := fun x => Requests x.1 x.2 ∧ Served x.1 x.2 ∧ Played config x.1 x.2)
      (fun _ _ hmove h => ⟨h.1.move hmove, h.2.1.move hmove h.1, h.2.2.move hmove h.1 h.2.1⟩) ⟨requests_init, served_init, played_init⟩
  exact hall.2

/-- In every run, whatever is lost, late, reordered or sent by other clients, a target that is published, played or held, is a row of what
    the policy predicted for a request of the same task and with its prompt, and the chunk was taken over while its observation was young
    enough. -/
theorem published_rows (hrun : (journaledDex3 config timeout policy).run ({ clock }, {}) as = some (s, j)) :
    ∀ p ∈ j.published, p.prompt ∈ prompts ∧ PreparedRow config j p.task p.prompt p.target := by
  intro p hp
  have hplayed := (provenance_run hrun).2
  have hrow := hplayed.published p hp
  refine ⟨?_, hrow⟩
  obtain ⟨chunk, -, a, -, -, -, -, -, x, hx, -, hprompt, -⟩ := hrow
  exact hprompt ▸ hplayed.asked x hx

/-- The run that plays a row. -/
theorem published_rows_demo : ∃ s j,
    (journaledDex3 demoConfig 5 rampPolicy).run ({ clock := 0 }, {}) (.image blackMessage (demoReading 0) :: demoSteps) = some (s, j) ∧
      ∃ p ∈ j.published, p.target = List.replicate 28 0 ∧ PreparedRow demoConfig j 1 "pour water" p.target := by
  obtain ⟨s, j, hrun, -, -, hj⟩ := demo_records
  have hp : (⟨1, "pour water", List.replicate 28 0, none⟩ : Publication) ∈ j.published := hj ▸ List.mem_singleton_self _
  exact ⟨s, j, (demoRun_eq _).trans hrun, _, hp, rfl, (published_rows ((demoRun_eq _).trans hrun) _ hp).2⟩

end HumanoidLab.FluxDex3
