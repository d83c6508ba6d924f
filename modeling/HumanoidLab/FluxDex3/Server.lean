import HumanoidLab.FluxDex3.Node

/-! The two ends of the wire: the network thread of the node (`flux_dex3/network.py`), and the server with its policy
    (`examples/dex3/zmq_server.py`, `Dex3Server`). A message stands for its frames. The policy is a parameter. -/

namespace HumanoidLab.FluxDex3
open Psi0Dex3 (float64)

/-! ### Messages -/

inductive WireRequest
  | status
  | predict (r : Request)
  deriving DecidableEq, Repr

inductive WireReply
  | status (status : ServerStatus) (checkpoint error : String)
  | error (text : String) (of : Option (Session × Nat))
  | predict (session : Session) (seq : Nat) (actions : NdArray ℚ)

/-- Who sends a request: the node, by one of its connections, or another client. -/
inductive Peer
  | node (connection : Nat)
  | other (id : Nat)
  deriving DecidableEq, Repr

/-! ### The network thread -/

/-- What the thread waits for an answer to. -/
inductive Pending
  | status
  | predict (session : Session) (seq : Nat) (stamp : ℚ)
  deriving DecidableEq, Repr

/-- Where the thread stands in its loop: before it sends, before it polls, before it looks at the deadline. -/
inductive NetworkPlace
  | sending
  | polling
  | expiring
  deriving DecidableEq, Repr

structure NetworkWorker where
  place : NetworkPlace := .sending
  pending : Option Pending := none
  deadline : ℚ := 0
  statusAt : ℚ := 0
  connection : Nat := 0
  deriving DecidableEq, Repr

def serverUnavailable : Event := .status .error "" "server unavailable"

/-- The event of an error for what is pending. -/
def Pending.failed (pending : Option Pending) (text : String) : Event :=
  match pending with
  | some (.predict session seq _) => .error (some session) (some seq) text
  | _ => .error none none text

/-- The event of a reply to what is pending. -/
def Pending.answered (pending : Pending) : WireReply → Event
  | .error text _ => Pending.failed (some pending) text
  | .status report checkpoint error =>
    match pending with
    | .status => .status report checkpoint error
    | .predict .. => Pending.failed (some pending) "unexpected reply"
  | .predict session seq actions =>
    match pending with
    | .predict ofSession ofSeq stamp =>
      if session = ofSession ∧ seq = ofSeq then .actions session seq stamp actions
      else Pending.failed (some pending) "unexpected reply"
    | .status => Pending.failed (some pending) "unexpected reply"

namespace NetworkWorker

/-- What a step of the thread does to the others: the requests that are left, the message that is sent, and what is reported. -/
structure Effect where
  worker : NetworkWorker
  commands : List Request
  sent : Option WireRequest := none
  event : Option Event := none

/-- What is sent when nothing is pending: a request of the node, or a status request once a second. `failure` is the text of an error
    of the encoder or of the socket. -/
def send (timeout now : ℚ) (failure : Option String) (commands : List Request) (w : NetworkWorker) : Effect :=
  let w := { w with place := .polling }
  if w.pending.isSome then ⟨w, commands, none, none⟩
  else
    match commands with
    | r :: rest =>
      match failure with
      | some text => ⟨w, rest, none, some (.error (some r.session) (some r.seq) text)⟩
      | none =>
        ⟨{ w with pending := some (.predict r.session r.seq r.stamp), deadline := float64 (now + timeout) }, rest, some (.predict r),
          none⟩
    | [] =>
      if now < w.statusAt then ⟨w, [], none, none⟩
      else
        let w := { w with statusAt := float64 (now + 1) }
        if failure.isSome then ⟨w, [], none, some serverUnavailable⟩
        else ⟨{ w with pending := some .status, deadline := float64 (now + timeout) }, [], some .status, none⟩

/-- A reply arrives; one that nothing waits for is dropped. -/
def receive (reply : WireReply) (w : NetworkWorker) : Option Event × NetworkWorker :=
  match w.pending with
  | none => (none, { w with place := .sending })
  | some pending => (some (pending.answered reply), { w with pending := none, place := .expiring })

/-- The reply cannot be received or decoded. -/
def receiveFails (text : String) (w : NetworkWorker) : Event × NetworkWorker :=
  (Pending.failed w.pending text, { w with pending := none, place := .expiring })

/-- The deadline passes: the socket is closed, and another one is opened. -/
def expire (now : ℚ) (w : NetworkWorker) : Option Event × NetworkWorker :=
  match w.pending with
  | none => (none, { w with place := .sending })
  | some pending =>
    if now < w.deadline then (none, { w with place := .sending })
    else
      let event := match pending with
        | .predict session seq _ => Event.error (some session) (some seq) "prediction timed out"
        | .status => serverUnavailable
      (some event, { w with pending := none, connection := w.connection + 1, place := .sending })

end NetworkWorker

/-! ### The server -/

/-- An array that the policy answers, and whether it is of float32. -/
structure PolicyArray where
  isFloat32 : Bool
  array : NdArray ℚ

/-- The policy: its state, what a reset makes of it, and a prediction. -/
structure Policy (S : Type) where
  reset : S → Except String S
  predict : S → RgbImage → List ℚ → String → Except String PolicyArray × S

/-- A request that is handed to the policy. -/
structure Job where
  token : Nat
  request : Request
  newSession : Bool
  deriving DecidableEq, Repr

/-- What the thread of the policy hands back. -/
inductive ServerResult
  | loaded (identity : String)
  | fatal (text : String)
  | prediction (token : Nat) (reply : WireReply)
  | predictionError (token : Nat) (text : String)

/-- The thread of the policy: it loads it, waits for a job, works on one, or has ended. -/
inductive PolicyThread (S : Type)
  | loading
  | waiting (model : S)
  | working (model : S) (job : Job)
  | finished

/-- The request that is being answered: its token, its sender, its session and its number. -/
structure ServerPending where
  token : Nat
  address : Peer
  session : Session
  seq : Nat
  deriving DecidableEq, Repr

structure Server (S : Type) where
  status : ServerStatus := .loading
  identity : String := ""
  error : String := ""
  pending : Option ServerPending := none
  sessionId : Option Session := none
  lastSeq : Int := -1
  seenSessions : List Session := []
  tokens : Nat := 0
  jobs : List Job := []
  results : List ServerResult := []
  thread : PolicyThread S := .loading
  crashed : Bool := false

namespace Server

variable {S : Type} (policy : Policy S)

/-- The name of a status. -/
def statusName : ServerStatus → String
  | .loading => "LOADING"
  | .ready => "READY"
  | .error => "ERROR"

/-- Why a prediction is refused. -/
def refusal (session : Session) (seq : Nat) (s : Server S) : Option String :=
  if s.status ≠ .ready then some ("model " ++ statusName s.status)
  else if s.pending.isSome then some "prediction already pending"
  else if s.sessionId ≠ some session ∧ session ∈ s.seenSessions then some "stale session"
  else if s.sessionId = some session ∧ (seq : Int) ≠ s.lastSeq + 1 then some "duplicate or out-of-order seq"
  else if s.sessionId ≠ some session ∧ seq ≠ 0 then some "new session must start at seq 0"
  else none

/-- How many jobs the queue takes. -/
def maxJobs : Nat := 1

/-- A request is accepted. A full queue of jobs would end the serving thread. -/
def enqueue (address : Peer) (r : Request) (s : Server S) : Server S :=
  let job : Job := ⟨s.tokens, r, decide (s.sessionId ≠ some r.session)⟩
  { s with
    sessionId := some r.session
    seenSessions := r.session :: s.seenSessions
    lastSeq := r.seq
    pending := some ⟨s.tokens, address, r.session, r.seq⟩
    tokens := s.tokens + 1
    jobs := if s.jobs.length < maxJobs then s.jobs ++ [job] else s.jobs
    crashed := s.crashed || decide (maxJobs ≤ s.jobs.length) }

/-- `_handle`, of what `decode_request` makes of the frames: the reply that is sent at once. -/
def handle (address : Peer) (decoded : Except String WireRequest) (s : Server S) : Option WireReply × Server S :=
  match decoded with
  | .error text => (some (.error text none), s)
  | .ok .status => (some (.status s.status s.identity s.error), s)
  | .ok (.predict r) =>
    match s.refusal r.session r.seq with
    | some text => (some (.error text (some (r.session, r.seq))), s)
    | none => (none, s.enqueue address r)

/-- A text that is not empty. -/
def textOr (fallback text : String) : String := if text = "" then fallback else text

/-- One result of `_drain_results`, with the reply that is sent. -/
def drain (result : ServerResult) (s : Server S) : Option (Peer × WireReply) × Server S :=
  match result with
  | .loaded identity => (none, { s with identity, status := .ready })
  | .fatal text => (none, { s with status := .error, error := textOr "model load failed" text })
  | .prediction token reply =>
    match s.pending with
    | none => (none, s)
    | some p => if p.token = token then (some (p.address, reply), { s with pending := none }) else (none, s)
  | .predictionError token text =>
    match s.pending with
    | none => (none, s)
    | some p =>
      if p.token = token then
        (some (p.address, .error (textOr "prediction failed" text) (some (p.session, p.seq))),
          { s with pending := none, status := .error, error := textOr "prediction failed" text })
      else (none, s)

/-- What the policy answers: a finite array of 32 rows of 28 of float32, else the encoder of the reply raises. -/
def checkActions (actions : PolicyArray) : Except String (NdArray ℚ) :=
  if actions.array.shape ≠ [32, 28] ∨ !actions.isFloat32 then .error "invalid actions shape or dtype"
  else if actions.array.values.any fun v => v = .nonFinite then .error "nonfinite actions"
  else .ok actions.array

/-- A job: the policy is reset for a new session, and predicts. -/
def work (job : Job) (model : S) : ServerResult × S :=
  match if job.newSession then policy.reset model else .ok model with
  | .error text => (.predictionError job.token text, model)
  | .ok model =>
    let (actions, model) := policy.predict model job.request.image job.request.state job.request.prompt
    match actions >>= checkActions with
    | .error text => (.predictionError job.token text, model)
    | .ok actions => (.prediction job.token (.predict job.request.session job.request.seq actions), model)

/-- A step of the thread of the policy; `loaded` is what the load yields. -/
def threadStep (loaded : Except String (String × S)) (s : Server S) : Option (Server S) :=
  match s.thread with
  | .loading =>
    match loaded with
    | .ok (identity, model) => some { s with results := s.results ++ [.loaded identity], thread := .waiting model }
    | .error text => some { s with results := s.results ++ [.fatal text], thread := .finished }
  | .waiting model =>
    match s.jobs with
    | job :: rest => some { s with jobs := rest, thread := .working model job }
    | [] => none
  | .working model job =>
    let (result, model) := work policy job model
    some { s with results := s.results ++ [result], thread := .waiting model }
  | .finished => none

end Server
end HumanoidLab.FluxDex3
