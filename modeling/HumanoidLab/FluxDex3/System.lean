import HumanoidLab.FluxDex3.Server
import HumanoidLab.Lib.Recording

/-! The node, its network thread, the wire and the server together, one step at a time. The callbacks of the node are atomic, as they run
    on one thread; services may come between the events of a tick, and a message of the wire may be lost or overtake another, so that
    there are more runs than the code has. `time.monotonic` does not go back, and a UUID is new. -/

namespace HumanoidLab.FluxDex3
open Concurrency

structure System (S : Type) where
  node : Node := {}
  clock : ℚ
  sessions : List Session := []
  worker : NetworkWorker := {}
  requests : List (Peer × Except String WireRequest) := []
  replies : List (Peer × WireReply) := []
  server : Server S := {}

/-- A step: of the node, of its network thread, of the wire, or of the server. -/
inductive SystemStep (S : Type)
  | store (key : JointTopic) (motors : List (Value ℚ)) (now : ℚ)
  | image (m : ImageMessage) (clock : Reading)
  | start (session : Session) (prompt : String) (times : Node.StartTimes)
  | pause
  | stop
  | event (times : Node.EventTimes)
  | finish (times : Node.TickTimes)
  | send (now : ℚ) (failure : Option String)
  | noReply
  | receive (i : Nat)
  | receiveFails (text : String)
  | expire (now : ℚ)
  | client (id : Nat) (decoded : Except String WireRequest)
  | loseRequest (i : Nat)
  | loseReply (i : Nat)
  | serve (i : Nat)
  | drain
  | policy (loaded : Except String (String × S))

namespace SystemStep

variable {S : Type}

/-- The readings of the monotonic clock, in their order. -/
def readings : SystemStep S → List ℚ
  | .store _ _ now => [now]
  | .image _ clock => [clock.mono]
  | .start _ _ times => [times.check.mono, times.observe.mono, times.sent]
  | .event times => [times.check.mono, times.accepted]
  | .finish times => [times.check.mono, times.tick, times.publish, times.elapsed, times.observe.mono, times.sent]
  | .send now _ => [now]
  | .expire now => [now]
  | _ => []

end SystemStep

namespace System

variable {S : Type} (config : NodeConfig) (timeout : ℚ) (policy : Policy S)

/-- What a step of the network thread reports. -/
def report (event : Option Event) (s : System S) : System S :=
  { s with node := { s.node with events := s.node.events ++ event.toList } }

/-- The step of a label, whatever the clock. -/
def act (s : System S) : SystemStep S → Option (System S)
  | .store key motors now => some { s with node := s.node.store config key motors now }
  | .image m clock => some { s with node := s.node.receiveImage config m clock }
  | .start session prompt times =>
    if session ∈ s.sessions then none
    else some { s with node := (s.node.start config session prompt times).2, sessions := session :: s.sessions }
  | .pause => some { s with node := (s.node.pause config).2 }
  | .stop => some { s with node := s.node.stop.2 }
  | .event times =>
    match s.node.events with
    | [] => none
    | event :: rest => some { s with node := ({ s.node with events := rest } : Node).onEvent config event times }
  | .finish times =>
    match s.node.events with
    | [] => some { s with node := (s.node.finishTick config times).2 }
    | _ :: _ => none
  | .send now failure =>
    if s.worker.place = .sending then
      let e := s.worker.send timeout now failure s.node.commands
      some ({ s with
        node := { s.node with commands := e.commands }
        worker := e.worker
        requests := s.requests ++ (e.sent.map fun r => (Peer.node s.worker.connection, Except.ok r)).toList }.report e.event)
    else none
  | .noReply => if s.worker.place = .polling then some { s with worker := { s.worker with place := .expiring } } else none
  | .receive i =>
    match s.replies[i]? with
    | some (.node connection, reply) =>
      if s.worker.place = .polling ∧ connection = s.worker.connection then
        let (event, worker) := s.worker.receive reply
        some ({ s with worker, replies := s.replies.eraseIdx i }.report event)
      else none
    | _ => none
  | .receiveFails text =>
    if s.worker.place = .polling then
      let (event, worker) := s.worker.receiveFails text
      some ({ s with worker }.report event)
    else none
  | .expire now =>
    if s.worker.place = .expiring then
      let (event, worker) := s.worker.expire now
      some ({ s with worker }.report event)
    else none
  | .client id decoded => some { s with requests := s.requests ++ [(.other id, decoded)] }
  | .loseRequest i => if i < s.requests.length then some { s with requests := s.requests.eraseIdx i } else none
  | .loseReply i => if i < s.replies.length then some { s with replies := s.replies.eraseIdx i } else none
  | .serve i =>
    match s.requests[i]? with
    | some (address, decoded) =>
      if s.server.crashed then none
      else
        let (reply, server) := s.server.handle address decoded
        some { s with
          requests := s.requests.eraseIdx i
          replies := s.replies ++ (reply.map fun r => (address, r)).toList
          server }
    | none => none
  | .drain =>
    match s.server.results with
    | result :: rest =>
      if s.server.crashed then none
      else
        let (reply, server) := ({ s.server with results := rest } : Server S).drain result
        some { s with replies := s.replies ++ reply.toList, server }
    | [] => none
  | .policy loaded => (s.server.threadStep policy loaded).map fun server => { s with server }

/-- A step, whose readings of the clock are in order and after those before. -/
def step (s : System S) (a : SystemStep S) : Option (System S) :=
  if (s.clock :: a.readings).IsChain (· ≤ ·) then
    (act config timeout policy s a).map fun t => { t with clock := (s.clock :: a.readings).getLast (List.cons_ne_nil _ _) }
  else none

end System

/-! ### The journal of a run -/

/-- A call of the policy. -/
inductive Call
  | reset
  | predict (session : Session) (seq : Nat)
  deriving DecidableEq, Repr

/-- A request that the node made for a task. -/
structure Submission where
  task : Nat
  request : Request
  deriving DecidableEq, Repr

/-- A chunk that the scheduler took over, with the age of its observation then. -/
structure Accepted where
  task : Nat
  session : Session
  seq : Nat
  age : ℚ
  chunk : Chunk
  deriving DecidableEq, Repr

/-- A target that reached the output, with the prompt of its task. -/
structure Publication where
  task : Nat
  prompt : String
  target : List ℚ
  command : Option Command
  deriving DecidableEq, Repr

/-- What happened in a run: the number of tasks that were begun, and, oldest first, the requests, their outcomes as the network thread
    reports them, the calls of the policy and its predictions, the chunks that were accepted, and the targets that were published. -/
structure Journal where
  task : Nat := 0
  submitted : List Submission := []
  outcomes : List (Session × Nat) := []
  calls : List Call := []
  predicted : List (Request × NdArray ℚ) := []
  accepted : List Accepted := []
  published : List Publication := []

/-- The request that an event is the outcome of. -/
def Event.outcome : Event → Option (Session × Nat)
  | .status .. => none
  | .error session seq _ => session.bind fun s => seq.map fun n => (s, n)
  | .actions session seq _ _ => some (session, seq)

/-- The chunk of the actions of a prediction. -/
def chunkOf (config : NodeConfig) (actions : NdArray ℚ) : Option Chunk :=
  match readChunk actions >>= limitChunk config.executor.limits with
  | .ok chunk => some chunk
  | .error _ => none

namespace Journal

variable {S : Type} (config : NodeConfig) (policy : Policy S)

/-- A task is begun, unless it is resumed. -/
def begun (s : System S) (a : SystemStep S) (task : Nat) : Nat :=
  match a with
  | .start _ prompt times => if (s.node.refusal config prompt times.check).isSome ∨ s.node.paused then task else task + 1
  | _ => task

/-- The chunk that the event of a step brings. -/
def accepts (s : System S) (a : SystemStep S) (task : Nat) : Option Accepted :=
  match a, s.node.events with
  | .event times, .actions session seq stamp actions :: _ =>
    match s.node.judge config session seq stamp actions times with
    | some (.ok _) => (chunkOf config actions).map fun chunk => ⟨task, session, seq, ageOf times.age stamp, chunk⟩
    | _ => none
  | _, _ => none

/-- The target that a step publishes. -/
def publishes (s : System S) (a : SystemStep S) (task : Nat) : Option Publication :=
  match a with
  | .finish times => (s.node.finishTick config times).1.map fun p => ⟨task, s.node.prompt, p.1, p.2⟩
  | _ => none

/-- The calls that the thread of the policy makes in a step. -/
def callsOf (s : System S) (a : SystemStep S) : List Call :=
  match a, s.server.thread with
  | .policy _, .working model job =>
    if job.newSession then
      match policy.reset model with
      | .ok _ => [.reset, .predict job.request.session job.request.seq]
      | .error _ => [.reset]
    else [.predict job.request.session job.request.seq]
  | _, _ => []

/-- The prediction that the thread of the policy makes in a step. -/
def predicts (s : System S) (a : SystemStep S) : Option (Request × NdArray ℚ) :=
  match a, s.server.thread with
  | .policy _, .working model job =>
    match (Server.work policy job model).1 with
    | .prediction _ (.predict _ _ actions) => some (job.request, actions)
    | _ => none
  | _, _ => none

/-- What a step from `s` to `t` adds. -/
def extend (s t : System S) (a : SystemStep S) (j : Journal) : Journal :=
  let task := begun config s a j.task
  { task
    submitted := j.submitted ++ (t.node.commands.drop s.node.commands.length).map (⟨task, ·⟩)
    outcomes := j.outcomes ++ (t.node.events.drop s.node.events.length).filterMap Event.outcome
    calls := j.calls ++ callsOf policy s a
    predicted := j.predicted ++ (predicts policy s a).toList
    accepted := j.accepted ++ (accepts config s a task).toList
    published := j.published ++ (publishes config s a task).toList }

end Journal

variable {S : Type}

/-- The system, from the start of its processes. -/
def dex3Machine (config : NodeConfig) (timeout : ℚ) (policy : Policy S) : Machine (System S) (SystemStep S) where
  init s := ∃ clock, s = { clock }
  step := System.step config timeout policy

/-- The system with its journal. -/
def journaledDex3 (config : NodeConfig) (timeout : ℚ) (policy : Policy S) : Machine (System S × Journal) (SystemStep S) :=
  (dex3Machine config timeout policy).recording
    (fun s a j => (System.step config timeout policy s a).elim j fun t => j.extend config policy s t a) {}

end HumanoidLab.FluxDex3
