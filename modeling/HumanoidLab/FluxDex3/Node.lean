import HumanoidLab.FluxDex3.CommandOutput

/-! The Dex3 node (`flux_dex3/node.py`): what it keeps of its sensors, its services and its timer. Every reading of a clock is a
    number of its own. What is only logged is left out. -/

namespace HumanoidLab.FluxDex3
open Psi0Dex3 (float32 float64)
open Rounding

/-! ### Messages -/

/-- An image as it is sent to the model. -/
structure RgbImage where
  height : Nat
  width : Nat
  data : List UInt8
  shape : (height, width) ∈ [(480, 640), (192, 256)]
  size : data.length = height * width * 3
  deriving DecidableEq, Repr

/-- A camera message. -/
structure ImageMessage where
  encoding : String
  height : Nat
  width : Nat
  step : Nat
  data : List UInt8
  sec : Int
  nanosec : Nat

/-- The first `width` bytes of each of the rows of `step` bytes. -/
def packRows (step width : Nat) (data : List UInt8) : Nat → List UInt8
  | 0 => []
  | rows + 1 => data.take width ++ packRows step width (data.drop step) rows

theorem packRows_length {step width rows : Nat} {data : List UInt8} (hwidth : width ≤ step) (hdata : data.length = step * rows) :
    (packRows step width data rows).length = rows * width := by
  induction rows generalizing data with
  | zero => simp [packRows]
  | succ rows ih =>
    rw [packRows, List.length_append, List.length_take, ih (by rw [List.length_drop, hdata, Nat.mul_succ, Nat.add_sub_cancel]), hdata,
      Nat.min_eq_left (hwidth.trans (Nat.le_mul_of_pos_right step (Nat.succ_pos rows))), Nat.succ_mul, Nat.add_comm]

/-- `rgb_image`. -/
def rgbImage (m : ImageMessage) : Except String RgbImage :=
  if shaped : m.encoding = "rgb8" ∧ (m.height, m.width) ∈ [(480, 640), (192, 256)] then
    if sized : m.width * 3 ≤ m.step ∧ m.data.length = m.step * m.height then
      .ok {
        height := m.height
        width := m.width
        data := packRows m.step (m.width * 3) m.data m.height
        shape := shaped.2
        size := by rw [packRows_length sized.1 sized.2, Nat.mul_assoc] }
    else .error "invalid camera byte layout"
  else .error "camera must provide RGB8 480x640 or 192x256"

/-- The three messages with joint states. -/
inductive JointTopic
  | low
  | left
  | right
  deriving DecidableEq, Repr

/-- The positions in the motor slots of a message, and when it arrived. -/
structure JointSample where
  arrival : ℚ
  motors : List (Value ℚ)
  deriving DecidableEq, Repr

/-- A request for a prediction. -/
structure Request where
  session : Session
  seq : Nat
  stamp : ℚ
  prompt : String
  image : RgbImage
  state : List ℚ
  deriving DecidableEq, Repr

inductive ServerStatus
  | loading
  | ready
  | error
  deriving DecidableEq, Repr

/-- The status in lower case. -/
def ServerStatus.lower : ServerStatus → String
  | .loading => "loading"
  | .ready => "ready"
  | .error => "error"

/-- What the network thread reports. -/
inductive Event
  | status (status : ServerStatus) (checkpoint error : String)
  | error (session : Option Session) (seq : Option Nat) (text : String)
  | actions (session : Session) (seq : Nat) (stamp : ℚ) (actions : NdArray ℚ)

/-! ### The node -/

structure NodeConfig where
  freshness : ℚ
  pairTolerance : ℚ
  maxChunkAge : ℚ
  output : Option MotorConfig

def NodeConfig.executor (config : NodeConfig) : ExecutorConfig :=
  { maxChunkAge := config.maxChunkAge, limits := config.output.map MotorConfig.limits }

/-- The readings of the two clocks for one observation: the monotonic one, and the nanoseconds of the ROS clock. -/
structure Reading where
  mono : ℚ
  ros : Int
  deriving DecidableEq, Repr

/-- The age of what was stamped, at a reading of the ROS clock. -/
def ageOf (ros : Int) (stamp : ℚ) : ℚ := float64 (float64 (float64 ros * float64 (1 / 10 ^ 9)) - stamp)

structure Node where
  image : Option (RgbImage × ℚ × ℚ) := none
  latest : JointTopic → Option JointSample := fun _ => none
  history : JointTopic → List JointSample := fun _ => []
  executor : Executor := {}
  serverStatus : ServerStatus := .loading
  checkpoint : String := ""
  reason : String := "waiting for GPU server"
  prompt : String := ""
  nextSeq : Nat := 0
  inflight : Bool := false
  lastRequestStart : Option ℚ := none
  lastAction : Option (List ℚ) := none
  paused : Bool := false
  pauseTarget : Option (List ℚ) := none
  pausedSession : Option Session := none
  pausedRequestPending : Bool := false
  holdUntilFirstChunk : Bool := false
  commands : List Request := []
  events : List Event := []

/-- `PROMPTS`. -/
def prompts : List String :=
  ["stack three block", "camera packaging", "object placement", "pour water", "toasted bread", "Put the apple into the plate.",
   "Put the bottle into the plate.", "Put the charger into the plate.", "Put the doll into the plate.", "Put the gum into the plate.",
   "Put the snack into the plate.", "Put the tissue paper into the plate."]

/-- `%.3f`. -/
def fixed3 (x : ℚ) : String :=
  let n := (roundHalfEven (|x| * 1000)).toNat
  let digits := toString (n % 1000)
  (if x < 0 then "-" else "") ++ toString (n / 1000) ++ "." ++ String.ofList (List.replicate (3 - digits.length) '0') ++ digits

/-- The name of a topic in the texts. -/
def JointTopic.name : JointTopic → String
  | .low => "low"
  | .left => "left"
  | .right => "right"

namespace Node

variable (config : NodeConfig)

def outputMode : String := if config.output.isSome then "enabled" else "disabled"

/-! ### The sensors -/

/-- `_store`. -/
def store (key : JointTopic) (motors : List (Value ℚ)) (now : ℚ) (n : Node) : Node :=
  let sample : JointSample := ⟨now, motors⟩
  let oldest := float64 (now - float64 (config.freshness + config.pairTolerance))
  let samples := (n.history key ++ [sample]).dropWhile fun s => s.arrival < oldest
  { n with
    latest := Function.update n.latest key (some sample)
    history := Function.update n.history key samples }

/-- `_image`. -/
def receiveImage (m : ImageMessage) (clock : Reading) (n : Node) : Node :=
  match rgbImage m with
  | .error e => { n with reason := e }
  | .ok image =>
    let stamp := float64 (m.sec + float64 (m.nanosec * float64 (1 / 10 ^ 9)))
    let age := ageOf clock.ros stamp
    if stamp ≤ 0 ∨ age < float64 (-5 / 100) ∨ config.freshness < age then
      { n with reason := "stale camera timestamp (age=" ++ fixed3 age ++ "s)" }
    else { n with image := some (image, clock.mono, stamp) }

/-- The first of the samples that are nearest to the frame. -/
def nearestSample (frame : ℚ) : List JointSample → Option JointSample
  | [] => none
  | s :: samples =>
    some (samples.foldl (fun best t => if |float64 (t.arrival - frame)| < |float64 (best.arrival - frame)| then t else best) s)

/-- `_state_sample`. -/
def stateSample (n : Node) (key : JointTopic) (frame : ℚ) : Option JointSample :=
  (nearestSample frame (n.history key)).filter fun s => |float64 (s.arrival - frame)| ≤ config.pairTolerance

/-- `_snapshot`: the newest image, with its stamp, and the joint positions of its time. -/
def snapshot (clock : Reading) (n : Node) : Except String (RgbImage × List ℚ × ℚ) :=
  match n.image with
  | none => .error "camera or joint state unavailable/stale"
  | some (image, arrival, stamp) =>
    if config.freshness < float64 (clock.mono - arrival) then .error "camera or joint state unavailable/stale"
    else
      let age := ageOf clock.ros stamp
      if config.freshness < age then .error "camera frame is stale"
      else
        let frame := float64 (clock.mono - age)
        match n.stateSample config .low frame, n.stateSample config .left frame, n.stateSample config .right frame with
        | some low, some left, some right => do
          let state ← measuredState low.motors left.motors right.motors
          return (image, state.map float32, stamp)
        | low, left, right =>
          let missing := [(JointTopic.left, left), (.low, low), (.right, right)].filter fun s => s.2.isNone
          .error ("no " ++ "/".intercalate (missing.map fun s => s.1.name) ++ " joint sample within " ++ fixed3 config.pairTolerance ++
            "s of the camera frame")

/-! ### Requests and outputs -/

/-- `_abort`: every target is dropped. -/
def abort (reason : String) (n : Node) : Node :=
  { n with
    executor := {}
    inflight := false
    paused := false
    pauseTarget := none
    pausedSession := none
    pausedRequestPending := false
    holdUntilFirstChunk := false
    lastAction := none
    reason }

/-- How many requests the queue of the network thread takes. -/
def maxCommands : Nat := 2

/-- `_request`: `clock` is read for the observation, and `sent` after the request is queued. -/
def request (clock : Reading) (sent : ℚ) (n : Node) : Node :=
  match n.executor.session with
  | none => n
  | some session =>
    if n.inflight ∨ n.serverStatus ≠ .ready then n
    else
      match n.snapshot config clock with
      | .error e => n.abort ("observation/request failure: " ++ e)
      | .ok (image, state, stamp) =>
        if n.commands.length < maxCommands then
          { n with
            commands := n.commands ++ [⟨session, n.nextSeq, stamp, n.prompt, image, state⟩]
            nextSeq := n.nextSeq + 1
            inflight := true
            lastRequestStart := some sent }
        else n.abort "observation/request failure: "

/-- `_publish_target`: without an output nothing is published, and nothing raised. -/
def publishTarget (target : List ℚ) (now : ℚ) (n : Node) : Except String (Option Command) :=
  match config.output with
  | none => .ok none
  | some output =>
    match n.latest .low, n.latest .left, n.latest .right with
    | some low, some left, some right =>
      if [low, left, right].any fun s => config.freshness < float64 (now - s.arrival) then
        .error "joint feedback unavailable/stale during command publication"
      else do
        let measured ← measuredState low.motors left.motors right.motors
        let command ← publish output target measured
        return some command
    | _, _, _ => .error "joint feedback unavailable/stale during command publication"

/-! ### The services -/

/-- What a service answers. -/
structure Response where
  accepted : Bool
  reason : String
  deriving DecidableEq, Repr

/-- The readings of the clocks in `_start`: for the check of the observation, for the observation that is sent, and after it is queued. -/
structure StartTimes where
  check : Reading
  observe : Reading
  sent : ℚ
  deriving DecidableEq, Repr

/-- The state in which the first request of a task is made. -/
def begin (session : Session) (prompt : String) (n : Node) : Node :=
  { n with
    executor := Executor.start session
    paused := false
    pausedSession := none
    pausedRequestPending := false
    holdUntilFirstChunk := n.paused
    pauseTarget := if n.paused then n.pauseTarget else none
    lastAction := if n.paused then n.lastAction else none
    prompt
    nextSeq := 0
    inflight := false
    lastRequestStart := none }

/-- Why `_start` refuses a task. -/
def refusal (prompt : String) (check : Reading) (n : Node) : Option String :=
  if n.executor.session.isSome then some "task already running"
  else if n.serverStatus ≠ .ready then some "model is not READY"
  else if prompt ∉ prompts then some "prompt is absent from training manifest"
  else if n.paused ∧ prompt ≠ n.prompt then some "resume requires the paused task prompt; call StopTask to change tasks"
  else if n.paused ∧ n.pausedRequestPending then some "previous prediction still in flight; pause target remains active"
  else
    match n.snapshot config check with
    | .error e => some e
    | .ok _ => none

/-- `_start`, with the session that would begin. -/
def start (session : Session) (prompt : String) (times : StartTimes) (n : Node) : Response × Node :=
  match n.refusal config prompt times.check with
  | some reason => (⟨false, reason⟩, { n with reason })
  | none =>
    let m := (n.begin session prompt).request config times.observe times.sent
    let accepted := m.executor.session.isSome
    let reason := if accepted then
        (if n.paused then "resumed" else "started") ++ "; command publishing " ++ outputMode config
      else m.reason
    (⟨accepted, reason⟩, { m with reason })

/-- The reason while a target is held. -/
def pausedReason : String := "paused; repeating last target at 30 Hz; command publishing " ++ outputMode config

/-- `_pause`. -/
def pause (n : Node) : Response × Node :=
  if n.paused then (⟨true, "already paused; holding last target"⟩, n)
  else
    match n.executor.session, n.lastAction with
    | some session, some action =>
      (⟨true, pausedReason config⟩,
        { n with
          pauseTarget := some action
          pausedSession := some session
          pausedRequestPending := n.inflight
          executor := {}
          inflight := false
          paused := true
          holdUntilFirstChunk := false
          reason := pausedReason config })
    | _, _ => (⟨false, "no executed target available to hold"⟩, n)

/-- `_stop`. -/
def stop (n : Node) : Response × Node := (⟨true, "stopped locally"⟩, n.abort "stopped locally")

/-- `_status`: the state, the reason, the checkpoint and the session. -/
def status (n : Node) : String × String × String × Session :=
  let state :=
    if n.paused then "PAUSED"
    else if n.executor.session.isSome then (if config.output.isSome then "RUNNING" else "DRY_RUN")
    else
      match n.serverStatus with
      | .loading => "LOADING"
      | .ready => "READY"
      | .error => "ERROR"
  (state, n.reason, n.checkpoint, n.executor.session.getD "")

/-! ### The timer -/

/-- The readings of the clocks for one event: for the check of the observation, for its age, and for the scheduler. -/
structure EventTimes where
  check : Reading
  age : Int
  accepted : ℚ
  deriving DecidableEq, Repr

/-- The reason after a status of the server. -/
def statusReason (status : ServerStatus) (error : String) (n : Node) : String :=
  if n.paused then (if status = .ready then pausedReason config else "paused; GPU model " ++ status.lower ++ ": " ++ error)
  else if n.executor.session.isNone then (if error = "" then "model " ++ status.lower else error)
  else n.reason

/-- A status of the server. -/
def onStatus (status : ServerStatus) (checkpoint error : String) (n : Node) : Node :=
  let n := { n with serverStatus := status, checkpoint, reason := n.statusReason config status error }
  if status ≠ .ready ∧ n.executor.session.isSome then n.abort "model lost READY status" else n

/-- What the paused task waited for is there. -/
def settle (session : Option Session) (n : Node) : Node :=
  { n with pausedRequestPending := if n.paused ∧ session = n.pausedSession then false else n.pausedRequestPending }

/-- An error that the network thread reports. -/
def onError (session : Option Session) (text : String) (n : Node) : Node :=
  let n := n.settle session
  match session with
  | none => { n with serverStatus := .error, reason := text }
  | some session => if n.executor.session = some session then n.abort ("prediction failed: " ++ text) else n

/-- What the scheduler makes of a prediction; one that is not waited for is discarded. -/
def judge (session : Session) (seq : Nat) (stamp : ℚ) (actions : NdArray ℚ) (times : EventTimes) (n : Node) :
    Option (Except String Executor) :=
  if n.executor.session ≠ some session ∨ n.inflight = false ∨ (seq : Int) ≠ n.nextSeq - 1 then none
  else some do
    let _ ← n.snapshot config times.check
    n.executor.accept config.executor session seq (ageOf times.age stamp) actions times.accepted

/-- A prediction. -/
def onActions (session : Session) (seq : Nat) (stamp : ℚ) (actions : NdArray ℚ) (times : EventTimes) (n : Node) : Node :=
  let n := n.settle (some session)
  match n.judge config session seq stamp actions times with
  | none => n
  | some (.ok executor) => { n with executor, inflight := false }
  | some (.error e) => ({ n with inflight := false } : Node).abort ("prediction rejected: " ++ e)

/-- One event of the queue. -/
def onEvent (event : Event) (times : EventTimes) (n : Node) : Node :=
  match event with
  | .status status checkpoint error => n.onStatus config status checkpoint error
  | .error session _ text => n.onError session text
  | .actions session seq stamp actions => n.onActions config session seq stamp actions times

/-- The readings of the clocks once the queue is empty: for the check of the observation, for the scheduler, for the output, for the
    time since the chunk was started, for the observation that is sent, and after it is queued. -/
structure TickTimes where
  check : Reading
  tick : ℚ
  publish : ℚ
  elapsed : ℚ
  observe : Reading
  sent : ℚ
  deriving DecidableEq, Repr

/-- The next prediction is asked for: the chunk is under way, nothing is in flight, and nothing waits. -/
def requestNext (times : TickTimes) (n : Node) : Node :=
  if n.inflight = false ∧ n.executor.nextChunk.isNone ∧ float64 (15 / 100) ≤ float64 (times.elapsed - n.executor.started) ∧
      n.lastRequestStart.all (· < n.executor.started) then
    n.request config times.observe times.sent
  else n

/-- The held target is published once more. -/
def publishHeld (failure : String) (now : ℚ) (n : Node) : Option (List ℚ × Option Command) × Node :=
  match n.pauseTarget with
  | none => (none, n)
  | some target =>
    match n.publishTarget config target now with
    | .ok command => (some (target, command), n)
    | .error e => (none, n.abort (failure ++ e))

/-- A row of a chunk becomes the target. -/
def played (target : List ℚ) (executor : Executor) (n : Node) : Node :=
  { n with executor, holdUntilFirstChunk := false, pauseTarget := none, lastAction := some target }

/-- What is left of a tick once the queue is empty, with the target and the command that it publishes. -/
def finishTick (times : TickTimes) (n : Node) : Option (List ℚ × Option Command) × Node :=
  if n.paused then n.publishHeld config "paused hold output failed: " times.publish
  else if n.executor.session.isNone then (none, n)
  else
    match n.snapshot config times.check with
    | .error e => (none, n.abort ("observation unavailable: " ++ e))
    | .ok _ =>
      match n.executor.tick config.executor times.tick with
      | (none, _) => if n.holdUntilFirstChunk then n.publishHeld config "resuming hold output failed: " times.publish else (none, n)
      | (some target, executor) =>
        match (n.played target executor).publishTarget config target times.publish with
        | .error e => (none, (n.played target executor).abort ("motor command rejected: " ++ e))
        | .ok command => (some (target, command), (n.played target executor).requestNext config times)

end Node
end HumanoidLab.FluxDex3
