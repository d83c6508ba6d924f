import HumanoidLab.Theorems.CameraFrames
import HumanoidLab.Theorems.Dex3Provenance

/-! What the policy is shown: every observation that the node sends carries a frame that the simulator captured, with the capture time
    that the simulator gave it, and what is published was predicted from such a frame. -/

namespace HumanoidLab.FluxDex3
open Concurrency Psi0Dex3

variable {S : Type} {config : NodeConfig} {timeout : ℚ} {policy : Policy S} {s t : System S} {j k : Journal}

/-! ### The requests of the node -/

/-- From `n` to `n'` the image is kept, and one request at most is made, of that image and its stamp. -/
def Asks (n n' : Node) : Prop :=
  n'.image = n.image ∧
    (n'.commands = n.commands ∨ ∃ r arrival, n'.commands = n.commands ++ [r] ∧ n.image = some (r.image, arrival, r.stamp))

theorem asks_same {n n' : Node} (himage : n'.image = n.image) (hcommands : n'.commands = n.commands) : Asks n n' :=
  ⟨himage, Or.inl hcommands⟩

/-- An observation shows the image that is kept. -/
theorem snapshot_ok {n : Node} {clock : Reading} {image : RgbImage} {state : List ℚ} {stamp : ℚ}
    (h : n.snapshot config clock = .ok (image, state, stamp)) : ∃ arrival, n.image = some (image, arrival, stamp) := by
  unfold Node.snapshot at h
  split at h
  · cases h
  next kept arrival stamp' himage =>
  split at h
  · cases h
  simp only at h
  split at h
  · cases h
  split at h
  · obtain ⟨state', -, h⟩ := Fallible.bind_ok h
    cases h
    exact ⟨arrival, himage⟩
  · cases h

theorem request_asks (n : Node) (clock : Reading) (sent : ℚ) : Asks n (n.request config clock sent) := by
  unfold Node.request
  split
  · exact asks_same rfl rfl
  split
  · exact asks_same rfl rfl
  split
  · exact asks_same rfl rfl
  next image state stamp hsnapshot =>
  split
  · obtain ⟨arrival, himage⟩ := snapshot_ok hsnapshot
    exact ⟨rfl, Or.inr ⟨_, arrival, rfl, himage⟩⟩
  · exact asks_same rfl rfl

theorem start_asks (n : Node) (session : Session) (prompt : String) (times : Node.StartTimes) :
    Asks n (n.start config session prompt times).2 := by
  unfold Node.start
  split
  · exact asks_same rfl rfl
  · exact request_asks (n.begin session prompt) times.observe times.sent

theorem pause_asks (n : Node) : Asks n (n.pause config).2 := by
  unfold Node.pause
  split
  · exact asks_same rfl rfl
  · split <;> exact asks_same rfl rfl

theorem onEvent_image (n : Node) (event : Event) (times : Node.EventTimes) : (n.onEvent config event times).image = n.image := by
  cases event with
  | status status checkpoint error =>
    unfold Node.onEvent Node.onStatus
    simp only
    split <;> rfl
  | error session seq text =>
    unfold Node.onEvent Node.onError
    cases session with
    | none => rfl
    | some session =>
      simp only
      split <;> rfl
  | actions session seq stamp actions =>
    unfold Node.onEvent Node.onActions
    simp only
    split <;> rfl

theorem publishHeld_asks (n : Node) (failure : String) (now : ℚ) : Asks n (n.publishHeld config failure now).2 := by
  unfold Node.publishHeld
  split
  · exact asks_same rfl rfl
  · split <;> exact asks_same rfl rfl

theorem finishTick_asks (n : Node) (times : Node.TickTimes) : Asks n (n.finishTick config times).2 := by
  unfold Node.finishTick
  split
  · exact publishHeld_asks n _ _
  split
  · exact asks_same rfl rfl
  split
  · exact asks_same rfl rfl
  split
  · split
    · exact publishHeld_asks n _ _
    · exact asks_same rfl rfl
  split
  · exact asks_same rfl rfl
  next target executor _ _ _ _ =>
  unfold Node.requestNext
  split
  · exact request_asks (n.played target executor) times.observe times.sent
  · exact asks_same rfl rfl

/-! ### The images of a run -/

variable {F : Frame → Prop}

/-- The image that is kept is a frame, and so is that of every request. -/
structure Observed (F : Frame → Prop) (s : System S) (j : Journal) : Prop where
  image : ∀ image arrival stamp, s.node.image = some (image, arrival, stamp) → ∃ f, F f ∧ image = f.rgb ∧ stamp = f.stamp
  submitted : ∀ x ∈ j.submitted, ∃ f, F f ∧ x.request.image = f.rgb ∧ x.request.stamp = f.stamp

theorem observed_init {clock : ℚ} : Observed F ({ clock } : System S) {} where
  image image arrival stamp h := by cases h
  submitted x hx := by cases hx

theorem Observed.asks {task : Nat} (h : Observed F s j) (hasks : Asks s.node t.node) :
    Observed F t { j with submitted := j.submitted ++ (t.node.commands.drop s.node.commands.length).map (⟨task, ·⟩) } := by
  obtain ⟨himage, hcommands⟩ := hasks
  refine ⟨fun image arrival stamp hkept => h.image image arrival stamp (himage ▸ hkept), fun x hx => ?_⟩
  rcases List.mem_append.mp hx with hx | hx
  · exact h.submitted x hx
  · rcases hcommands with hsame | ⟨r, arrival, hmore, hr⟩
    · rw [hsame, List.drop_length] at hx
      cases hx
    · rw [hmore, List.drop_left, List.map_singleton, List.mem_singleton] at hx
      subst hx
      exact h.image _ _ _ hr

/-- A step that leaves the image alone and makes no request. -/
theorem Observed.quiet {task : Nat} (h : Observed F s j) (himage : t.node.image = s.node.image)
    (hcommands : t.node.commands.length ≤ s.node.commands.length) :
    Observed F t { j with submitted := j.submitted ++ (t.node.commands.drop s.node.commands.length).map (⟨task, ·⟩) } := by
  refine ⟨fun image arrival stamp hkept => h.image image arrival stamp (himage ▸ hkept), fun x hx => ?_⟩
  rw [List.drop_of_length_le hcommands, List.map_nil, List.append_nil] at hx
  exact h.submitted x hx

/-- A camera message is that of a frame. -/
def Shows (F : Frame → Prop) : SystemStep S → Prop
  | .image m _ => ∃ f, F f ∧ 2 ^ 24 ≤ f.stamp ∧ m = f.message
  | _ => True

theorem receiveImage_commands (n : Node) (m : ImageMessage) (clock : Reading) : (n.receiveImage config m clock).commands = n.commands := by
  obtain ⟨image, reason, himage⟩ := receiveImage_changes config n m clock
  rw [himage]

theorem send_commands (w : NetworkWorker) (now : ℚ) (failure : Option String) (commands : List Request) :
    (w.send timeout now failure commands).commands.length ≤ commands.length := by
  unfold NetworkWorker.send
  simp only
  split
  · exact le_rfl
  cases commands with
  | nil =>
    simp only
    split
    · exact le_rfl
    · split <;> exact le_rfl
  | cons r rest => cases failure <;> exact Nat.le_succ _

theorem Observed.act {a : SystemStep S} (task : Nat) (h : Observed F s j) (hshows : Shows F a)
    (hact : System.act config timeout policy s a = some t) :
    Observed F t { j with submitted := j.submitted ++ (t.node.commands.drop s.node.commands.length).map (⟨task, ·⟩) } := by
  cases a with
  | store key motors now =>
    cases hact
    exact h.quiet rfl le_rfl
  | image m clock =>
    cases hact
    obtain ⟨f, hf, hlow, rfl⟩ := hshows
    refine ⟨fun image arrival stamp hkept => ?_, fun x hx => ?_⟩
    · have hread := receiveImage_message config s.node clock f hlow
      rw [hread] at hkept
      split_ifs at hkept with hfresh
      · cases hkept
        exact ⟨f, hf, rfl, rfl⟩
      · exact h.image image arrival stamp hkept
    · rw [receiveImage_commands, List.drop_length, List.map_nil, List.append_nil] at hx
      exact h.submitted x hx
  | start session prompt times =>
    unfold System.act at hact
    simp only at hact
    split at hact
    · cases hact
    cases hact
    exact h.asks (start_asks s.node session prompt times)
  | pause =>
    cases hact
    exact h.asks (pause_asks s.node)
  | stop =>
    cases hact
    exact h.quiet rfl le_rfl
  | event times =>
    unfold System.act at hact
    simp only at hact
    split at hact
    · cases hact
    next event rest hevents =>
    cases hact
    exact h.quiet (onEvent_image _ event times) (congrArg List.length (onEvent_queues config _ event times).2).le
  | finish times =>
    unfold System.act at hact
    simp only at hact
    split at hact
    · cases hact
      exact h.asks (finishTick_asks s.node times)
    · cases hact
  | send now failure =>
    unfold System.act at hact
    simp only at hact
    split at hact
    · cases hact
      exact h.quiet rfl (send_commands ..)
    · cases hact
  | noReply =>
    unfold System.act at hact
    simp only at hact
    split at hact
    · cases hact
      exact h.quiet rfl le_rfl
    · cases hact
  | receive i =>
    unfold System.act at hact
    simp only at hact
    split at hact
    · split at hact
      · cases hact
        exact h.quiet rfl le_rfl
      · cases hact
    · cases hact
  | receiveFails text =>
    unfold System.act at hact
    simp only at hact
    split at hact
    · cases hact
      exact h.quiet rfl le_rfl
    · cases hact
  | expire now =>
    unfold System.act at hact
    simp only at hact
    split at hact
    · cases hact
      exact h.quiet rfl le_rfl
    · cases hact
  | client id decoded =>
    cases hact
    exact h.quiet rfl le_rfl
  | loseRequest i =>
    unfold System.act at hact
    simp only at hact
    split at hact
    · cases hact
      exact h.quiet rfl le_rfl
    · cases hact
  | loseReply i =>
    unfold System.act at hact
    simp only at hact
    split at hact
    · cases hact
      exact h.quiet rfl le_rfl
    · cases hact
  | serve i =>
    unfold System.act at hact
    simp only at hact
    split at hact
    · split at hact
      · cases hact
      · cases hact
        exact h.quiet rfl le_rfl
    · cases hact
  | drain =>
    unfold System.act at hact
    simp only at hact
    split at hact
    · split at hact
      · cases hact
      · cases hact
        exact h.quiet rfl le_rfl
    · cases hact
  | policy loaded =>
    obtain ⟨server, -, rfl⟩ := Option.map_eq_some_iff.mp hact
    exact h.quiet rfl le_rfl

variable {as : List (SystemStep S)} {clock : ℚ}

theorem Observed.step {a : SystemStep S} (h : Observed F s j) (hshows : Shows F a)
    (hstep : System.step config timeout policy s a = some t) : Observed F t (j.extend config policy s t a) := by
  unfold System.step at hstep
  split at hstep
  · obtain ⟨u, hact, rfl⟩ := Option.map_eq_some_iff.mp hstep
    obtain ⟨himage, hsubmitted⟩ := h.act (Journal.begun config s a j.task) hshows hact
    exact ⟨himage, hsubmitted⟩
  · cases hstep

theorem observed_run (hshows : ∀ a ∈ as, Shows F a) (h : Observed F s j)
    (hrun : (journaledDex3 config timeout policy).run (s, j) as = some (t, k)) : Observed F t k := by
  induction as generalizing s j with
  | nil =>
    obtain ⟨rfl, rfl⟩ : s = t ∧ j = k := by simpa using hrun
    exact h
  | cons a as ih =>
    rw [Machine.run_cons, Option.bind_eq_some_iff] at hrun
    obtain ⟨⟨u, l⟩, hu, hrun⟩ := hrun
    obtain ⟨hstep, rfl⟩ := Machine.recording_step_iff.mp hu
    have hact : System.step config timeout policy s a = some u := hstep
    rw [hact, Option.elim_some] at hrun
    exact ih (fun b hb => hshows b (List.mem_cons_of_mem _ hb)) (h.step (hshows a List.mem_cons_self) hact) hrun

/-- In every run whose camera messages are those that a bridge publishes: each request shows the policy a frame that the simulator
    captured, with the very capture time, and each target that is published is a row of what the policy predicted for such a frame. -/
theorem observed_frames {payloads : List (Except String Frame)} {resync : ℚ}
    (hrun : (journaledDex3 config timeout policy).run ({ clock }, {}) as = some (s, j))
    (hcamera : ∀ m reading, SystemStep.image m reading ∈ as → ∃ f ∈ CameraBridge.published resync payloads, m = f.message)
    (hstamps : ∀ f ∈ framesOf payloads, f.stamp ∈ Set.Ico (2 ^ 24 : ℚ) (2 ^ 31)) :
    (∀ x ∈ j.submitted, ∃ f ∈ CameraBridge.published resync payloads, x.request.image = f.rgb ∧ x.request.stamp = f.stamp) ∧
      ∀ p ∈ j.published, ∃ f ∈ CameraBridge.published resync payloads, ∃ x ∈ j.submitted,
        x.task = p.task ∧ x.request.prompt = p.prompt ∧ x.request.image = f.rgb ∧ x.request.stamp = f.stamp ∧
          ∃ actions chunk, (x.request, actions) ∈ j.predicted ∧ chunkOf config actions = some chunk ∧ p.target ∈ chunk.rows := by
  have hshows : ∀ a ∈ as, Shows (· ∈ CameraBridge.published resync payloads) a := by
    intro a ha
    cases a with
    | image m reading =>
      obtain ⟨f, hf, rfl⟩ := hcamera m reading ha
      exact ⟨f, hf, (hstamps f ((run_gated resync payloads {}).sublist.subset hf)).1, rfl⟩
    | _ => trivial
  have hsubmitted := (observed_run hshows observed_init hrun).submitted
  refine ⟨hsubmitted, fun p hp => ?_⟩
  obtain ⟨chunk, htarget, a, -, -, -, -, -, x, hx, htask, hprompt, -, actions, hpredicted, hchunk⟩ :=
    (provenance_run hrun).2.published p hp
  obtain ⟨f, hf, himage, hstamp⟩ := hsubmitted x hx
  exact ⟨f, hf, x, hx, htask, hprompt, himage, hstamp, actions, chunk, hpredicted, hchunk, htarget⟩

/-! A run: a frame is captured, published and shown to the policy, and the first row that it predicts is played. -/

theorem captureTime_float : float64 (2 ^ 24) = 2 ^ 24 := by decide +kernel

theorem captureTime_pos : (0 : ℚ) < 2 ^ 24 := by norm_num

def darkImage : RgbImage where
  height := 480
  width := 640
  data := List.replicate 921600 0
  shape := by decide
  size := List.length_replicate ..

def darkFrame : Frame where
  stamp := 2 ^ 24
  rgb := darkImage
  float := captureTime_float
  positive := captureTime_pos
  shape := rfl

/-- A reading ten milliseconds after the capture. -/
def captureReading (now : ℚ) : Reading := ⟨now, ⌊10 ^ 9 * (2 ^ 24 + now)⌋ + 10 ^ 7⟩

def captureTick (now : ℚ) : Node.TickTimes := ⟨captureReading now, now, now, now, captureReading now, now⟩

def captureEvent : Node.EventTimes := ⟨captureReading 0, (captureReading 0).ros, 0⟩

def captureSteps : List (SystemStep Unit) :=
  [.store .low (List.replicate 35 (.fin 0)) 0, .store .left (List.replicate 7 (.fin 0)) 0, .store .right (List.replicate 7 (.fin 0)) 0,
    .policy (.ok ("model", ())), .drain, .send 0 none, .serve 0, .receive 0, .event captureEvent, .expire 0,
    .start "a" "pour water" ⟨captureReading 0, captureReading 0, 0⟩, .send 0 none, .serve 0, .policy (.error ""), .policy (.error ""),
    .drain, .receive 0, .event captureEvent, .finish (captureTick 0)]

def captureNode : Node := { image := some (darkImage, 0, 2 ^ 24) }

theorem capture_step : (journaledDex3 demoConfig 5 rampPolicy).step ({ clock := 0 }, {}) (.image darkFrame.message (captureReading 0)) =
    some ({ clock := 0, node := captureNode }, {}) := by
  have himage : ({} : Node).receiveImage demoConfig darkFrame.message (captureReading 0) = captureNode :=
    receiveImage_fresh (rgbImage_message darkFrame) (stamp_reads darkFrame.float le_rfl) (by decide +kernel)
  have hact : System.act demoConfig 5 rampPolicy { clock := 0 } (.image darkFrame.message (captureReading 0)) =
      some { clock := 0, node := captureNode } := by
    rw [← himage]
    rfl
  have hchain : ((0 : ℚ) :: (SystemStep.image darkFrame.message (captureReading 0) : SystemStep Unit).readings).IsChain (· ≤ ·) := by
    simp [SystemStep.readings, captureReading]
  have hstep : System.step demoConfig 5 rampPolicy { clock := 0 } (.image darkFrame.message (captureReading 0)) =
      some { clock := 0, node := captureNode } := by
    rw [System.step, if_pos hchain, hact]
    rfl
  refine Machine.recording_step_iff.mpr ⟨hstep, ?_⟩
  rw [hstep]
  rfl

theorem observed_frames_demo : ∃ s j,
    (journaledDex3 demoConfig 5 rampPolicy).run ({ clock := 0 }, {}) (.image darkFrame.message (captureReading 0) :: captureSteps) =
      some (s, j) ∧
      ∃ p ∈ j.published, p.target = List.replicate 28 0 ∧
        ∃ x ∈ j.submitted, x.request.image = darkImage ∧ x.request.stamp = 2 ^ 24 ∧ ∃ actions, (x.request, actions) ∈ j.predicted := by
  have hpublished : ((journaledDex3 demoConfig 5 rampPolicy).run ({ clock := 0, node := captureNode }, {}) captureSteps).map
      (fun x => x.2.published) = some [⟨1, "pour water", List.replicate 28 0, none⟩] := by
    decide +kernel
  obtain ⟨⟨s, j⟩, hrun, hj⟩ := Option.map_eq_some_iff.mp hpublished
  have hj : j.published = [⟨1, "pour water", List.replicate 28 0, none⟩] := hj
  have hp : (⟨1, "pour water", List.replicate 28 0, none⟩ : Publication) ∈ j.published := hj ▸ List.mem_singleton_self _
  have hrun : (journaledDex3 demoConfig 5 rampPolicy).run ({ clock := 0 }, {})
      (.image darkFrame.message (captureReading 0) :: captureSteps) = some (s, j) := by
    rw [Machine.run_cons, capture_step, Option.bind_some]
    exact hrun
  have hdark : CameraBridge.published 5 [.ok darkFrame] = [darkFrame] := rfl
  have hcamera : ∀ m reading, SystemStep.image m reading ∈ SystemStep.image darkFrame.message (captureReading 0) :: captureSteps →
      ∃ f ∈ CameraBridge.published 5 [.ok darkFrame], m = f.message := by
    intro m reading hmem
    rcases List.mem_cons.mp hmem with heq | hmem
    · cases heq
      exact ⟨darkFrame, hdark ▸ List.mem_singleton_self _, rfl⟩
    · simp [captureSteps] at hmem
  have hstamps : ∀ f ∈ framesOf [.ok darkFrame], f.stamp ∈ Set.Ico (2 ^ 24 : ℚ) (2 ^ 31) := by
    intro f hf
    obtain rfl : f = darkFrame := List.mem_singleton.mp hf
    exact ⟨le_rfl, by show (2 ^ 24 : ℚ) < 2 ^ 31; norm_num⟩
  obtain ⟨f, hf, x, hx, -, -, himage, hstamp, actions, -, hpredicted, -⟩ := (observed_frames hrun hcamera hstamps).2 _ hp
  rw [hdark] at hf
  obtain rfl := List.mem_singleton.mp hf
  exact ⟨s, j, hrun, _, hp, rfl, x, hx, himage, hstamp, actions, hpredicted⟩

end HumanoidLab.FluxDex3
