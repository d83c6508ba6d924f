import HumanoidLab.Bridge.Checkpoints
import HumanoidLab.Theorems.SessionSteps

/-! What the checkpoint controller tells of the owned server, and what its session publishes. The cached `/info` does not
    follow the server, a start is not held back by a switch, and a stream goes to whatever serves the URL: a status is honest
    while the selected checkpoint has its server, and every action is that of a verified one while no start clears the stop
    event of a switch and no stream is that of a foreign server. -/

namespace HumanoidLab
open Concurrency

/-! ### The owned server -/

namespace OwnedServer

variable {o o' : OwnedServer} {e : CheckpointEntry} {exits : Bool} {l : Nat} {id : String}

/-- Every start that runs was verified. -/
def Settled (o : OwnedServer) : Prop := ∀ l ∈ o.running, o.Verified l

/-- Every start that runs was verified, or is that of the owned server. -/
def Tried (o : OwnedServer) : Prop := ∀ l ∈ o.running, o.Verified l ∨ l = o.launch ∧ o.server.alive = true

/-- The server runs and was verified as the checkpoint. -/
def Serves (o : OwnedServer) (id : String) : Prop := o.server.alive = true ∧ (o.launch, id) ∈ o.verified

def Numbered (o : OwnedServer) : Prop := ∀ l ∈ o.running, l ≤ o.launch

theorem Settled.tried (h : o.Settled) : o.Tried := fun l hl => Or.inl (h l hl)

/-- What every step keeps: a start that was verified stays so, and one that has ended does not run again. -/
structure Grows (o o' : OwnedServer) : Prop where
  launch : o.launch ≤ o'.launch
  verified : ∀ v ∈ o.verified, v ∈ o'.verified
  ended : ∀ l ≤ o.launch, l ∉ o.running → l ∉ o'.running
  numbered : o.Numbered → o'.Numbered

theorem Grows.refl : Grows o o := ⟨Nat.le_refl _, fun _ => id, fun _ _ => id, id⟩

theorem Grows.keeps (h : Grows o o') (hl : o.Verified l) : o'.Verified l := by
  obtain ⟨id, hid⟩ := hl
  exact ⟨id, h.verified _ hid⟩

theorem Grows.vouches (h : Grows o o') {x : Backing} (hx : o.Vouched x) : o'.Vouched x := by
  cases x with
  | start l => exact h.keeps hx
  | foreign => exact hx

theorem mem_stop (h : l ∈ (o.stop exits).2.running) : l ∈ o.running ∧ ¬(o.server.alive = true ∧ exits = true ∧ l = o.launch) := by
  simp only [stop] at h
  split at h
  · rename_i hstops
    simp only [Bool.and_eq_true] at hstops
    simp only [ne_eq, decide_not, List.mem_filter, Bool.not_eq_eq_eq_not, Bool.not_true, decide_eq_false_iff_not] at h
    exact ⟨h.1, fun hl => h.2 hl.2.2⟩
  · rename_i hstops
    refine ⟨h, fun hl => hstops ?_⟩
    simp [hl.1, hl.2.1]

theorem stop_grows : Grows o (o.stop exits).2 where
  launch := Nat.le_refl _
  verified _ := id
  ended _ _ hl h := hl (mem_stop h).1
  numbered h l hl := h l (mem_stop hl).1

/-- A server that was not verified runs no longer when its process exits. -/
theorem stop_settled (h : o.Tried) (hexits : exits = true ∨ o.Verified o.launch) : (o.stop exits).2.Settled := by
  intro l hl
  obtain ⟨hrunning, hlaunch⟩ := mem_stop hl
  rcases h l hrunning with hverified | ⟨rfl, halive⟩
  · exact hverified
  · rcases hexits with hexits | hverified
    · exact absurd ⟨halive, hexits, rfl⟩ hlaunch
    · exact hverified

theorem lose_grows (h : Grows o o') : Grows o o'.lose := ⟨h.launch, h.verified, h.ended, h.numbered⟩

theorem start_ok {s : ServerStart} (h : o.start s e = .ok o') :
    o'.server.alive = true ∧ o'.launch = o.launch + 1 ∧ o'.running = o'.launch :: o.running ∧ o'.verified = o.verified := by
  have started : ∀ {runDir : String}, (o.server.start s runDir e.step).map
      (fun server => { o with server, launch := o.launch + 1, running := (o.launch + 1) :: o.running }) = .ok o' →
      o'.server.alive = true ∧ o'.launch = o.launch + 1 ∧ o'.running = o'.launch :: o.running ∧ o'.verified = o.verified := by
    intro runDir h
    cases hserver : o.server.start s runDir e.step with
    | error raised =>
      rw [hserver] at h
      cases h
    | ok server =>
      rw [hserver] at h
      cases h
      refine ⟨?_, rfl, rfl, rfl⟩
      unfold PolicyServer.start at hserver
      repeat' split at hserver
      all_goals cases hserver
      rfl
  unfold start at h
  split at h
  · exact started h
  · split at h
    · exact started h
    · cases h

theorem start_grows {s : ServerStart} (h : o.start s e = .ok o') : Grows o o' := by
  obtain ⟨-, hlaunch, hrunning, hverified⟩ := start_ok h
  refine ⟨by omega, fun v hv => hverified ▸ hv, fun l hl hn hmem => ?_, fun hnumbered l hl => ?_⟩
  · rw [hrunning, List.mem_cons] at hmem
    rcases hmem with rfl | hmem
    · omega
    · exact hn hmem
  · rw [hrunning, List.mem_cons] at hl
    rcases hl with rfl | hl
    · exact Nat.le_refl _
    · have hle := hnumbered l hl
      omega

theorem start_tried {s : ServerStart} (hs : o.Settled) (h : o.start s e = .ok o') : o'.Tried := by
  have hgrows := start_grows h
  obtain ⟨halive, -, hrunning, -⟩ := start_ok h
  intro l hl
  rw [hrunning, List.mem_cons] at hl
  rcases hl with rfl | hl
  · exact Or.inr ⟨rfl, halive⟩
  · exact Or.inl (hgrows.keeps (hs l hl))

theorem verify_grows : Grows o (o.verify e) :=
  ⟨Nat.le_refl _, fun _ hv => List.mem_cons_of_mem _ hv, fun _ _ => id, id⟩

theorem verify_settled (h : o.Tried) : (o.verify e).Settled := by
  intro l hl
  rcases h l hl with hverified | ⟨rfl, -⟩
  · exact verify_grows.keeps hverified
  · exact ⟨e.id, List.mem_cons_self⟩

theorem verify_serves (h : o.server.alive = true) : (o.verify e).Serves e.id := ⟨h, List.mem_cons_self⟩

theorem mem_exit (h : l ∈ o.exit.running) : l ∈ o.running ∧ l ≠ o.launch := by
  simpa [exit] using h

theorem exit_grows : Grows o o.exit where
  launch := Nat.le_refl _
  verified _ := id
  ended _ _ hl h := hl (mem_exit h).1
  numbered h l hl := h l (mem_exit hl).1

theorem exit_settled (h : o.Tried) : o.exit.Settled := by
  intro l hl
  obtain ⟨hrunning, hlaunch⟩ := mem_exit hl
  rcases h l hrunning with hverified | ⟨rfl, -⟩
  · exact hverified
  · exact absurd rfl hlaunch

end OwnedServer

/-! ### The threads of the session -/

/-- A streaming thread that is about to ask whether its new connection is current. -/
def dials : Place Point Section → Bool
  | .want (.loop _ (.current .connected)) | .inside (.loop _ (.current .connected)) => true
  | _ => false

/-- A streaming thread with an action that it may publish. -/
def carries : Place Point Section → Bool
  | .at (.loop _ (.action _)) | .at (.loop _ (.gate _)) | .at (.loop _ (.publish _)) => true
  | .want (.loop _ (.current (.action _))) | .inside (.loop _ (.current (.action _))) => true
  | .want (.loop _ (.current (.publish _))) | .inside (.loop _ (.current (.publish _))) => true
  | .want (.loop _ (.countNeck _)) | .inside (.loop _ (.countNeck _)) => true
  | _ => false

/-- A thread in `stop` after it has set the stop event. -/
def halted : Place Point Section → Bool
  | .at (.stopJoin .stop) | .at (.done .stop _) => true
  | .want (.stopFinish .stop) | .inside (.stopFinish .stop) | .want (.status .stop) | .inside (.status .stop) => true
  | _ => false

/-- A thread that calls `stop`. -/
inductive Stops : Place Point Section → Prop
  | idle : Stops (.at .idle)
  | gate : Stops (.at (.stopGate .stop))
  | halt : Stops (.at (.stopHalt .stop))
  | event : Stops (.at (.stopEvent .stop))
  | halted {pl : Place Point Section} (h : HumanoidLab.halted pl = true) : Stops pl

/-- A streaming thread whose new connection is found current. -/
def joins (w : World) : Place Point Section → Bool
  | .inside (.loop g (.current .connected)) => w.session.isCurrent g
  | _ => false

/-- What a step of a streaming thread passes: it dials, it is found current, or it receives a reply. -/
structure Passes (pl : Place Point Section) (b : Choice) (w : World) (pl' : Place Point Section) : Prop where
  dialed : dials pl' = true → dials pl = true ∨ ∃ g, pl = .at (.loop g .connect) ∧ b = .go
  joined : linked pl' = true → linked pl = true ∨ joins w pl = true
  carried : carries pl' = true → carries pl = true ∨ ∃ g n, pl = .at (.loop g .stream) ∧ b = .reply n

theorem Passes.of_none {pl pl' : Place Point Section} {b : Choice} {w : World} (h₁ : dials pl' = false)
    (h₂ : linked pl' = false) (h₃ : carries pl' = false) : Passes pl b w pl' := by
  constructor <;> intro h
  · rw [h₁] at h; cases h
  · rw [h₂] at h; cases h
  · rw [h₃] at h; cases h

theorem loopPoint_passes {g : Nat} {p : LoopPoint} {b : Choice} {w w' : World} {n : Next Point Section}
    (h : loopPoint g p b w = some (n, w')) : Passes (.at (.loop g p)) b w n.place := by
  revert h
  fun_cases loopPoint g p b w <;> intro h <;> cases h <;> constructor <;>
    simp [Next.place, dials, linked, carries, LoopPoint.linked, LoopSection.linked]

theorem loopBody_passes (g : Nat) (k : LoopSection) (b : Choice) (w : World) :
    Passes (.inside (.loop g k)) b w (loopBody g k w.session).1.place := by
  fun_cases loopBody g k w.session
  case case2 k =>
    by_cases hcurrent : w.session.isCurrent g = true
    · cases k <;> constructor <;>
        simp [Check.next, hcurrent, Next.place, dials, joins, linked, carries, LoopPoint.linked, LoopSection.linked]
    · cases k <;> constructor <;> simp [Check.next, hcurrent, Next.place, dials, linked, carries, LoopPoint.linked, LoopSection.linked]
  all_goals constructor <;> simp [Next.place, dials, linked, carries, LoopPoint.linked, LoopSection.linked]

theorem body_passes (i : Nat) (k : Section) (b : Choice) (w : World) : Passes (.inside k) b w (body i k w).1.place := by
  cases k with
  | startCheck =>
    simp only [body]
    split
    · exact .of_none rfl rfl rfl
    · split <;> exact .of_none rfl rfl rfl
  | stopFinish r => by_cases hr : r = .reset <;> simp only [body, hr, if_true, if_false] <;> exact .of_none rfl rfl rfl
  | readPreview =>
    simp only [body]
    split <;> exact .of_none rfl rfl rfl
  | loop g k => exact loopBody_passes g k b w
  | _ => exact .of_none rfl rfl rfl

section
variable {i : Nat} {pl : Place Point Section} {b : Choice} {s : Guarded World} {r : Place Point Section × Guarded World}

theorem step_passes (h : sessionProgram.threads i pl b s = some r) : Passes pl b s.data r.1 := by
  rcases Locking.threads_cases h with ⟨p, n, d, rfl, hp, rfl⟩ | ⟨k, rfl, -, rfl⟩ | ⟨k, e, d, rfl, hb, rfl⟩
  · replace hp : point i p b s.data = some (n, d) := hp
    revert hp
    fun_cases point i p b s.data <;> intro hp
    case case24 => exact loopPoint_passes hp
    all_goals cases hp
    case inl.case1.refl r => exact .of_none (by cases r <;> rfl) (by cases r <;> rfl) (by cases r <;> rfl)
    all_goals exact .of_none rfl rfl rfl
  · cases k with
    | loop g k =>
      refine ⟨fun h => Or.inl ?_, fun h => Or.inl h, fun h => Or.inl ?_⟩
      · cases k with
        | current q => cases q <;> exact h
        | _ => cases h
      · cases k with
        | current q => cases q <;> exact h
        | countNeck n => exact h
        | _ => cases h
    | _ => exact .of_none rfl rfl rfl
  · have hbody := body_passes i k b s.data
    rw [show body i k s.data = (e, d) from hb] at hbody
    exact hbody

theorem halted_cases (h : halted pl = true) : pl = .at (.stopJoin .stop) ∨ (∃ res, pl = .at (.done .stop res)) ∨
    pl = .want (.stopFinish .stop) ∨ pl = .inside (.stopFinish .stop) ∨ pl = .want (.status .stop) ∨
    pl = .inside (.status .stop) := by
  unfold halted at h
  split at h <;> simp_all

/-- A thread at a point takes one of its steps. -/
theorem at_step {p : Point} (h : sessionProgram.threads i (.at p) b s = some r) :
    ∃ n w, point i p b s.data = some (n, w) ∧ r = (n.place, { s with data := w }) := by
  obtain ⟨⟨n, w⟩, hp, hr⟩ := Option.map_eq_some_iff.mp h
  exact ⟨n, w, hp, hr.symm⟩

/-- A thread that has set the stop event in `stop` goes on to the return of the call. -/
theorem halted_step (h : sessionProgram.threads i pl b s = some r) (hpl : halted pl = true) :
    (∃ res, pl = .at (.done .stop res)) ∨ halted r.1 = true := by
  have wanted : ∀ k, pl = .want k → r.1 = .inside k := by
    rintro k rfl
    simp only [Locking.threads, Option.ite_none_right_eq_some, Option.some.injEq] at h
    rw [← h.2]
  rcases halted_cases hpl with rfl | hdone | rfl | rfl | rfl | rfl
  · obtain ⟨n, w, hp, rfl⟩ := at_step h
    cases b <;> cases hp
    exact Or.inr rfl
  · exact Or.inl hdone
  · rw [wanted _ rfl]
    exact Or.inr rfl
  · cases h
    exact Or.inr rfl
  · rw [wanted _ rfl]
    exact Or.inr rfl
  · cases h
    exact Or.inr rfl

/-- A call of `stop` sets the stop event before it returns. -/
theorem stops_step (h : sessionProgram.threads i pl b s = some r) (hpl : Stops pl) (hidle : pl = .at .idle → b = .call .stop) :
    (∃ res, pl = .at (.done .stop res)) ∨
      Stops r.1 ∧ (halted r.1 = true → halted pl = true ∨ r.2.data.session.stopEvent = true) := by
  cases hpl with
  | idle =>
    obtain rfl := hidle rfl
    cases h
    exact Or.inr ⟨.gate, fun h => by cases h⟩
  | gate =>
    obtain ⟨n, w, hp, rfl⟩ := at_step h
    cases b <;> cases hp
    exact Or.inr ⟨.halt, fun h => by cases h⟩
  | halt =>
    obtain ⟨n, w, hp, rfl⟩ := at_step h
    cases b <;> cases hp
    exact Or.inr ⟨.event, fun h => by cases h⟩
  | event =>
    obtain ⟨n, w, hp, rfl⟩ := at_step h
    cases b <;> cases hp
    exact Or.inr ⟨.halted rfl, fun _ => Or.inr rfl⟩
  | halted hpl =>
    rcases halted_step h hpl with hdone | hr
    · exact Or.inl hdone
    · exact Or.inr ⟨.halted hr, fun _ => Or.inl hpl⟩

/-- A call that has returned leaves its thread idle. -/
theorem done_step {q : Request} {res : Result} (h : sessionProgram.threads i (.at (.done q res)) b s = some r) :
    r.1 = .at .idle := by
  obtain ⟨n, w, hp, rfl⟩ := at_step h
  cases b <;> cases hp
  rfl

end

/-! ### The guard -/

/-- A point of a switch. -/
def CheckpointPoint.switches : CheckpointPoint → Bool
  | .idle | .statusSelected _ | .report .. | .calling .statusInfo | .calling (.statusServed ..) => false
  | _ => true

/-- A point of a switch at which the selected checkpoint has no server of its own. -/
def CheckpointPoint.displaces : CheckpointPoint → Bool
  | .serverStart _ | .verify _ | .calling (.adopt ..) | .select _ => true
  | .rollbackStop .. | .rollbackStart .. | .rollbackVerify .. | .rollbackAbort .. => true
  | _ => false

/-- A point of a switch from which the session is stopped up to a server that is verified. -/
def CheckpointPoint.withholds (pl : Place Point Section) : CheckpointPoint → Bool
  | .calling (.stop _) => halted pl
  | .serverStop _ | .serverStart _ | .verify _ => true
  | .rollbackStop .. | .rollbackStart .. | .rollbackVerify .. | .rollbackAbort .. => true
  | _ => false

namespace Checkpoints

def displaced (s : Checkpoints) : Bool := s.switching.any fun i => (s.place i).displaces

def withheld (s : Checkpoints) : Bool := s.switching.any fun i => (s.place i).withholds (s.pool.threads i)

/-- The status is of the checkpoint that is selected, and this one has its server. -/
def timely (s : Checkpoints) : CheckpointPoint → Bool
  | .report _ selected _ => !s.displaced && !s.owned.lost && selected.map CheckpointEntry.id == some s.selectedId
  | _ => true

/-- What a step must not meet: a start that clears the stop event while a switch holds the session back, a new connection to a
    foreign server that is found current, a status while the selected checkpoint has no server or after another one was
    selected, and a server that was not verified and does not exit when it is stopped. -/
def Careful (s : Checkpoints) : CheckpointStep → Prop
  | .session i _ =>
    (frees (s.pool.threads i) = true → s.withheld = false) ∧
      (joins s.pool.shared.data (s.pool.threads i) = true → s.conn i ≠ some .foreign)
  | .go i .next => s.timely (s.place i) = true
  | .go _ (.stops exits) | .close exits => exits = true ∨ s.owned.Verified s.owned.launch
  | _ => True

instance (s : Checkpoints) : ∀ a, Decidable (s.Careful a)
  | .session i _ =>
    inferInstanceAs (Decidable ((frees (s.pool.threads i) = true → s.withheld = false) ∧
      (joins s.pool.shared.data (s.pool.threads i) = true → s.conn i ≠ some .foreign)))
  | .go i .next => inferInstanceAs (Decidable (s.timely (s.place i) = true))
  | .go _ (.stops exits) | .close exits => inferInstanceAs (Decidable (exits = true ∨ s.owned.Verified s.owned.launch))
  | .go _ (.starts _) | .go _ (.verifies _) | .connect .. | .answer _ | .switch .. | .status _ | .exit => .isTrue trivial

/-- What the controller promises: a status that reports the selected checkpoint as served is of a server that runs and was
    verified as that checkpoint, and every action that was published was computed by a server that was verified. -/
structure Honest (s : Checkpoints) : Prop where
  reports : ∀ r ∈ s.reports, r.serving = true → r.alive = true ∧ r.verified = true
  published : ∀ x ∈ s.published, s.owned.Vouched x

end Checkpoints

/-! ### The invariant -/

variable {c : Allowlist} {o o' : OwnedServer} {id : String} {p : CheckpointPoint}

/-- The selected checkpoint has its server, unless that was lost. -/
def Seated (o : OwnedServer) (id : String) : Prop := o.Settled ∧ (o.lost = false → o.Serves id)

/-- What holds of the server where a switch stands. -/
def Stage (c : Allowlist) (o : OwnedServer) (id : String) : CheckpointPoint → Prop
  | .calling (.stop ch) | .serverStop ch => Seated o id ∧ ch.previous = c.find id
  | .serverStart ch => o.Settled ∧ ch.previous = c.find id
  | .verify ch | .rollbackStop ch _ => o.Tried ∧ ch.previous = c.find id
  | .calling (.adopt ch _) | .select ch => Seated o ch.entry.id
  | .rollbackStart _ p _ => o.Settled ∧ p.id = id
  | .rollbackVerify _ p _ => o.Tried ∧ p.id = id
  | .rollbackAbort .. => o.Tried
  | _ => Seated o id

theorem Seated.lost (h : o.Settled) (hlost : o.lost = true) : Seated o id :=
  ⟨h, fun hn => absurd (hlost.symm.trans hn) (by decide)⟩

theorem Stage.tried (h : Stage c o id p) : o.Tried := by
  unfold Stage at h
  split at h
  · exact h.1.1.tried
  · exact h.1.1.tried
  · exact h.1.tried
  · exact h.1
  · exact h.1
  · exact h.1.tried
  · exact h.1.tried
  · exact h.1.tried
  · exact h.1
  · exact h
  · exact h.1.tried

theorem Stage.lost (h : Stage c o id p) (hs : o'.Settled) (hlost : o'.lost = true) : Stage c o' id p := by
  unfold Stage at h ⊢
  split at h
  · exact ⟨.lost hs hlost, h.2⟩
  · exact ⟨.lost hs hlost, h.2⟩
  · exact ⟨hs, h.2⟩
  · exact ⟨hs.tried, h.2⟩
  · exact ⟨hs.tried, h.2⟩
  · exact .lost hs hlost
  · exact .lost hs hlost
  · exact ⟨hs, h.2⟩
  · exact ⟨hs.tried, h.2⟩
  · exact hs.tried
  · exact .lost hs hlost

/-- Where a switch does not displace the selected checkpoint, that has its server. -/
theorem Stage.seated (h : Stage c o id p) (hp : p.displaces = false) : Seated o id := by
  unfold Stage at h
  split at h <;> first | exact h | exact h.1 | cases hp

theorem find_id {e : CheckpointEntry} (h : c.find id = some e) : e.id = id := by
  have hid := List.find?_some h
  simpa using hid

/-- The controller goes on where a call on the session returns. -/
theorem Stage.resume {u : SessionUse} {res : Result} (h : Stage c o id (.calling u)) : Stage c o id (u.resume c res) := by
  cases u with
  | switchServed e =>
    simp only [SessionUse.resume]
    split <;> exact h
  | _ => exact h

theorem resume_switches (u : SessionUse) (res : Result) :
    (u.resume c res).switches = (CheckpointPoint.calling u).switches := by
  cases u with
  | switchServed e =>
    simp only [SessionUse.resume]
    split <;> rfl
  | _ => rfl

theorem resume_withholds {u : SessionUse} {res : Result} {pl : Place Point Section}
    (h : (u.resume c res).withholds pl = true) : ∃ ch, u = .stop ch := by
  cases u with
  | stop ch => exact ⟨ch, rfl⟩
  | switchServed e =>
    simp only [SessionUse.resume] at h
    split at h <;> cases h
  | _ => cases h

/-- Where the thread of a point stands in the session. -/
def Sits (pl : Place Point Section) : CheckpointPoint → Prop
  | .idle => True
  | .calling (.stop _) => Stops pl
  | .calling _ => True
  | _ => pl = .at .idle


variable {s t : Checkpoints} {i j : Nat}

/-- What holds of the streaming threads: a connection that was found current is to a start that was verified or has ended,
    and a reply or an action to publish is of a server that was verified. -/
structure Links (s : Checkpoints) : Prop where
  numbered : s.owned.Numbered
  dialed : ∀ i, dials (s.pool.threads i) = true → ∃ x ∈ s.conn i, ∀ l, x = .start l → l ≤ s.owned.launch
  joined : ∀ i, linked (s.pool.threads i) = true →
    ∃ l, s.conn i = some (.start l) ∧ l ≤ s.owned.launch ∧ (s.owned.Verified l ∨ l ∉ s.owned.running)
  answered : ∀ i, 0 < s.answers i → ∃ x ∈ s.conn i, s.owned.Vouched x
  carried : ∀ i, carries (s.pool.threads i) = true → ∃ x ∈ s.conn i, s.owned.Vouched x
  published : ∀ x ∈ s.published, s.owned.Vouched x

theorem Links.grow (h : Links s) (hg : s.owned.Grows o') (hs : t.owned = o') (hpool : t.pool = s.pool)
    (hconn : t.conn = s.conn) (hanswers : t.answers = s.answers) (hpublished : t.published = s.published) : Links t where
  numbered := hs ▸ hg.numbered h.numbered
  dialed j hj := by
    rw [hpool] at hj
    obtain ⟨x, hx, hle⟩ := h.dialed j hj
    rw [hconn, hs]
    exact ⟨x, hx, fun l hl => Nat.le_trans (hle l hl) hg.launch⟩
  joined j hj := by
    rw [hpool] at hj
    obtain ⟨l, hl, hle, hv⟩ := h.joined j hj
    rw [hconn, hs]
    exact ⟨l, hl, Nat.le_trans hle hg.launch, hv.imp hg.keeps (hg.ended l hle)⟩
  answered j hj := by
    rw [hanswers] at hj
    obtain ⟨x, hx, hv⟩ := h.answered j hj
    rw [hconn, hs]
    exact ⟨x, hx, hg.vouches hv⟩
  carried j hj := by
    rw [hpool] at hj
    obtain ⟨x, hx, hv⟩ := h.carried j hj
    rw [hconn, hs]
    exact ⟨x, hx, hg.vouches hv⟩
  published x hx := by
    rw [hpublished] at hx
    rw [hs]
    exact hg.vouches (h.published x hx)

theorem received_le (s : Checkpoints) (i : Nat) (b : Choice) : s.received i b ≤ s.answers i := by
  unfold Checkpoints.received
  split
  · exact Nat.sub_le _ _
  · exact Nat.le_refl _

theorem mem_publishes {b : Choice} {x : Backing} (h : x ∈ s.publishes i b) :
    x ∈ s.conn i ∧ carries (s.pool.threads i) = true := by
  unfold Checkpoints.publishes at h
  split at h
  · rename_i hthread
    split at h
    · cases h
    · exact ⟨Option.mem_toList.mp h, by rw [hthread]; rfl⟩
  · cases h

theorem joins_current {w : World} {pl : Place Point Section} (h : joins w pl = true) :
    dials pl = true ∧ w.session.stopEvent = false := by
  unfold joins at h
  split at h
  · exact ⟨rfl, by simpa using (Bool.and_eq_true_iff.mp h).2⟩
  · cases h

theorem Links.session {b : Choice} {r : Place Point Section × Guarded World} (h : Links s) (ha : s.admits i b = true)
    (hr : sessionProgram.threads i (s.pool.threads i) b s.pool.shared = some r)
    (hsettled : s.pool.shared.data.session.stopEvent = false → s.owned.Settled)
    (hown : joins s.pool.shared.data (s.pool.threads i) = true → s.conn i ≠ some .foreign) : Links (s.stepped c i b r) := by
  obtain ⟨hdialed, hjoined, hcarried⟩ := step_passes hr
  refine ⟨h.numbered, fun j hj => ?_, fun j hj => ?_, fun j hj => ?_, fun j hj => ?_, fun l hl => ?_⟩
  · by_cases hji : j = i
    · subst hji
      simp only [Checkpoints.stepped_pool, Pool.set_self] at hj
      rcases hdialed hj with hd | ⟨g, hg, rfl⟩
      · exact h.dialed j hd
      · simp [Checkpoints.admits, hg] at ha
    · exact h.dialed j (by simpa [Pool.set_other _ _ hji] using hj)
  · by_cases hji : j = i
    · subst hji
      simp only [Checkpoints.stepped_pool, Pool.set_self] at hj
      rcases hjoined hj with hl | hcurrent
      · exact h.joined j hl
      · obtain ⟨hd, hstop⟩ := joins_current hcurrent
        obtain ⟨x, hx, hle⟩ := h.dialed j hd
        cases x with
        | foreign => exact absurd hx (hown hcurrent)
        | start l =>
          by_cases hrunning : l ∈ s.owned.running
          · exact ⟨l, hx, hle l rfl, Or.inl (hsettled hstop l hrunning)⟩
          · exact ⟨l, hx, hle l rfl, Or.inr hrunning⟩
    · exact h.joined j (by simpa [Pool.set_other _ _ hji] using hj)
  · refine h.answered j ?_
    by_cases hji : j = i
    · subst hji
      simp only [Checkpoints.stepped_answers, Function.update_self] at hj
      exact Nat.lt_of_lt_of_le hj (received_le s j b)
    · simpa [hji] using hj
  · by_cases hji : j = i
    · subst hji
      simp only [Checkpoints.stepped_pool, Pool.set_self] at hj
      rcases hcarried hj with hk | ⟨g, n, hg, rfl⟩
      · exact h.carried j hk
      · exact h.answered j (by simpa [Checkpoints.admits, hg] using ha)
    · exact h.carried j (by simpa [Pool.set_other _ _ hji] using hj)
  · rcases List.mem_append.mp hl with hl | hl
    · obtain ⟨hconn, hcarries⟩ := mem_publishes hl
      obtain ⟨l', hl', hv⟩ := h.carried i hcarries
      obtain rfl : l = l' := Option.mem_unique hconn hl'
      exact hv
    · exact h.published l hl

theorem Links.connect {x : Backing} (h : Links s) (ht : s.connectStep i x = some t) : Links t := by
  unfold Checkpoints.connectStep at ht
  split at ht
  · rename_i g hplace hthread
    rw [Option.ite_none_right_eq_some, Option.map_eq_some_iff] at ht
    obtain ⟨hx, r, hr, rfl⟩ := ht
    have hpasses := step_passes hr
    rw [hthread] at hpasses
    refine ⟨h.numbered, fun j hj => ?_, fun j hj => ?_, fun j hj => ?_, fun j hj => ?_, h.published⟩ <;> by_cases hji : j = i
    · subst hji
      exact ⟨x, by simp, fun l hl => h.numbered l (by subst hl; exact hx)⟩
    · simpa [hji] using h.dialed j (by simpa [Pool.set_other _ _ hji] using hj)
    · subst hji
      simp only [Pool.set_self] at hj
      rcases hpasses.joined hj with hlinked | hcurrent
      · cases hlinked
      · cases hcurrent
    · simpa [hji] using h.joined j (by simpa [Pool.set_other _ _ hji] using hj)
    · subst hji
      simp at hj
    · simpa [hji] using h.answered j (by simpa [hji] using hj)
    · subst hji
      simp only [Pool.set_self] at hj
      rcases hpasses.carried hj with hk | ⟨g', n, hg', -⟩
      · cases hk
      · cases hg'
    · simpa [hji] using h.carried j (by simpa [Pool.set_other _ _ hji] using hj)
  · cases ht

theorem Links.answer (h : Links s) (ht : s.answerStep i = some t) : Links t := by
  unfold Checkpoints.answerStep at ht
  rw [Option.ite_none_right_eq_some] at ht
  obtain ⟨⟨hlinked, x, hx, hanswers⟩, ht⟩ := ht
  cases ht
  refine ⟨h.numbered, h.dialed, h.joined, fun j hj => ?_, h.carried, h.published⟩
  by_cases hji : j = i
  · subst hji
    obtain ⟨l, hl, -, hv⟩ := h.joined j hlinked
    obtain rfl : x = .start l := Option.mem_unique hx hl
    exact ⟨.start l, hl, hv.resolve_right (not_not.mpr hanswers)⟩
  · exact h.answered j (by simpa [hji] using hj)


/-- The invariant. -/
structure Kept (c : Allowlist) (s : Checkpoints) : Prop where
  seat : ∀ i, (s.place i).switches = true ↔ s.switching = some i
  free : s.switching = none → Seated s.owned s.selectedId
  stage : ∀ i, s.switching = some i → Stage c s.owned s.selectedId (s.place i)
  sits : ∀ i, Sits (s.pool.threads i) (s.place i)
  withheld : s.withheld = true → s.pool.shared.data.session.stopEvent = true
  links : Links s
  reports : ∀ r ∈ s.reports, r.serving = true → r.alive = true ∧ r.verified = true

/-- A server that runs without having been verified is that of a switch that holds the session back. -/
theorem Stage.settled (pl : Place Point Section) (h : Stage c o id p) (hp : p.withholds pl = false) : o.Settled := by
  unfold Stage at h
  split at h <;> first | exact h.1 | exact h.1.1 | cases hp

theorem withheld_iff : s.withheld = true ↔ ∃ i, s.switching = some i ∧ (s.place i).withholds (s.pool.threads i) = true := by
  simp [Checkpoints.withheld, Option.any_eq_true]

theorem Kept.tried (h : Kept c s) : s.owned.Tried := by
  cases hs : s.switching with
  | none => exact (h.free hs).1.tried
  | some i => exact (h.stage i hs).tried

theorem Kept.settled (h : Kept c s) (hstop : s.pool.shared.data.session.stopEvent = false) : s.owned.Settled := by
  cases hs : s.switching with
  | none => exact (h.free hs).1
  | some i =>
    refine (h.stage i hs).settled (s.pool.threads i) ?_
    by_contra hw
    have hset := h.withheld (withheld_iff.mpr ⟨i, hs, by simpa using hw⟩)
    rw [hstop] at hset
    cases hset

theorem Kept.init (h : (checkpointMachine c).init s) : Kept c s := by
  obtain ⟨info, server, e, -, halive, hs⟩ := h
  have hverified : (0, s.selectedId) ∈ s.owned.verified := by
    rw [hs]
    exact List.mem_cons_self
  have hrunning : s.owned.running = [0] := by rw [hs]
  have hplace : ∀ i, s.place i = .idle := fun i => by rw [hs]
  have hthreads : ∀ i, s.pool.threads i = .at .idle := fun i => by rw [hs]
  have hanswers : ∀ i, s.answers i = 0 := fun i => by rw [hs]
  have hswitching : s.switching = none := by rw [hs]
  refine ⟨fun i => ?_, fun _ => ⟨fun l hl => ?_, fun _ => ⟨?_, ?_⟩⟩, fun i hi => ?_, fun i => ?_, fun hw => ?_, ?_, fun r hr => ?_⟩
  · simp [hplace, hswitching, CheckpointPoint.switches]
  · rw [hrunning, List.mem_singleton] at hl
    exact ⟨s.selectedId, hl ▸ hverified⟩
  · rw [hs]
    exact halive
  · rw [hs]
    exact List.mem_cons_self
  · rw [hswitching] at hi
    cases hi
  · rw [hplace]
    trivial
  · obtain ⟨i, hi, -⟩ := withheld_iff.mp hw
    rw [hswitching] at hi
    cases hi
  · refine ⟨fun l hl => ?_, fun i hi => ?_, fun i hi => ?_, fun i hi => ?_, fun i hi => ?_, fun l hl => ?_⟩
    · rw [hrunning, List.mem_singleton] at hl
      omega
    · rw [hthreads] at hi
      cases hi
    · rw [hthreads] at hi
      cases hi
    · rw [hanswers] at hi
      cases hi
    · rw [hthreads] at hi
      cases hi
    · rw [hs] at hl
      cases hl
  · rw [hs] at hr
    cases hr

/-- A statement that keeps the selection and the switch. -/
theorem Kept.move (h : Kept c s) (hg : s.owned.Grows o') (hswitches : p.switches = (s.place i).switches)
    (hsame : (s.place i).switches = false → o' = s.owned)
    (hstage : s.switching = some i → Stage c o' s.selectedId p) (hsits : Sits (s.pool.threads i) p)
    (hwith : p.withholds (s.pool.threads i) = true → (s.place i).withholds (s.pool.threads i) = true) :
    Kept c (({ s with owned := o' } : Checkpoints).goto i p) := by
  have hplace : ∀ {j}, j ≠ i → Function.update s.place i p j = s.place j := fun hj => Function.update_of_ne hj _ _
  have hother : s.switching ≠ some i → o' = s.owned := fun hn => by
    refine hsame ?_
    by_contra hs
    exact hn ((h.seat i).mp (by simpa using hs))
  refine ⟨fun j => ?_, fun hs => ?_, fun j hj => ?_, fun j => ?_, fun hw => ?_, h.links.grow hg rfl rfl rfl rfl rfl, h.reports⟩
  · by_cases hji : j = i
    · subst hji
      simpa [hswitches] using h.seat j
    · simpa [hplace hji] using h.seat j
  · simp only [Checkpoints.goto_owned, Checkpoints.goto_selectedId]
    rw [hother (fun hn => by cases hn.symm.trans hs)]
    exact h.free hs
  · by_cases hji : j = i
    · subst hji
      simpa using hstage hj
    · have howned := hother fun hn => hji (Option.some.inj (hj.symm.trans hn))
      simpa [hplace hji, howned] using h.stage j hj
  · by_cases hji : j = i
    · subst hji
      simpa using hsits
    · simpa [hplace hji] using h.sits j
  · obtain ⟨j, hj, hjw⟩ := withheld_iff.mp hw
    refine h.withheld (withheld_iff.mpr ⟨j, hj, ?_⟩)
    by_cases hji : j = i
    · subst hji
      exact hwith (by simpa using hjw)
    · simpa [hplace hji] using hjw

/-- What happens to the server besides the switches. -/
theorem Kept.own (h : Kept c s) (hg : s.owned.Grows o') (hs : o'.Settled) (hlost : o'.lost = true) :
    Kept c { s with owned := o' } where
  seat := h.seat
  free _ := .lost hs hlost
  stage i hi := (h.stage i hi).lost hs hlost
  sits := h.sits
  withheld := h.withheld
  links := h.links.grow hg rfl rfl rfl rfl rfl
  reports := h.reports

/-- The thread of a switch stands in it. -/
theorem Kept.switching (h : Kept c s) (hp : s.place i = p) (hswitches : p.switches = true) : s.switching = some i :=
  (h.seat i).mp (hp ▸ hswitches)


/-! ### Steps -/

theorem Sits.idle : Sits (.at .idle) p := by
  unfold Sits
  split
  · trivial
  · exact .idle
  · trivial
  · rfl

theorem resumed_cases (c : Allowlist) (s : Checkpoints) (i : Nat) :
    (∃ u q res, s.place i = .calling u ∧ s.pool.threads i = .at (.done q res) ∧ s.resumed c i = u.resume c res) ∨
    s.resumed c i = s.place i ∧ ∀ u q res, s.place i = .calling u → s.pool.threads i ≠ .at (.done q res) := by
  unfold Checkpoints.resumed
  split
  · rename_i u q res hplace hthread
    exact Or.inl ⟨u, q, res, hplace, hthread, rfl⟩
  · rename_i hn
    exact Or.inr ⟨rfl, fun u q res hplace hthread => hn u q res hplace hthread⟩

section
variable {b : Choice} {r : Place Point Section × Guarded World}

theorem resumed_switches (c : Allowlist) (s : Checkpoints) (i : Nat) : (s.resumed c i).switches = (s.place i).switches := by
  rcases resumed_cases c s i with ⟨u, q, res, hplace, -, hresumed⟩ | ⟨hresumed, -⟩
  · rw [hresumed, hplace, resume_switches]
  · rw [hresumed]

/-- A thread steps in the session from a call of the controller, or where it stands in none. -/
theorem admits_sits (ha : s.admits i b = true) (hsits : Sits (s.pool.threads i) (s.place i)) :
    s.place i = .idle ∨ ∃ u, s.place i = .calling u ∧ (s.pool.threads i = .at .idle → b = .call u.request) := by
  cases hplace : s.place i with
  | idle => exact Or.inl rfl
  | calling u =>
    refine Or.inr ⟨u, rfl, fun hidle => ?_⟩
    simpa [Checkpoints.admits, hplace, hidle] using ha
  | _ =>
    rw [hplace] at hsits
    have hidle : s.pool.threads i = .at .idle := hsits
    simp [Checkpoints.admits, hplace, hidle] at ha

theorem Sits.step (hsits : Sits (s.pool.threads i) (s.place i)) (ha : s.admits i b = true)
    (hr : sessionProgram.threads i (s.pool.threads i) b s.pool.shared = some r) : Sits r.1 (s.resumed c i) := by
  rcases resumed_cases c s i with ⟨u, q, res, -, hthread, -⟩ | ⟨hresumed, hnone⟩
  · rw [hthread] at hr
    rw [done_step hr]
    exact .idle
  · rw [hresumed]
    rcases admits_sits ha hsits with hplace | ⟨u, hplace, hcall⟩
    · rw [hplace]
      trivial
    · rw [hplace] at hsits ⊢
      cases u with
      | stop ch =>
        rcases stops_step hr hsits hcall with ⟨res, hdone⟩ | ⟨hstops, -⟩
        · exact absurd hdone (hnone _ _ _ hplace)
        · exact hstops
      | _ => trivial

/-- The thread of a switch holds the session back from its own stop event on. -/
theorem withholds_step (hsits : Sits (s.pool.threads i) (s.place i)) (ha : s.admits i b = true)
    (hr : sessionProgram.threads i (s.pool.threads i) b s.pool.shared = some r)
    (hw : (s.resumed c i).withholds r.1 = true) :
    (s.place i).withholds (s.pool.threads i) = true ∨ r.2.data.session.stopEvent = true := by
  rcases resumed_cases c s i with ⟨u, q, res, hplace, hthread, hresumed⟩ | ⟨hresumed, hnone⟩
  · rw [hresumed] at hw
    obtain ⟨ch, rfl⟩ := resume_withholds hw
    rw [hplace, hthread] at hsits ⊢
    cases hsits with
    | halted h => exact Or.inl h
  · rw [hresumed] at hw
    rcases admits_sits ha hsits with hplace | ⟨u, hplace, hcall⟩
    · rw [hplace] at hw
      cases hw
    · rw [hplace] at hsits hw ⊢
      cases u with
      | stop ch =>
        rcases stops_step hr hsits hcall with ⟨res, hdone⟩ | ⟨-, hhalted⟩
        · exact absurd hdone (hnone _ _ _ hplace)
        · exact hhalted hw
      | _ => cases hw

theorem Kept.session (h : Kept c s) (hc : s.Careful (.session i b)) (ht : s.sessionStep c i b = some t) : Kept c t := by
  unfold Checkpoints.sessionStep at ht
  rw [Option.ite_none_right_eq_some, Option.map_eq_some_iff] at ht
  obtain ⟨ha, r, hr, rfl⟩ := ht
  have hown : (s.stepped c i b r).place i = s.resumed c i := by simp
  have hplace : ∀ {j}, j ≠ i → (s.stepped c i b r).place j = s.place j := fun hj => by simp [hj]
  have hkept : s.withheld = true → r.2.data.session.stopEvent = true := fun hw => by
    refine stopEvent_kept hr (h.withheld hw) ?_
    by_contra hfrees
    rw [hc.1 (by simpa using hfrees)] at hw
    cases hw
  refine ⟨fun j => ?_, h.free, fun j hj => ?_, fun j => ?_, fun hw => ?_, h.links.session ha hr h.settled hc.2, h.reports⟩
  · by_cases hji : j = i
    · rw [hji, hown, resumed_switches]
      exact h.seat i
    · rw [hplace hji]
      exact h.seat j
  · have hstage := h.stage j hj
    by_cases hji : j = i
    · rw [hji] at hstage ⊢
      rw [hown]
      rcases resumed_cases c s i with ⟨u, q, res, hu, -, hresumed⟩ | ⟨hresumed, -⟩
      · rw [hu] at hstage
        rw [hresumed]
        exact hstage.resume
      · rw [hresumed]
        exact hstage
    · rw [hplace hji]
      exact hstage
  · by_cases hji : j = i
    · rw [hji, hown]
      simpa using (h.sits i).step ha hr
    · rw [hplace hji]
      simpa [Pool.set_other _ _ hji] using h.sits j
  · by_cases hw' : s.withheld = true
    · exact hkept hw'
    · obtain ⟨j, hj, hjw⟩ := withheld_iff.mp hw
      by_cases hji : j = i
      · rw [hji] at hj hjw
        rw [hown] at hjw
        rcases withholds_step (h.sits i) ha hr (by simpa using hjw) with hold | hset
        · exact absurd ((withheld_iff (s := s)).mpr ⟨i, hj, hold⟩) hw'
        · exact hset
      · rw [hplace hji] at hjw
        refine absurd ((withheld_iff (s := s)).mpr ⟨j, hj, ?_⟩) hw'
        simpa [Pool.set_other _ _ hji] using hjw

end

section
variable {q : CheckpointPoint}

/-- A statement of a switch, between two calls on the session. -/
def CheckpointPoint.states : CheckpointPoint → Bool
  | .idle | .calling _ | .statusSelected _ | .report .. => false
  | _ => true

theorem states_switches (h : q.states = true) : q.switches = true := by
  cases q <;> first | rfl | cases h

theorem Sits.eq_idle {pl : Place Point Section} (h : Sits pl q) (hq : q.states = true) : pl = .at .idle := by
  cases q <;> first | exact h | cases hq

theorem Kept.switchMove (h : Kept c s) (hp : s.place i = q) (hq : q.states = true) (hg : s.owned.Grows o')
    (hswitches : p.switches = true) (hstage : Stage c s.owned s.selectedId q → Stage c o' s.selectedId p)
    (hwith : p.withholds (.at .idle) = false ∨ q.withholds (.at .idle) = true) :
    Kept c (({ s with owned := o' } : Checkpoints).goto i p) := by
  have hidle : s.pool.threads i = .at .idle := by
    have hsits := h.sits i
    rw [hp] at hsits
    exact hsits.eq_idle hq
  refine h.move hg (by rw [hp, states_switches hq, hswitches]) (fun hn => ?_) (fun hi => ?_) ?_ (fun hw => ?_)
  · rw [hp, states_switches hq] at hn
    cases hn
  · have hq := h.stage i hi
    rw [hp] at hq
    exact hstage hq
  · rw [hidle]
    exact .idle
  · rw [hidle] at hw ⊢
    rw [hp]
    rcases hwith with hn | hwith
    · cases hn.symm.trans hw
    · exact hwith

/-- A statement of a status. -/
theorem Kept.statusMove (h : Kept c s) (hp : s.place i = q) (hq : q.switches = false) (hswitches : p.switches = false)
    (hsits : Sits (s.pool.threads i) p) (hwith : ∀ pl, p.withholds pl = false) : Kept c (s.goto i p) := by
  refine h.move .refl (by rw [hp, hq, hswitches]) (fun _ => rfl) (fun hi => ?_) hsits (fun hw => ?_)
  · rw [← h.seat i, hp, hq] at hi
    cases hi
  · rw [hwith] at hw
    cases hw

theorem Kept.report (h : Kept c s) {active : Option ServerInfo} {selected : Option CheckpointEntry} {serving : Bool}
    (hp : s.place i = .report active selected serving) (hc : s.timely (s.place i) = true) :
    Kept c ({ s with reports := s.reportOf active selected serving :: s.reports }.goto i .idle) := by
  have hmoved : Kept c (s.goto i .idle) := h.statusMove hp rfl rfl trivial fun _ => rfl
  refine { hmoved with links := h.links.grow .refl rfl rfl rfl rfl rfl, reports := fun r hr hserving => ?_ }
  rcases List.mem_cons.mp hr with rfl | hr
  · -- The selected checkpoint has its server where no switch displaces it.
    rw [hp] at hc
    simp only [Checkpoints.timely, Bool.and_eq_true, Bool.not_eq_true', beq_iff_eq, Option.map_eq_some_iff] at hc
    obtain ⟨⟨hdisplaced, hlost⟩, e, rfl, he⟩ := hc
    have hseated : Seated s.owned s.selectedId := by
      cases hs : s.switching with
      | none => exact h.free hs
      | some j =>
        refine (h.stage j hs).seated ?_
        simpa [Checkpoints.displaced, hs] using hdisplaced
    obtain ⟨halive, hverified⟩ := hseated.2 hlost
    exact ⟨halive, by simpa [Checkpoints.reportOf, he] using hverified⟩
  · exact h.reports r hr hserving

theorem Kept.select (h : Kept c s) {ch : Change} (hp : s.place i = .select ch) :
    Kept c ({ s with selectedId := ch.entry.id }.goto i (.finish none)) := by
  have hswitching : s.switching = some i := h.switching hp rfl
  have hstage : Seated s.owned ch.entry.id := by
    have hstage := h.stage i hswitching
    rwa [hp] at hstage
  have hidle : s.pool.threads i = .at .idle := by
    have hsits := h.sits i
    rwa [hp] at hsits
  refine ⟨fun j => ?_, fun hs => ?_, fun j hj => ?_, fun j => ?_, fun hw => ?_, h.links.grow .refl rfl rfl rfl rfl rfl, h.reports⟩
  · by_cases hji : j = i
    · simp [hji, hswitching, CheckpointPoint.switches]
    · simpa [hji] using h.seat j
  · cases hswitching.symm.trans hs
  · obtain rfl : i = j := Option.some.inj (hswitching.symm.trans hj)
    simpa [Stage] using hstage
  · by_cases hji : j = i
    · simpa [hji, Sits] using hidle
    · simpa [hji] using h.sits j
  · obtain ⟨j, hj, hjw⟩ := withheld_iff.mp hw
    obtain rfl : i = j := Option.some.inj (hswitching.symm.trans hj)
    simp [CheckpointPoint.withholds] at hjw

/-- The switch ends, with the selected checkpoint on its server or that lost. -/
theorem Kept.finish (h : Kept c s) {raised : Option Exn} (hp : s.place i = .finish raised) :
    Kept c ({ s with switching := none }.goto i (if raised.isNone then .calling .statusInfo else .idle)) := by
  have hswitching : s.switching = some i := h.switching hp rfl
  have hstage : Seated s.owned s.selectedId := by
    have hstage := h.stage i hswitching
    rwa [hp] at hstage
  refine ⟨fun j => ?_, fun _ => hstage, fun j hj => ?_, fun j => ?_, fun hw => ?_, h.links.grow .refl rfl rfl rfl rfl rfl, h.reports⟩
  · refine iff_of_false (fun hj => ?_) (fun hj => by cases hj)
    by_cases hji : j = i
    · cases raised <;> simp [hji, CheckpointPoint.switches] at hj
    · have hseat := (h.seat j).mp (by simpa [hji] using hj)
      exact hji (Option.some.inj (hseat.symm.trans hswitching))
  · cases hj
  · by_cases hji : j = i
    · cases raised <;> simp [hji, Sits]
    · simpa [hji] using h.sits j
  · obtain ⟨j, hj, -⟩ := withheld_iff.mp hw
    cases hj

theorem Kept.accept (h : Kept c s) {e : CheckpointEntry} (hidle : s.pool.threads i = .at .idle) (hs : s.switching = none) :
    Kept c ({ s with switching := some i }.goto i (.check e)) := by
  refine ⟨fun j => ?_, fun hn => ?_, fun j hj => ?_, fun j => ?_, fun hw => ?_, h.links.grow .refl rfl rfl rfl rfl rfl, h.reports⟩
  · by_cases hji : j = i
    · simp [hji, CheckpointPoint.switches]
    · have hseat := h.seat j
      rw [hs] at hseat
      simpa [hji, Ne.symm hji] using hseat
  · cases hn
  · obtain rfl : i = j := Option.some.inj hj
    simpa [Stage] using h.free hs
  · by_cases hji : j = i
    · simpa [hji, Sits] using hidle
    · simpa [hji] using h.sits j
  · obtain ⟨j, hj, hjw⟩ := withheld_iff.mp hw
    obtain rfl : i = j := Option.some.inj hj
    simp [CheckpointPoint.withholds] at hjw

theorem Kept.go {o : CheckpointOutcome} (h : Kept c s) (hc : s.Careful (.go i o)) (ht : s.goStep c i o = some t) : Kept c t := by
  unfold Checkpoints.goStep at ht
  split at ht
  · rename_i active hp
    cases ht
    split
    · exact h.statusMove hp rfl rfl (by have := h.sits i; rwa [hp] at this) fun _ => rfl
    · exact h.statusMove hp rfl rfl trivial fun _ => rfl
  · rename_i active selected serving hp
    cases ht
    exact h.report hp hc
  · rename_i e hp
    cases ht
    split
    · exact h.switchMove hp rfl .refl rfl id (.inl rfl)
    · exact h.switchMove hp rfl .refl rfl id (.inl rfl)
  · rename_i e hp
    cases ht
    exact h.switchMove hp rfl .refl rfl (fun hstage => ⟨hstage, rfl⟩) (.inl rfl)
  · rename_i ch exits hp
    cases ht
    split
    · exact h.switchMove hp rfl OwnedServer.stop_grows rfl
        (fun hstage => ⟨OwnedServer.stop_settled hstage.1.1.tried hc, hstage.2⟩) (.inr rfl)
    · exact h.switchMove hp rfl OwnedServer.stop_grows rfl
        (fun hstage => ⟨(OwnedServer.stop_settled hstage.1.1.tried hc).tried, hstage.2⟩) (.inr rfl)
  · rename_i ch start hp
    split at ht
    · rename_i owned hstart
      cases ht
      exact h.switchMove hp rfl (OwnedServer.start_grows hstart) rfl
        (fun hstage => ⟨OwnedServer.start_tried hstage.1 hstart, hstage.2⟩) (.inr rfl)
    · cases ht
      exact h.switchMove hp rfl .refl rfl (fun hstage => ⟨hstage.1.tried, hstage.2⟩) (.inr rfl)
  · rename_i ch info hp
    rw [Option.ite_none_right_eq_some] at ht
    obtain ⟨halive, ht⟩ := ht
    cases ht
    exact h.switchMove hp rfl OwnedServer.verify_grows rfl
      (fun hstage => ⟨OwnedServer.verify_settled hstage.1, fun _ => OwnedServer.verify_serves halive⟩) (.inl rfl)
  · rename_i ch e hp
    cases ht
    exact h.switchMove hp rfl .refl rfl id (.inr rfl)
  · rename_i ch hp
    cases ht
    exact h.select hp
  · rename_i ch e exits hp
    have hstopped : Stage c s.owned s.selectedId (.rollbackStop ch e) → (s.owned.stop exits).2.Settled := fun hstage =>
      OwnedServer.stop_settled hstage.1 hc
    have hlost : Stage c s.owned s.selectedId (.rollbackStop ch e) → Seated (s.owned.stop exits).2.lose s.selectedId :=
      fun hstage => .lost (hstopped hstage) rfl
    split at ht
    · cases ht
      exact h.switchMove hp rfl (OwnedServer.lose_grows OwnedServer.stop_grows) rfl hlost (.inl rfl)
    · cases ht
      exact h.switchMove hp rfl (OwnedServer.lose_grows OwnedServer.stop_grows) rfl hlost (.inl rfl)
    · rename_i p _ hprevious
      split at ht
      · cases ht
        exact h.switchMove hp rfl OwnedServer.stop_grows rfl
          (fun hstage => ⟨hstopped hstage, find_id (hstage.2.symm.trans hprevious)⟩) (.inr rfl)
      · cases ht
        exact h.switchMove hp rfl (OwnedServer.lose_grows OwnedServer.stop_grows) rfl hlost (.inl rfl)
  · rename_i ch p e start hp
    split at ht
    · rename_i owned hstart
      cases ht
      exact h.switchMove hp rfl (OwnedServer.start_grows hstart) rfl
        (fun hstage => ⟨OwnedServer.start_tried hstage.1 hstart, hstage.2⟩) (.inr rfl)
    · cases ht
      exact h.switchMove hp rfl .refl rfl (fun hstage => hstage.1.tried) (.inr rfl)
  · rename_i ch p e info hp
    rw [Option.ite_none_right_eq_some] at ht
    obtain ⟨halive, ht⟩ := ht
    cases ht
    refine h.switchMove hp rfl OwnedServer.verify_grows rfl (fun hstage => ⟨OwnedServer.verify_settled hstage.1, fun _ => ?_⟩)
      (.inl rfl)
    rw [← hstage.2]
    exact OwnedServer.verify_serves halive
  · rename_i ch p e raised hp
    cases ht
    exact h.switchMove hp rfl .refl rfl (fun hstage => hstage.1) (.inr rfl)
  · rename_i ch p e raised exits hp
    have hlost : Stage c s.owned s.selectedId (.rollbackAbort ch p e raised) → Seated (s.owned.stop exits).2.lose s.selectedId :=
      fun hstage => .lost (OwnedServer.stop_settled hstage hc) rfl
    cases ht
    split <;> exact h.switchMove hp rfl (OwnedServer.lose_grows OwnedServer.stop_grows) rfl hlost (.inl rfl)
  · rename_i raised hp
    cases ht
    exact h.finish hp
  · cases ht

end

theorem Kept.connect {x : Backing} (h : Kept c s) (ht : s.connectStep i x = some t) : Kept c t := by
  have hlinks := h.links.connect ht
  unfold Checkpoints.connectStep at ht
  split at ht
  · rename_i g hplace hthread
    rw [Option.ite_none_right_eq_some, Option.map_eq_some_iff] at ht
    obtain ⟨-, r, hr, rfl⟩ := ht
    have hother : ∀ {j}, j ≠ i → (s.pool.set i r).threads j = s.pool.threads j := fun hj => Pool.set_other _ _ hj
    refine ⟨h.seat, h.free, h.stage, fun j => ?_, fun hw => ?_, hlinks, h.reports⟩
    · by_cases hji : j = i
      · rw [hji]
        show Sits _ (s.place i)
        rw [hplace]
        trivial
      · show Sits ((s.pool.set i r).threads j) (s.place j)
        rw [hother hji]
        exact h.sits j
    · obtain ⟨j, hj, hjw⟩ := withheld_iff.mp hw
      have hji : j ≠ i := by
        rintro rfl
        rw [hplace] at hjw
        cases hjw
      refine stopEvent_kept hr (h.withheld (withheld_iff.mpr ⟨j, hj, ?_⟩)) (by rw [hthread]; rfl)
      rw [← hother hji]
      exact hjw
  · cases ht

theorem Kept.answer (h : Kept c s) (ht : s.answerStep i = some t) : Kept c t := by
  have hlinks := h.links.answer ht
  unfold Checkpoints.answerStep at ht
  rw [Option.ite_none_right_eq_some] at ht
  obtain ⟨-, ht⟩ := ht
  cases ht
  exact ⟨h.seat, h.free, h.stage, h.sits, h.withheld, hlinks, h.reports⟩

theorem refusal_ok {e : CheckpointEntry} (h : s.refusal c id = .ok e) : s.switching = none := by
  unfold Checkpoints.refusal at h
  split at h
  · cases h
  · split at h
    · cases h
    · split at h
      · cases h
      · rename_i hswitching
        simpa using hswitching

/-! ### Runs -/

theorem Kept.step {a : CheckpointStep} (h : Kept c s) (hc : s.Careful a) (ht : (checkpointMachine c).step s a = some t) :
    Kept c t := by
  replace ht : s.step c a = some t := ht
  cases a with
  | session i b => exact h.session hc ht
  | connect i x => exact h.connect ht
  | answer i => exact h.answer ht
  | switch i id =>
    simp only [Checkpoints.step, Option.ite_none_right_eq_some] at ht
    obtain ⟨⟨-, hidle⟩, ht⟩ := ht
    split at ht
    · cases ht
      exact h
    · rename_i e he
      cases ht
      exact h.accept hidle (refusal_ok he)
  | status i =>
    simp only [Checkpoints.step, Option.ite_none_right_eq_some] at ht
    obtain ⟨⟨hplace, -⟩, ht⟩ := ht
    cases ht
    exact h.statusMove hplace rfl rfl trivial fun _ => rfl
  | go i o => exact h.go hc ht
  | close exits =>
    cases ht
    exact h.own (OwnedServer.lose_grows OwnedServer.stop_grows) (OwnedServer.stop_settled h.tried hc) rfl
  | exit =>
    simp only [Checkpoints.step, Option.ite_none_right_eq_some] at ht
    obtain ⟨-, ht⟩ := ht
    cases ht
    exact h.own OwnedServer.exit_grows (OwnedServer.exit_settled h.tried) rfl

theorem kept_reach (h : (checkpointMachine c).Reach Checkpoints.Careful s) : Kept c s :=
  h.invariant (fun _ => Kept.init) fun _ _ _ _ hkept hc hs => hkept.step hc hs

def fineTuned : CheckpointEntry := ⟨"fine-tuned", "Fine-tuned (40k)", some "/fine", 40000, true, none⟩

def baseEntry : CheckpointEntry := ⟨"base", "Base", some "/base", 0, true, none⟩

def infoOf (runDir : String) (ckptStep : Nat) : ServerInfo :=
  ⟨runDir, 80, 30, 30, 45, 1, "egocentric", (240, 320), (240, 320), true, true, some ckptStep, "sonic"⟩

def twoCheckpoints : Allowlist := ⟨[fineTuned, baseEntry], fun path => path⟩

/-- The bridge serves the fine-tuned checkpoint. -/
def bridging : Checkpoints where
  pool := ⟨⟨none, { session := { info := some (infoOf "/fine" 40000) } }⟩, fun _ => .at .idle⟩
  owned := { server := { process := some ⟨4242, true⟩, runDir := some "/fine", step := some 40000 }, verified := [(0, "fine-tuned")] }
  selectedId := "fine-tuned"

theorem bridging_init : (checkpointMachine twoCheckpoints).init bridging :=
  ⟨some (infoOf "/fine" 40000), _, fineTuned, by decide +kernel, rfl, rfl⟩

def goes (i n : Nat) : List CheckpointStep := List.replicate n (.session i .go)

/-- Thread `i` asks for the base checkpoint, up to the new server. -/
def restarting (i : Nat) : List CheckpointStep :=
  [.switch i "base", .go i .next, .go i .next, .session i (.call .stop)] ++ goes i 9 ++
  [.go i (.stops true), .go i (.starts ⟨true, false, .pid 4243⟩)]

/-- Thread `i` reads the status, from its first statement on. -/
def reading (i : Nat) : List CheckpointStep :=
  [.session i (.call .info)] ++ goes i 3 ++ [.go i .next, .session i (.call .info)] ++ goes i 3 ++ [.go i .next]

def mismatch : Exn := ⟨"LaunchError", "identity mismatch"⟩

def foreign : Exn :=
  PolicyServer.raised "something already serves :8014 on localhost; refusing to start a second policy server"

/-- The base checkpoint is refused, the server of the fine-tuned one does not start again, and the status is read. -/
def abandoned : List CheckpointStep :=
  restarting 0 ++
  [.go 0 (.verifies (.error mismatch)), .go 0 (.stops true), .go 0 (.starts ⟨true, true, .pid 4244⟩), .go 0 (.stops true),
    .session 0 (.call (.markError (Change.failed ⟨baseEntry, some fineTuned⟩ mismatch
      ("rollback to Fine-tuned (40k) failed: " ++ foreign.describe ++ "; no policy server is running"))))] ++
  goes 0 9 ++ [.go 0 .next, .status 1] ++ reading 1

/-- The session is then reset and started, and its stream goes to the server that holds the port. -/
def streamedForeign : List CheckpointStep :=
  abandoned ++ [.session 1 (.call .reset)] ++ goes 1 8 ++ [.session 1 (.reset none)] ++ goes 1 6 ++ [.session 1 (.call .start)] ++
  goes 1 9 ++ [.session 2 (.run 2), .session 2 (.info (infoOf "/fine" 40000))] ++ goes 2 6 ++ [.connect 2 .foreign] ++ goes 2 7 ++
  [.answer 2, .session 2 (.reply 0)] ++ goes 2 4 ++ [.session 2 (.published true)]

/-- The base checkpoint is verified, and the session that then starts publishes an action. -/
def replaced : List CheckpointStep :=
  restarting 0 ++ [.go 0 (.verifies (.ok (infoOf "/base" 0))), .session 0 (.call (.adoptPolicy (infoOf "/base" 0)))] ++ goes 0 3 ++
  [.go 0 .next, .go 0 .next] ++ reading 0 ++ [.session 0 (.call .start)] ++ goes 0 9 ++
  [.session 1 (.run 1), .session 1 (.info (infoOf "/base" 0))] ++ goes 1 6 ++ [.connect 1 (.start 1)] ++ goes 1 7 ++
  [.answer 1, .session 1 (.reply 0)] ++ goes 1 4 ++ [.session 1 (.published true)]

end HumanoidLab
