import HumanoidLab.Bridge.Session

/-! What a step of a thread does to a session. The fields that the lifecycle reads change only in six
    blocks and in an accepted start; every other step leaves them, and the record of calls changes only
    where a call begins or ends. The stop event is set a few steps after the block that withdraws a
    start, and RUNNING is recorded some steps after a thread has looked at it. -/

namespace HumanoidLab
open Concurrency

/-- The fields that the lifecycle reads. -/
def Session.lifecycle (s : Session) : SessionState × Option String × Bool × Nat :=
  (s.state, s.error, s.starting, s.generation)

theorem Session.lifecycle_eq {s t : Session} (h : s.lifecycle = t.lifecycle) :
    s.state = t.state ∧ s.error = t.error ∧ s.starting = t.starting ∧ s.generation = t.generation := by
  simpa only [lifecycle, Prod.mk.injEq] using h

/-- The calls that withdraw a start. -/
def Request.withdraws : Request → Bool
  | .stop | .reset | .markError _ => true
  | _ => false

theorem loopPoint_keeps {g : Nat} {p : LoopPoint} {c : Choice} {w w' : World} {n : Next Point Section}
    (h : loopPoint g p c w = some (n, w')) :
    w'.session.lifecycle = w.session.lifecycle ∧ w'.log = w.log ∧ w'.spawned = w.spawned := by
  revert h
  fun_cases loopPoint g p c w <;> intro h <;> simp_all <;> obtain ⟨-, rfl⟩ := h <;> exact ⟨rfl, rfl, rfl⟩

/-- The blocks of a streaming thread that change the lifecycle fields are `announce` and `fail` of the
    current generation. -/
theorem loopBody_cases (g : Nat) (c : LoopSection) (s : Session) :
    ((loopBody g c s).2.lifecycle = s.lifecycle ∧ c.record g s = none) ∨
    (c = .announce ∧ g = s.generation ∧ (loopBody g c s).2 = s.announce) ∨
    (∃ m, c = .fail m ∧ g = s.generation ∧ (loopBody g c s).2 = s.fail m) := by
  fun_cases loopBody g c s <;> simp_all [Session.lifecycle, Session.recordAction, LoopSection.record]

/-- What a step of thread `i` from `pl` to `pl'` does. -/
inductive Moves (i : Nat) (pl : Place Point Section) (w : World) (pl' : Place Point Section) (w' : World) : Prop
  | quiet (same : w'.session.lifecycle = w.session.lifecycle) (log : w'.log = w.log)
  | called (r : Request) (at_ : pl = .at .idle) (goes : pl' = r.entry.place)
      (same : w'.session.lifecycle = w.session.lifecycle) (log : w'.log = .call i r :: w.log)
  | returned (r : Request) (res : Result) (at_ : pl = .at (.done r res)) (goes : pl' = .at .idle)
      (same : w'.session.lifecycle = w.session.lifecycle) (log : w'.log = .ret i r :: w.log)
  | accepted (at_ : pl = .inside .startCheck) (settled : w.session.starting = false)
      (state : w.session.state ≠ .running ∧ w.session.state ≠ .error) (session : w'.session = w.session.accept)
      (log : w'.log = .accepted (w.session.generation + 1) :: w.log)
  | stopFinish (r : Request) (at_ : pl = .inside (.stopFinish r)) (session : w'.session = w.session.stopFinish)
      (log : w'.log = .ended :: w.log)
  | resetClear (e : Option String) (at_ : pl = .inside (.resetClear e))
      (session : w'.session = w.session.resetClear e) (log : w'.log = w.log)
  | markError (m : String) (at_ : pl = .inside (.markError m)) (session : w'.session = w.session.markError m)
      (log : w'.log = .ended :: w.log)
  | adoptPolicy (info : ServerInfo) (at_ : pl = .inside (.adoptPolicy info))
      (session : w'.session = w.session.adoptPolicy info) (log : w'.log = w.log)
  | announce (g : Nat) (at_ : pl = .inside (.loop g .announce)) (current : g = w.session.generation)
      (session : w'.session = w.session.announce) (log : w'.log = w.log)
  | fail (g : Nat) (m : String) (at_ : pl = .inside (.loop g (.fail m))) (current : g = w.session.generation)
      (session : w'.session = w.session.fail m) (log : w'.log = .ended :: w.log)

theorem point_moves {i : Nat} {p : Point} {c : Choice} {w w' : World} {n : Next Point Section}
    (h : point i p c w = some (n, w')) : Moves i (.at p) w n.place w' := by
  cases p with
  | loop g p =>
    have h : loopPoint g p c w = some (n, w') := by cases c <;> exact h
    obtain ⟨same, log, -⟩ := loopPoint_keeps h
    exact .quiet same log
  | idle =>
    cases c <;> simp only [point, reduceCtorEq] at h
    case call r =>
      obtain ⟨rfl, rfl⟩ := Prod.mk.inj (Option.some.inj h)
      exact .called r rfl rfl rfl rfl
    case run g =>
      split at h
      · obtain ⟨rfl, rfl⟩ := Prod.mk.inj (Option.some.inj h)
        exact .quiet rfl rfl
      · cases h
  | done r res =>
    cases c <;> simp only [point, reduceCtorEq] at h
    obtain ⟨rfl, rfl⟩ := Prod.mk.inj (Option.some.inj h)
    exact .returned r res rfl rfl rfl rfl
  | _ =>
    cases c <;> simp only [point, reduceCtorEq] at h
    all_goals
      obtain ⟨rfl, rfl⟩ := Prod.mk.inj (Option.some.inj h)
      exact .quiet rfl rfl

theorem body_moves (i : Nat) (c : Section) (w : World) :
    Moves i (.inside c) w (body i c w).1.place (body i c w).2 := by
  cases c with
  | startCheck =>
    by_cases h₁ : w.session.starting = true ∨ w.session.state = .running
    · simp only [body]
      rw [if_pos h₁]
      exact .quiet rfl rfl
    · by_cases h₂ : w.session.state = .error
      · simp only [body]
        rw [if_neg h₁, if_pos h₂]
        exact .quiet rfl rfl
      · simp only [body]
        rw [if_neg h₁, if_neg h₂]
        rw [not_or] at h₁
        exact .accepted rfl (by simpa using h₁.1) ⟨h₁.2, h₂⟩ rfl rfl
  | stopFinish r => exact .stopFinish r rfl rfl rfl
  | resetClear e => exact .resetClear e rfl rfl rfl
  | markError m => exact .markError m rfl rfl rfl
  | adoptPolicy info => exact .adoptPolicy info rfl rfl rfl
  | readPreview =>
    simp only [body]
    split <;> exact .quiet rfl rfl
  | loop g c =>
    rcases loopBody_cases g c w.session with ⟨h, hr⟩ | ⟨rfl, hg, h⟩ | ⟨m, rfl, hg, h⟩
    · exact .quiet h (by simp [body, hr])
    · exact .announce g rfl hg h rfl
    · exact .fail g m rfl hg h (by simp [body, LoopSection.record, hg])
  | _ => exact .quiet rfl rfl

/-- Every step of a thread is one of these. -/
theorem step_moves {i : Nat} {pl : Place Point Section} {c : Choice} {s : Guarded World}
    {r : Place Point Section × Guarded World} (h : sessionProgram.threads i pl c s = some r) :
    Moves i pl s.data r.1 r.2.data := by
  rcases Locking.threads_cases h with ⟨p, n, d, rfl, hp, rfl⟩ | ⟨k, rfl, -, rfl⟩ | ⟨k, e, d, rfl, hb, rfl⟩
  · exact point_moves hp
  · exact .quiet rfl rfl
  · have := body_moves i k s.data
    rw [show body i k s.data = (e, d) from hb] at this
    exact this

/-! ### The stop event -/

/-- A start that is about to clear the stop event. -/
def frees : Place Point Section → Bool
  | .at (.startStop _) => true
  | _ => false

theorem frees_eq {pl : Place Point Section} (h : frees pl = true) : ∃ g, pl = .at (.startStop g) := by
  revert h
  fun_cases frees pl with
  | case1 g => exact fun _ => ⟨g, rfl⟩
  | case2 => nofun

theorem point_stopEvent {i : Nat} {p : Point} {b : Choice} {w w' : World} {n : Next Point Section}
    (h : point i p b w = some (n, w')) (hs : w.session.stopEvent = true) (hp : frees (.at p) = false) :
    w'.session.stopEvent = true := by
  revert h hp
  fun_cases point i p b w <;> intro h hp
  case case24 g p =>
    revert h
    fun_cases loopPoint g p b w <;> intro h <;> cases h <;> first | exact hs | rfl
  all_goals first | (cases h <;> first | exact hs | rfl) | cases hp

theorem body_stopEvent (i : Nat) (k : Section) (w : World) :
    (body i k w).2.session.stopEvent = w.session.stopEvent := by
  fun_cases body i k w
  case case15 g k => fun_cases loopBody g k w.session <;> rfl
  all_goals rfl

/-- Only a start clears the stop event. -/
theorem stopEvent_kept {i : Nat} {pl : Place Point Section} {b : Choice} {s : Guarded World} {r : Place Point Section × Guarded World}
    (h : sessionProgram.threads i pl b s = some r) (hs : s.data.session.stopEvent = true) (hpl : frees pl = false) :
    r.2.data.session.stopEvent = true := by
  rcases Locking.threads_cases h with ⟨p, n, d, rfl, hp, rfl⟩ | ⟨k, rfl, -, rfl⟩ | ⟨k, e, d, rfl, hb, rfl⟩
  · exact point_stopEvent hp hs hpl
  · exact hs
  · have hbody := body_stopEvent i k s.data
    rw [show body i k s.data = (e, d) from hb] at hbody
    exact hbody.trans hs

/-- A thread in a call that withdraws a start, before it has set the stop event. -/
def beforeSet : Place Point Section → Bool
  | .at (.stopGate _) | .at (.stopHalt _) | .at (.stopEvent _) => true
  | .want (.markError _) | .inside (.markError _) => true
  | .at (.markGate _) | .at (.markHalt _) | .at (.markStop _) => true
  | _ => false

/-- `mark_error` after its block and before it has set the stop event. -/
def marking : Place Point Section → Bool
  | .at (.markGate _) | .at (.markHalt _) | .at (.markStop _) => true
  | _ => false

/-- `_fail` of a streaming thread, likewise. -/
def failing (g : Nat) : Place Point Section → Bool
  | .at (.loop h .failGate) | .at (.loop h .failHalt) | .at (.loop h .failStop) => h == g
  | _ => false

/-- A streaming thread after `_is_current` answered yes and before the block that records RUNNING. -/
def admitted (g : Nat) : Place Point Section → Bool
  | .want (.loop h .announce) | .inside (.loop h .announce) => h == g
  | _ => false

/-- What a step does to the spans in which a thread is on its way to the stop event or away from it. -/
structure Spans (pl : Place Point Section) (w : World) (pl' : Place Point Section) (w' : World) : Prop where
  unset : beforeSet pl = true → beforeSet pl' = true ∨ w'.session.stopEvent = true
  marked : marking pl = true → marking pl' = true ∨ w'.session.stopEvent = true
  failed : ∀ g, failing g pl = true → failing g pl' = true ∨ w'.session.stopEvent = true
  marks : ∀ m, pl = .inside (.markError m) → marking pl' = true
  fails : ∀ m, pl = .inside (.loop w.session.generation (.fail m)) → failing w.session.generation pl' = true
  passed : ∀ g, admitted g pl' = true → admitted g pl = true ∨
    pl = .inside (.loop g (.current .connected)) ∧ w.session.isCurrent g = true

theorem loopPoint_spans {g : Nat} {p : LoopPoint} {c : Choice} {w w' : World} {n : Next Point Section}
    (h : loopPoint g p c w = some (n, w')) : Spans (.at (.loop g p)) w n.place w' := by
  revert h
  fun_cases loopPoint g p c w <;> intro h <;> cases h <;>
    constructor <;> simp [beforeSet, marking, failing, admitted, Next.place]

theorem point_spans {i : Nat} {p : Point} {c : Choice} {w w' : World} {n : Next Point Section}
    (h : point i p c w = some (n, w')) : Spans (.at p) w n.place w' := by
  revert h
  fun_cases point i p c w <;> intro h
  case case24 => exact loopPoint_spans h
  all_goals cases h
  case case1.refl r => cases r <;> constructor <;> simp [beforeSet, marking, failing, admitted, Next.place, Request.entry]
  all_goals constructor <;> simp [beforeSet, marking, failing, admitted, Next.place]

/-- A block of a streaming thread that records no error. -/
theorem Spans.of_loop {g : Nat} {k : LoopSection} {w w' : World} {pl' : Place Point Section} (hk : ∀ m, k ≠ .fail m)
    (passed : ∀ h, admitted h pl' = true → admitted h (.inside (.loop g k)) = true ∨
      (.inside (.loop g k) : Place Point Section) = .inside (.loop h (.current .connected)) ∧ w.session.isCurrent h = true) :
    Spans (.inside (.loop g k)) w pl' w' where
  unset h := by cases h
  marked h := by cases h
  failed g h := by cases h
  marks m h := by cases h
  fails m h := by
    cases h
    exact absurd rfl (hk m)
  passed := passed

theorem body_spans (i : Nat) (k : Section) (w : World) :
    Spans (.inside k) w (body i k w).1.place (body i k w).2 := by
  fun_cases body i k w
  case case15 g k =>
    cases k with
    | current q =>
      refine .of_loop (by simp) fun h hp => Or.inr ?_
      have hnext : admitted h ((q.next g (w.session.isCurrent g)).place) = true := hp
      cases q <;> cases hc : w.session.isCurrent g <;> simp [hc, Check.next, Next.place, admitted] at hnext
      exact ⟨by rw [hnext], hnext ▸ hc⟩
    | fail m =>
      refine ⟨by simp [beforeSet], by simp [marking], by simp [failing], by simp, fun m' hm => ?_, fun h hp => ?_⟩
      · cases hm
        show failing _ (loopBody w.session.generation (.fail m) w.session).1.place = true
        simp [loopBody, Next.place, failing]
      · simp only [loopBody] at hp
        split at hp <;> simp [Exit.place, Next.place, admitted] at hp
    | announce =>
      refine .of_loop (by simp) fun h hp => ?_
      simp only [loopBody] at hp
      split at hp <;> simp [Exit.place, Next.place, admitted] at hp
    | readInfo =>
      refine .of_loop (by simp) fun h hp => ?_
      simp only [loopBody] at hp
      split at hp <;> simp [Exit.place, Next.place, admitted] at hp
    | disconnect failure =>
      refine .of_loop (by simp) fun h hp => ?_
      cases failure <;> simp [loopBody, Exit.place, Next.place, admitted] at hp
    | _ => exact .of_loop (by simp) fun h hp => by simp [loopBody, Exit.place, Next.place, admitted] at hp
  case case5 r => by_cases hr : r = .reset <;> constructor <;> simp [beforeSet, marking, failing, admitted, Exit.place, Next.place, hr]
  all_goals constructor <;> simp [beforeSet, marking, failing, admitted, Exit.place, Next.place]

section
variable {i : Nat} {pl : Place Point Section} {c : Choice} {s : Guarded World} {r : Place Point Section × Guarded World}

theorem step_spans (h : sessionProgram.threads i pl c s = some r) : Spans pl s.data r.1 r.2.data := by
  rcases Locking.threads_cases h with ⟨p, n, d, rfl, hp, rfl⟩ | ⟨k, rfl, -, rfl⟩ | ⟨k, e, d, rfl, hb, rfl⟩
  · exact point_spans hp
  · exact ⟨fun hp => Or.inl (by cases k <;> simp_all [beforeSet]), by simp [marking], by simp [failing], by simp, by simp,
      fun g hp => Or.inl (by cases k with | loop h k => cases k <;> simp_all [admitted] | _ => simp [admitted] at hp)⟩
  · have := body_spans i k s.data
    rw [show body i k s.data = (e, d) from hb] at this
    exact this

end

/-! ### The streaming thread of a start -/

/-- The generation of the streaming thread that a thread is, or that it is about to start. -/
def loopOf : Place Point Section → Option Nat
  | .at (.startReady g) | .at (.startStop g) | .at (.startGate g) | .at (.startResume g) | .at (.startSpawn g) => some g
  | .want (.startThread g) | .inside (.startThread g) => some g
  | .at (.loop g _) | .want (.loop g _) | .inside (.loop g _) => some g
  | _ => none

theorem loopOf_admitted {g : Nat} {pl : Place Point Section} (h : admitted g pl = true) : loopOf pl = some g := by
  revert h
  fun_cases admitted g pl <;> simp_all [loopOf]

theorem loopOf_failing {g : Nat} {pl : Place Point Section} (h : failing g pl = true) : loopOf pl = some g := by
  revert h
  fun_cases failing g pl <;> simp_all [loopOf]

/-- What a step does to the streaming threads of the starts: a thread keeps its own, accepts a start, hands the streaming thread of
    one to the system, or is one that the system runs. -/
inductive Keeping (pl : Place Point Section) (w : World) (pl' : Place Point Section) (w' : World) : Prop
  | keeps (own : ∀ g, loopOf pl' = some g → loopOf pl = some g) (spawned : w'.spawned = w.spawned)
  | opens (own : loopOf pl' = some (w.session.generation + 1)) (session : w'.session = w.session.accept)
      (log : w'.log = .accepted (w.session.generation + 1) :: w.log) (spawned : w'.spawned = w.spawned)
  | gives (g : Nat) (own : loopOf pl = some g) (goes : loopOf pl' = none) (spawned : w'.spawned = g :: w.spawned)
  | takes (g : Nat) (mem : g ∈ w.spawned) (own : loopOf pl' = some g) (spawned : w'.spawned = w.spawned.erase g)

theorem loopPoint_loopOf {g : Nat} {p : LoopPoint} {c : Choice} {w w' : World} {n : Next Point Section}
    (h : loopPoint g p c w = some (n, w')) : ∀ h, loopOf n.place = some h → g = h := by
  revert h
  fun_cases loopPoint g p c w <;> intro h <;> cases h <;> simp [Next.place, loopOf]

theorem point_keeping {i : Nat} {p : Point} {c : Choice} {w w' : World} {n : Next Point Section}
    (h : point i p c w = some (n, w')) : Keeping (.at p) w n.place w' := by
  revert h
  fun_cases point i p c w <;> intro h
  case case24 g p =>
    exact .keeps (fun h' hown => by rw [← loopPoint_loopOf h h' hown]; rfl) (loopPoint_keeps h).2.2
  all_goals cases h
  case case1.refl r => exact .keeps (fun g hg => by cases r <;> simp [Request.entry, Next.place, loopOf] at hg) rfl
  case case2.refl g hmem => exact .takes g hmem rfl rfl
  case case9.refl g => exact .gives g rfl rfl rfl
  all_goals exact .keeps (fun g hg => by simp_all [Next.place, loopOf]) rfl

theorem body_keeping (i : Nat) (k : Section) (w : World) :
    Keeping (.inside k) w (body i k w).1.place (body i k w).2 := by
  fun_cases body i k w
  case case15 g k =>
    refine .keeps (fun h hown => ?_) rfl
    have hnext : loopOf (loopBody g k w.session).1.place = some h := hown
    revert hnext
    fun_cases loopBody g k w.session
    case case2 q => cases q <;> simp only [Check.next] <;> split <;> simp [Next.place, loopOf]
    all_goals simp [Next.place, loopOf]
  case case3 => exact .opens rfl rfl rfl rfl
  case case5 r => exact .keeps (fun g hg => by by_cases hr : r = .reset <;> simp [Exit.place, Next.place, loopOf, hr] at hg) rfl
  all_goals exact .keeps (fun g hg => by simp_all [Exit.place, Next.place, loopOf]) rfl

theorem step_keeping {i : Nat} {pl : Place Point Section} {c : Choice} {s : Guarded World} {r : Place Point Section × Guarded World}
    (h : sessionProgram.threads i pl c s = some r) : Keeping pl s.data r.1 r.2.data := by
  rcases Locking.threads_cases h with ⟨p, n, d, rfl, hp, rfl⟩ | ⟨k, rfl, -, rfl⟩ | ⟨k, e, d, rfl, hb, rfl⟩
  · exact point_keeping hp
  · exact .keeps (fun g hg => by cases k <;> simp_all [loopOf]) rfl
  · have := body_keeping i k s.data
    rw [show body i k s.data = (e, d) from hb] at this
    exact this

/-- A streaming thread between its first statement and its end. -/
def looping : Place Point Section → Bool
  | .at (.loop _ _) | .want (.loop _ _) | .inside (.loop _ _) => true
  | _ => false

theorem point_looping {i : Nat} {p : Point} {c : Choice} {w w' : World} {n : Next Point Section}
    (h : point i p c w = some (n, w')) (hl : looping n.place = true) : looping (.at p) = true ∨ (p = .idle ∧ ∃ g, c = .run g) := by
  revert h
  fun_cases point i p c w <;> intro h
  case case24 => exact .inl rfl
  all_goals cases h
  case case1.refl r => cases r <;> cases hl
  case case2.refl g _ => exact .inr ⟨rfl, g, rfl⟩
  all_goals cases hl

theorem body_looping {i : Nat} {k : Section} {w : World} (hl : looping (body i k w).1.place = true) : looping (.inside k) = true := by
  revert hl
  fun_cases body i k w
  case case15 => exact fun _ => rfl
  case case5 r => by_cases hr : r = .reset <;> simp [Exit.place, Next.place, looping, hr]
  all_goals simp [Exit.place, Next.place, looping]

theorem looping_step {i : Nat} {pl : Place Point Section} {c : Choice} {s : Guarded World} {r : Place Point Section × Guarded World}
    (h : sessionProgram.threads i pl c s = some r) (hl : looping r.1 = true) :
    looping pl = true ∨ (pl = .at .idle ∧ ∃ g, c = .run g) := by
  rcases Locking.threads_cases h with ⟨p, n, d, rfl, hp, rfl⟩ | ⟨k, rfl, -, rfl⟩ | ⟨k, e, d, rfl, hb, rfl⟩
  · rcases point_looping hp hl with hloop | ⟨rfl, hrun⟩
    · exact .inl hloop
    · exact .inr ⟨rfl, hrun⟩
  · exact .inl (by cases k <;> exact hl)
  · refine .inl (body_looping (i := i) (w := s.data) ?_)
    rw [show body i k s.data = (e, d) from hb]
    exact hl

end HumanoidLab
