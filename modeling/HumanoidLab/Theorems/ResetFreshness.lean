import HumanoidLab.Bridge.Monitor
import HumanoidLab.Theorems.CameraEpisodes
import HumanoidLab.Theorems.SessionSteps
import Mathlib.Data.Nat.Basic
import Mathlib.Order.Basic

/-! The freshness of what a session streams after a reset. The reset is only queued when the cache is dropped, and
    what was captured before may still be under way then. What a later start streams is of the new episode when
    nothing older is cached after a reset returns; so it is when the reset was applied and nothing older was under
    way as the cache was dropped. -/

namespace HumanoidLab
open Concurrency

variable {n : Nat} {b b' : Observatory}

/-! ### What is under way and what is cached -/

/-- What the monitor thread has in hand was captured in episode `n` or later. -/
def MonitorPlace.Since (n : Nat) : MonitorPlace → Prop
  | .polled _ s => n ≤ s
  | .fetched f => n ≤ f.episode
  | _ => True

def Reading.Since (n : Nat) : Reading → Prop
  | .state s => n ≤ s
  | .observation s f => n ≤ s ∧ n ≤ f.episode

/-- The frame that an endpoint is about to answer. -/
def SimPlace.answering : SimPlace Nat → Option (FrameSnapshot Nat)
  | .reply f => some f
  | _ => none

/-- What the streaming threads have read was captured in episode `n` or later. -/
def ReadSince (n : Nat) (b : Observatory) : Prop :=
  ∀ e ∈ b.readings, looping (b.session.threads e.1) = true → e.2.Since n

/-- The simulator has begun episode `n`, and nothing that was captured before is under way: in the camera's buffer or
    its answer, on the topic, in the socket, or in the hands of the monitor. -/
structure Passed (n : Nat) (b : Observatory) : Prop where
  episode : n ≤ b.sim.shared.episodeId
  camera : ∀ f ∈ b.sim.shared.camera.snapshot, n ≤ f.episode
  answer : ∀ f ∈ (b.sim.threads 1).answering, n ≤ f.episode
  wire : ∀ s ∈ b.wire, n ≤ s
  socket : ∀ s ∈ b.socket, n ≤ s
  place : b.monitor.place.Since n

/-- Neither the cache nor a streaming thread holds anything that was captured before episode `n`. -/
structure Cached (n : Nat) (b : Observatory) : Prop where
  state : ∀ s ∈ b.monitor.state, n ≤ s
  frame : ∀ f ∈ b.monitor.frame, n ≤ f.episode
  readings : ReadSince n b

/-- Nothing that was captured before episode `n` is under way or cached. -/
structure Clean (n : Nat) (b : Observatory) : Prop extends Passed n b, Cached n b

/-- The episode for which a reset was accepted that has yet to drop the cache. -/
def ResetProgress.awaits : ResetProgress → Option Nat
  | .accepted due => some due
  | _ => .none

/-- The episode for which a reset was accepted that has dropped the cache and has yet to return. -/
def ResetProgress.settles : ResetProgress → Option Nat
  | .dropped due => some due
  | _ => .none

/-- A thread of the session is about to drop the cache. -/
def dropping : Place Point Section → Bool
  | .at (.resetInvalidate _) => true
  | _ => false

/-- A thread of the session is in the block with which its reset ends. -/
def clearing : Place Point Section → Bool
  | .inside (.resetClear _) => true
  | _ => false

/-- The guard on the step that drops the cache: the reset that was accepted is applied, and all that was captured
    before it has passed. -/
def Drained (b : Observatory) : ObservatoryInput → Prop
  | .session i .go => ∀ due ∈ (b.progress i).awaits, dropping (b.session.threads i) = true → Passed due b ∧ ReadSince due b
  | _ => True

/-- The guard on what is cached: nothing older than a reset that returns, nor, from then on, than the resets that
    returned. -/
def CachesFresh (b : Observatory) : ObservatoryInput → Prop
  | .session i _ => ∀ due ∈ (b.progress i).settles, clearing (b.session.threads i) = true → Cached due b
  | .monitor true => b.monitor.place.Since b.settled
  | _ => True

/-! ### What a step of the session leaves -/

theorem effect_frame {i : Nat} {pl : Place Point Section} {c : Choice} (hs : b.effect i pl c = some b') :
    b'.session = b.session ∧ b'.sim = b.sim ∧ b'.wire = b.wire ∧ b'.socket = b.socket ∧
    b'.monitor.place = b.monitor.place := by
  unfold Observatory.effect at hs
  split at hs
  · cases hs
    exact ⟨rfl, rfl, rfl, rfl, rfl⟩
  · split at hs <;> cases hs
    exact ⟨rfl, rfl, rfl, rfl, rfl⟩
  · split at hs
    · split at hs <;> cases hs
      exact ⟨rfl, rfl, rfl, rfl, rfl⟩
    · cases hs
  · split at hs <;> cases hs
    exact ⟨rfl, rfl, rfl, rfl, rfl⟩
  · cases hs
    exact ⟨rfl, rfl, rfl, rfl, rfl⟩
  · dsimp only at hs
    split at hs <;> cases hs <;> exact ⟨rfl, rfl, rfl, rfl, rfl⟩
  · split at hs <;> cases hs <;> exact ⟨rfl, rfl, rfl, rfl, rfl⟩
  · cases hs
    exact ⟨rfl, rfl, rfl, rfl, rfl⟩

/-! ### What passes stays so -/

theorem next_since (again : Bool) : (MonitorPlace.next again).Since n := by
  cases again <;> trivial

theorem Passed.captured (h : Passed n b) (i : Nat) : Passed n (b.captured i (b.sim.threads i)) := by
  unfold Observatory.captured
  split
  · refine { h with wire := fun s hs => ?_ }
    rcases List.mem_append.mp hs with hs | hs
    · exact h.wire s hs
    · cases List.mem_singleton.mp hs
      exact h.episode
  · rename_i f hpl
    split
    · rename_i hi
      obtain ⟨rfl, -⟩ := hi
      exact { h with place := h.answer f (by rw [hpl]; rfl) }
    · exact h
  · exact { h with }
  · exact h

theorem Passed.simStep {i : Nat} {c : SimChoice Nat} (h : Passed n b) (hs : b.simStep i c = some b') : Passed n b' := by
  obtain ⟨p, hp, rfl⟩ := Option.map_eq_some_iff.mp hs
  obtain ⟨⟨pl', w'⟩, hr, rfl⟩ := Threads.step_eq_some.mp hp
  have hmoves := sim_moves hr
  have hc := h.captured i
  refine { hc with episode := Nat.le_trans h.episode hmoves.episode, camera := fun f hf => ?_, answer := fun f hf => ?_ }
  · rcases hmoves.snapshot hf with hf | hf
    · exact h.camera f hf
    · exact hf ▸ h.episode
  · by_cases hi : 1 = i
    · subst hi
      rw [Pool.set_self] at hf
      cases pl' with
      | reply f' =>
        cases hf
        exact h.camera f hmoves.to_reply.1
      | _ => cases hf
    · rw [Pool.set_other _ _ hi] at hf
      exact h.answer f hf

theorem Passed.monitorStep {ok : Bool} (h : Passed n b) (hs : b.monitorStep ok = some b') : Passed n b' := by
  unfold Observatory.monitorStep at hs
  split at hs
  · obtain ⟨s, hsock, rfl⟩ := Option.map_eq_some_iff.mp hs
    exact { h with socket := nofun, place := h.socket s hsock }
  · cases hs
    exact { h with socket := nofun, place := next_since _ }
  · cases hs
    exact { h with place := next_since _ }
  · cases hs
    exact { h with place := next_since _ }
  · obtain ⟨b₁, hb₁, rfl⟩ := Option.map_eq_some_iff.mp hs
    exact { h.simStep hb₁ with place := trivial }
  · cases hs
  all_goals
    cases hs
    exact { h with place := trivial }

theorem Passed.step {a : ObservatoryInput} (h : Passed n b) (hs : b.step a = some b') : Passed n b' := by
  cases a with
  | session i c =>
    obtain ⟨p, -, hs⟩ := Option.bind_eq_some_iff.mp hs
    obtain ⟨b₁, hb₁, rfl⟩ := Option.map_eq_some_iff.mp hs
    obtain ⟨-, hsim, hwire, hsocket, hplace⟩ := effect_frame hb₁
    exact ⟨hsim ▸ h.episode, hsim ▸ h.camera, hsim ▸ h.answer, hwire ▸ h.wire, hsocket ▸ h.socket, hplace ▸ h.place⟩
  | ask i =>
    simp only [Observatory.step, Observatory.askReset] at hs
    split at hs
    · obtain ⟨b₁, hb₁, rfl⟩ := Option.map_eq_some_iff.mp hs
      exact { h.simStep hb₁ with }
    · cases hs
  | read i =>
    simp only [Observatory.step, Observatory.readState] at hs
    split at hs
    · obtain ⟨s, -, rfl⟩ := Option.map_eq_some_iff.mp hs
      exact { h with }
    · obtain ⟨s, -, rfl⟩ := Option.map_eq_some_iff.mp hs
      exact { h with }
    · cases hs
  | send i =>
    simp only [Observatory.step, Observatory.sendObservation] at hs
    split at hs
    · cases hs
      exact { h with }
    · cases hs
  | sim i c =>
    cases c with
    | call r =>
      simp only [Observatory.step] at hs
      split at hs
      · exact h.simStep hs
      · cases hs
    | _ => exact h.simStep hs
  | publish k =>
    obtain ⟨s, hk, rfl⟩ := Option.map_eq_some_iff.mp hs
    refine { h with socket := fun s' hs' => ?_ }
    cases hs'
    exact h.wire s (List.mem_of_getElem? hk)
  | forget k =>
    cases hs
    exact { h with wire := fun s hs => h.wire s (List.mem_of_mem_eraseIdx hs) }
  | monitor ok => exact h.monitorStep hs

/-! ### What is cached -/

theorem drop_readings {i : Nat} {e : Nat × Reading} (h : e ∈ (b.drop i).readings) : e ∈ b.readings := (List.mem_filter.mp h).1

theorem Cached.drop (h : Cached n b) (i : Nat) : Cached n (b.drop i) :=
  { h with readings := fun e he => h.readings e (drop_readings he) }

theorem Cached.hold (h : Cached n b) (i : Nat) {r : Reading} (hr : r.Since n) : Cached n (b.hold i r) := by
  refine { h with readings := fun e he hl => ?_ }
  rcases List.mem_cons.mp he with rfl | he
  · exact hr
  · exact h.readings e (drop_readings he) hl

theorem Cached.reading {i : Nat} {r : Reading} (h : Cached n b) (hl : looping (b.session.threads i) = true)
    (hr : b.reading i = some r) : r.Since n := by
  obtain ⟨l₁, l₂, hmem, -⟩ := List.lookup_eq_some_iff.mp hr
  exact h.readings (i, r) (hmem ▸ List.mem_append_right _ List.mem_cons_self) hl

theorem Cached.invalidate (h : ReadSince n b) : Cached n { b with monitor := b.monitor.invalidate } :=
  ⟨nofun, nofun, h⟩

theorem Cached.effect {i : Nat} {c : Choice} (h : Cached n b) (hs : b.effect i (b.session.threads i) c = some b') :
    Cached n b' := by
  unfold Observatory.effect at hs
  split at hs
  · cases hs
    exact h.drop i
  · split at hs <;> cases hs
    exact h.drop i
  · rename_i hpl
    split at hs
    · rename_i hr hf
      split at hs <;> cases hs
      exact h.hold i ⟨h.reading (by rw [hpl]; rfl) hr, h.frame _ hf⟩
    · cases hs
  · split at hs <;> cases hs
    exact h
  · cases hs
    exact { h with }
  · dsimp only at hs
    split at hs <;> cases hs
    · exact { Cached.invalidate h.readings with }
    · exact Cached.invalidate h.readings
  · split at hs <;> cases hs
    · exact { h with }
    · exact h
  · cases hs
    exact h

/-- A thread that comes to its loop has dropped what it read before. -/
theorem Cached.turn {i : Nat} {c : Choice} {b₁ : Observatory} {p : Pool (Guarded World) (Place Point Section)} (k : Nat)
    (h : Cached n b₁) (hp : sessionMachine.step b.session (i, c) = some p)
    (hb₁ : b.effect i (b.session.threads i) c = some b₁) : Cached n { b₁ with session := p, required := k } := by
  obtain ⟨r, hr, rfl⟩ := Threads.step_eq_some.mp hp
  refine { h with readings := fun e he hl => ?_ }
  have hsession := (effect_frame hb₁).1
  by_cases hei : e.1 = i
  · subst hei
    rw [Pool.set_self] at hl
    rcases looping_step hr hl with hpl | ⟨hidle, g, rfl⟩
    · exact h.readings e he (by rw [hsession]; exact hpl)
    · rw [hidle] at hb₁
      cases hb₁
      exact absurd rfl (of_decide_eq_true (List.mem_filter.mp he).2)
  · rw [Pool.set_other _ _ hei] at hl
    exact h.readings e he (by rw [hsession]; exact hl)

theorem Cached.captured (h : Cached n b) (i : Nat) (pl : SimPlace Nat) : Cached n (b.captured i pl) := by
  unfold Observatory.captured
  split
  · exact { h with }
  · split
    · exact { h with }
    · exact h
  · exact { h with }
  · exact h

theorem Cached.simStep {i : Nat} {c : SimChoice Nat} (h : Cached n b) (hs : b.simStep i c = some b') : Cached n b' := by
  obtain ⟨p, -, rfl⟩ := Option.map_eq_some_iff.mp hs
  exact { h.captured i (b.sim.threads i) with }

theorem Cached.monitorStep {ok : Bool} (h : Cached n b) (hm : ok = true → b.monitor.place.Since n)
    (hs : b.monitorStep ok = some b') : Cached n b' := by
  unfold Observatory.monitorStep at hs
  split at hs
  · obtain ⟨s, -, rfl⟩ := Option.map_eq_some_iff.mp hs
    exact { h with }
  · cases hs
    exact { h with }
  · rename_i hpl
    cases hs
    have hs := hm rfl
    rw [hpl] at hs
    refine { h with state := fun s hs' => ?_ }
    cases hs'
    exact hs
  · cases hs
    exact { h with }
  · obtain ⟨b₁, hb₁, rfl⟩ := Option.map_eq_some_iff.mp hs
    exact { h.simStep hb₁ with }
  · cases hs
  · rename_i hpl
    cases hs
    have hf := hm rfl
    rw [hpl] at hf
    refine { h with frame := fun f hf' => ?_ }
    cases hf'
    exact hf
  all_goals
    cases hs
    exact { h with }

theorem Cached.step {a : ObservatoryInput} (h : Cached n b) (hs : b.step a = some b')
    (hm : a = .monitor true → b.monitor.place.Since n) : Cached n b' := by
  cases a with
  | session i c =>
    obtain ⟨p, hp, hs⟩ := Option.bind_eq_some_iff.mp hs
    obtain ⟨b₁, hb₁, rfl⟩ := Option.map_eq_some_iff.mp hs
    exact (h.effect hb₁).turn _ hp hb₁
  | ask i =>
    simp only [Observatory.step, Observatory.askReset] at hs
    split at hs
    · obtain ⟨b₁, hb₁, rfl⟩ := Option.map_eq_some_iff.mp hs
      exact { h.simStep hb₁ with }
    · cases hs
  | read i =>
    simp only [Observatory.step, Observatory.readState] at hs
    split at hs
    · obtain ⟨s, hstate, rfl⟩ := Option.map_eq_some_iff.mp hs
      exact h.hold i (h.state s hstate)
    · obtain ⟨s, hstate, rfl⟩ := Option.map_eq_some_iff.mp hs
      exact h.hold i (h.state s hstate)
    · cases hs
  | send i =>
    simp only [Observatory.step, Observatory.sendObservation] at hs
    split at hs
    · cases hs
      exact { h.drop i with }
    · cases hs
  | sim i c =>
    cases c with
    | call r =>
      simp only [Observatory.step] at hs
      split at hs
      · exact h.simStep hs
      · cases hs
    | _ => exact h.simStep hs
  | publish k =>
    obtain ⟨s, -, rfl⟩ := Option.map_eq_some_iff.mp hs
    exact { h with }
  | forget k =>
    cases hs
    exact { h with }
  | monitor ok => exact h.monitorStep (fun hok => hm (hok ▸ rfl)) hs

theorem Clean.step {a : ObservatoryInput} (h : Clean n b) (hs : b.step a = some b') : Clean n b' :=
  { h.toPassed.step hs, h.toCached.step hs fun _ => h.place with }

/-! ### Every run -/

/-- What a step that is no step of the session leaves. -/
structure Keeps (b b' : Observatory) : Prop where
  settled : b'.settled = b.settled
  required : b'.required = b.required
  streamed : b'.streamed = b.streamed
  dropped : ∀ i due, b'.progress i = .dropped due → b.progress i = .dropped due

theorem Keeps.of_progress (h₁ : b'.settled = b.settled) (h₂ : b'.required = b.required) (h₃ : b'.streamed = b.streamed)
    (h₄ : b'.progress = b.progress) : Keeps b b' :=
  ⟨h₁, h₂, h₃, fun _ _ hj => h₄ ▸ hj⟩

theorem Keeps.trans {b₁ : Observatory} (h : Keeps b b₁) (h' : Keeps b₁ b') : Keeps b b' :=
  ⟨h'.settled.trans h.settled, h'.required.trans h.required, h'.streamed.trans h.streamed,
    fun i due hi => h.dropped i due (h'.dropped i due hi)⟩

theorem captured_keeps (i : Nat) (pl : SimPlace Nat) : Keeps b (b.captured i pl) := by
  unfold Observatory.captured
  split
  · exact .of_progress rfl rfl rfl rfl
  · split <;> exact .of_progress rfl rfl rfl rfl
  · refine ⟨rfl, rfl, rfl, fun j due hj => ?_⟩
    dsimp only at hj
    split at hj
    · cases hj
    · exact hj
  · exact .of_progress rfl rfl rfl rfl

theorem simStep_keeps {i : Nat} {c : SimChoice Nat} (hs : b.simStep i c = some b') : Keeps b b' := by
  obtain ⟨p, -, rfl⟩ := Option.map_eq_some_iff.mp hs
  exact (captured_keeps i (b.sim.threads i)).trans (.of_progress rfl rfl rfl rfl)

theorem monitorStep_keeps {ok : Bool} (hs : b.monitorStep ok = some b') : Keeps b b' := by
  unfold Observatory.monitorStep at hs
  split at hs
  · obtain ⟨s, -, rfl⟩ := Option.map_eq_some_iff.mp hs
    exact .of_progress rfl rfl rfl rfl
  · cases hs
    exact .of_progress rfl rfl rfl rfl
  · cases hs
    exact .of_progress rfl rfl rfl rfl
  · cases hs
    exact .of_progress rfl rfl rfl rfl
  · obtain ⟨b₁, hb₁, rfl⟩ := Option.map_eq_some_iff.mp hs
    exact (simStep_keeps hb₁).trans (.of_progress rfl rfl rfl rfl)
  · cases hs
  all_goals
    cases hs
    exact .of_progress rfl rfl rfl rfl

theorem advance_keeps {i : Nat} {p : ResetProgress} (hp : ∀ due, p ≠ .dropped due) : Keeps b (b.advance i p) := by
  refine ⟨rfl, rfl, rfl, fun j due hj => ?_⟩
  by_cases hji : j = i
  · subst hji
    simp only [Observatory.advance, Function.update_self] at hj
    exact absurd hj (hp due)
  · simpa only [Observatory.advance, Function.update_of_ne hji] using hj

/-- What a step of a session's thread does to a reset: it leaves it, drops the cache for it, or returns from it. -/
inductive ResetEffect (b : Observatory) (i : Nat) (pl : Place Point Section) (c : Choice) (b' : Observatory) : Prop
  | keeps : Keeps b b' → ResetEffect b i pl c b'
  | drops (due : Nat) : b.progress i = .accepted due → dropping pl = true → c = .go →
      b' = { b with monitor := b.monitor.invalidate }.advance i (.dropped due) → ResetEffect b i pl c b'
  | returns (due : Nat) : b.progress i = .dropped due → clearing pl = true →
      b' = { b.advance i .none with settled := max b.settled due } → ResetEffect b i pl c b'

theorem effect_reset {i : Nat} {pl : Place Point Section} {c : Choice} (hs : b.effect i pl c = some b') :
    ResetEffect b i pl c b' := by
  unfold Observatory.effect at hs
  split at hs
  · cases hs
    exact .keeps (.of_progress rfl rfl rfl rfl)
  · split at hs <;> cases hs
    exact .keeps (.of_progress rfl rfl rfl rfl)
  · split at hs
    · split at hs <;> cases hs
      exact .keeps (.of_progress rfl rfl rfl rfl)
    · cases hs
  · split at hs <;> cases hs
    exact .keeps (.of_progress rfl rfl rfl rfl)
  · cases hs
    exact .keeps (advance_keeps nofun)
  · dsimp only at hs
    split at hs
    · rename_i due hacc
      cases hs
      exact .drops due hacc rfl rfl rfl
    · cases hs
      exact .keeps (.of_progress rfl rfl rfl rfl)
  · split at hs
    · rename_i due hdrop
      cases hs
      exact .returns due hdrop rfl rfl
    · cases hs
      exact .keeps (.of_progress rfl rfl rfl rfl)
  · cases hs
    exact .keeps (.of_progress rfl rfl rfl rfl)

/-- Only the session and the stream touch what is recorded of the resets and of the stream. -/
theorem step_keeps {a : ObservatoryInput} (hs : b.step a = some b') (hsession : ∀ i c, a ≠ .session i c) (hsend : ∀ i, a ≠ .send i) :
    Keeps b b' := by
  cases a with
  | session i c => exact absurd rfl (hsession i c)
  | send i => exact absurd rfl (hsend i)
  | ask i =>
    simp only [Observatory.step, Observatory.askReset] at hs
    split at hs
    · obtain ⟨b₁, hb₁, rfl⟩ := Option.map_eq_some_iff.mp hs
      exact (simStep_keeps hb₁).trans (advance_keeps nofun)
    · cases hs
  | read i =>
    simp only [Observatory.step, Observatory.readState] at hs
    split at hs
    · obtain ⟨s, -, rfl⟩ := Option.map_eq_some_iff.mp hs
      exact Keeps.of_progress rfl rfl rfl rfl
    · obtain ⟨s, -, rfl⟩ := Option.map_eq_some_iff.mp hs
      exact Keeps.of_progress rfl rfl rfl rfl
    · cases hs
  | sim i c =>
    cases c with
    | call r =>
      simp only [Observatory.step] at hs
      split at hs
      · exact simStep_keeps hs
      · cases hs
    | _ => exact simStep_keeps hs
  | publish k =>
    obtain ⟨s, -, rfl⟩ := Option.map_eq_some_iff.mp hs
    exact Keeps.of_progress rfl rfl rfl rfl
  | forget k =>
    cases hs
    exact Keeps.of_progress rfl rfl rfl rfl
  | monitor ok => exact monitorStep_keeps hs

/-- What a send leaves, and what it streams. -/
theorem send_streams {i : Nat} (hs : b.step (.send i) = some b') : ∃ s f, b.reading i = some (.observation s f) ∧
    looping (b.session.threads i) = true ∧ b' = { b.drop i with streamed := ⟨s, f, b.required⟩ :: b.streamed } := by
  simp only [Observatory.step, Observatory.sendObservation] at hs
  split at hs
  · rename_i hpl hr
    cases hs
    exact ⟨_, _, hr, by rw [hpl]; rfl, rfl⟩
  · cases hs

/-! ### What is cached after the resets that returned -/

/-- Nothing older than the resets that returned is cached, and what was streamed was captured after the resets that
    returned before the start. -/
structure Held (b : Observatory) : Prop where
  cached : Cached b.settled b
  required : b.required ≤ b.settled
  streamed : ∀ x ∈ b.streamed, x.required ≤ x.state ∧ x.required ≤ x.frame.episode

theorem Held.keeps {a : ObservatoryInput} (h : Held b) (hs : b.step a = some b') (hk : Keeps b b')
    (hm : a = .monitor true → b.monitor.place.Since b.settled) : Held b' := by
  refine ⟨hk.settled ▸ h.cached.step hs hm, ?_, ?_⟩
  · rw [hk.required, hk.settled]
    exact h.required
  · rw [hk.streamed]
    exact h.streamed

theorem Held.send {i : Nat} (h : Held b) (hs : b.step (.send i) = some b') : Held b' := by
  have hcached := h.cached.step hs nofun
  obtain ⟨s, f, hr, hl, rfl⟩ := send_streams hs
  obtain ⟨hstate, hframe⟩ := h.cached.reading hl hr
  refine ⟨hcached, h.required, fun x hx => ?_⟩
  rcases List.mem_cons.mp hx with rfl | hx
  · exact ⟨Nat.le_trans h.required hstate, Nat.le_trans h.required hframe⟩
  · exact h.streamed x hx

theorem Held.session {i : Nat} {c : Choice} (h : Held b) (hg : CachesFresh b (.session i c))
    (hs : b.step (.session i c) = some b') : Held b' := by
  have hcached := fun {n} (hn : Cached n b) => hn.step hs nofun
  obtain ⟨p, hp, hs⟩ := Option.bind_eq_some_iff.mp hs
  obtain ⟨b₁, hb₁, rfl⟩ := Option.map_eq_some_iff.mp hs
  -- A start that is accepted requires the resets that returned, and no more.
  have hrequired : b₁.required ≤ b₁.settled → (if starts (p.threads i) then b₁.settled else b₁.required) ≤ b₁.settled := by
    intro hle
    split
    · exact Nat.le_refl _
    · exact hle
  cases effect_reset hb₁ with
  | keeps hk =>
    refine ⟨hcached (hk.settled ▸ h.cached), hrequired ?_, ?_⟩
    · rw [hk.required, hk.settled]
      exact h.required
    · rw [hk.streamed]
      exact h.streamed
  | drops due hacc hpl hc hb₁ =>
    subst hb₁
    exact ⟨hcached h.cached, hrequired h.required, h.streamed⟩
  | returns due hdrop hpl hb₁ =>
    subst hb₁
    have hdue : Cached due b := hg due (by rw [hdrop]; rfl) hpl
    exact ⟨hcached (max_rec' (Cached · b) h.cached hdue), hrequired (Nat.le_trans h.required (Nat.le_max_left _ _)), h.streamed⟩

theorem Held.step {a : ObservatoryInput} (h : Held b) (hg : CachesFresh b a) (hs : b.step a = some b') : Held b' := by
  cases a with
  | session i c => exact h.session hg hs
  | send i => exact h.send hs
  | monitor ok =>
    refine h.keeps hs (step_keeps hs nofun nofun) fun hok => ?_
    cases hok
    exact hg
  | _ => exact h.keeps hs (step_keeps hs nofun nofun) nofun

theorem held_reach {r : Observatory} (hr : observatoryMachine.Reach CachesFresh r) : Held r := by
  refine hr.invariant (fun b hb => ?_) fun b a b' _ h hg hs => h.step hg hs
  subst hb
  exact ⟨⟨nofun, nofun, nofun⟩, Nat.le_refl _, nofun⟩

/-! ### What has passed as the cache was dropped -/

/-- Nothing older than the resets that returned is under way or cached, nor older than a reset that has dropped the
    cache. -/
structure Fresh (b : Observatory) : Prop where
  settled : Clean b.settled b
  dropped : ∀ i due, b.progress i = .dropped due → Clean due b

theorem Fresh.keeps {a : ObservatoryInput} (h : Fresh b) (hs : b.step a = some b') (hk : Keeps b b') : Fresh b' :=
  ⟨hk.settled ▸ h.settled.step hs, fun i due hi => (h.dropped i due (hk.dropped i due hi)).step hs⟩

theorem Fresh.send {i : Nat} (h : Fresh b) (hs : b.step (.send i) = some b') : Fresh b' := by
  have hclean := fun {n} (hn : Clean n b) => hn.step hs
  obtain ⟨s, f, -, -, rfl⟩ := send_streams hs
  exact ⟨hclean h.settled, fun i due hi => hclean (h.dropped i due hi)⟩

theorem Fresh.session {i : Nat} {c : Choice} (h : Fresh b) (hg : Drained b (.session i c))
    (hs : b.step (.session i c) = some b') : Fresh b' := by
  have hclean := fun {n} (hn : Clean n b) => hn.step hs
  have hpassed := fun {n} (hn : Passed n b) => hn.step hs
  obtain ⟨p, hp, hs⟩ := Option.bind_eq_some_iff.mp hs
  obtain ⟨b₁, hb₁, rfl⟩ := Option.map_eq_some_iff.mp hs
  cases effect_reset hb₁ with
  | keeps hk =>
    exact ⟨hclean (hk.settled ▸ h.settled), fun j due hj => hclean (h.dropped j due (hk.dropped j due hj))⟩
  | drops due hacc hpl hc heq =>
    subst hc
    obtain ⟨hdue, hread⟩ := hg due (by rw [hacc]; rfl) hpl
    have hcached : Cached due b₁ := by
      rw [heq]
      exact { Cached.invalidate hread with }
    have hdrop := hcached.turn (if starts (p.threads i) then b₁.settled else b₁.required) hp hb₁
    subst heq
    refine ⟨hclean h.settled, fun j due' hj => ?_⟩
    by_cases hji : j = i
    · subst hji
      simp only [Observatory.advance, Function.update_self, ResetProgress.dropped.injEq] at hj
      subst hj
      exact { hpassed hdue, hdrop with }
    · simp only [Observatory.advance, Function.update_of_ne hji] at hj
      exact hclean (h.dropped j due' hj)
  | returns due hdrop hpl heq =>
    subst heq
    have hk : Keeps b (b.advance i .none) := advance_keeps nofun
    exact ⟨hclean (max_rec' (Clean · b) h.settled (h.dropped i due hdrop)), fun j due' hj => hclean (h.dropped j due' (hk.dropped j due' hj))⟩

theorem Fresh.step {a : ObservatoryInput} (h : Fresh b) (hg : Drained b a) (hs : b.step a = some b') : Fresh b' := by
  cases a with
  | session i c => exact h.session hg hs
  | send i => exact h.send hs
  | _ => exact h.keeps hs (step_keeps hs nofun nofun)

theorem Fresh.caches (h : Fresh b) (a : ObservatoryInput) : CachesFresh b a := by
  cases a with
  | session i c =>
    intro due hdue _
    cases hp : b.progress i with
    | dropped due' =>
      rw [hp] at hdue
      cases hdue
      exact (h.dropped i due hp).toCached
    | _ =>
      rw [hp] at hdue
      cases hdue
  | monitor ok =>
    cases ok with
    | true => exact h.settled.place
    | false => trivial
  | _ => trivial

/-- Where all that was captured before has passed as the cache is dropped, nothing older is cached. -/
theorem drained_caches {r : Observatory} (hr : observatoryMachine.Reach Drained r) :
    Fresh r ∧ observatoryMachine.Reach CachesFresh r := by
  refine hr.invariant (I := fun b => Fresh b ∧ observatoryMachine.Reach CachesFresh b) (fun b hb => ⟨?_, .init hb⟩)
    fun b a b' _ h hg hs => ⟨h.1.step hg hs, h.2.step (h.1.caches a) hs⟩
  subst hb
  exact ⟨⟨⟨Nat.zero_le _, nofun, nofun, nofun, nofun, trivial⟩, ⟨nofun, nofun, nofun⟩⟩, nofun⟩

/-- In every run in which nothing older than a reset is cached from its return on, each observation that is streamed
    was captured after the resets that returned before the last start; so it is in every run in which each reset
    drops the cache once it was applied and all that was captured before has passed. -/
theorem reset_freshness {r : Observatory} :
    (observatoryMachine.Reach CachesFresh r → ∀ x ∈ r.streamed, x.required ≤ x.state ∧ x.required ≤ x.frame.episode) ∧
    (observatoryMachine.Reach Drained r → ∀ x ∈ r.streamed, x.required ≤ x.state ∧ x.required ≤ x.frame.episode) :=
  ⟨fun hr => (held_reach hr).streamed, fun hr => (held_reach (drained_caches hr).2).streamed⟩

/-! ### A reset that is still queued -/

instance (n : Nat) : ∀ p : MonitorPlace, Decidable (p.Since n)
  | .polled _ s => inferInstanceAs (Decidable (n ≤ s))
  | .fetched f => inferInstanceAs (Decidable (n ≤ f.episode))
  | .poll _ | .fetch | .asked => .isTrue trivial

instance (n : Nat) : ∀ r : Reading, Decidable (r.Since n)
  | .state s => inferInstanceAs (Decidable (n ≤ s))
  | .observation s f => inferInstanceAs (Decidable (n ≤ s ∧ n ≤ f.episode))

instance (n : Nat) (b : Observatory) : Decidable (ReadSince n b) :=
  inferInstanceAs (Decidable (∀ e ∈ b.readings, looping (b.session.threads e.1) = true → e.2.Since n))

instance (n : Nat) (b : Observatory) : Decidable (Passed n b) :=
  decidable_of_iff (n ≤ b.sim.shared.episodeId ∧ (∀ f ∈ b.sim.shared.camera.snapshot, n ≤ f.episode) ∧
    (∀ f ∈ (b.sim.threads 1).answering, n ≤ f.episode) ∧ (∀ s ∈ b.wire, n ≤ s) ∧ (∀ s ∈ b.socket, n ≤ s) ∧
    b.monitor.place.Since n)
    ⟨fun ⟨h₁, h₂, h₃, h₄, h₅, h₆⟩ => ⟨h₁, h₂, h₃, h₄, h₅, h₆⟩,
      fun h => ⟨h.episode, h.camera, h.answer, h.wire, h.socket, h.place⟩⟩

instance (n : Nat) (b : Observatory) : Decidable (Cached n b) :=
  decidable_of_iff ((∀ s ∈ b.monitor.state, n ≤ s) ∧ (∀ f ∈ b.monitor.frame, n ≤ f.episode) ∧ ReadSince n b)
    ⟨fun ⟨h₁, h₂, h₃⟩ => ⟨h₁, h₂, h₃⟩, fun h => ⟨h.state, h.frame, h.readings⟩⟩

instance (b : Observatory) : ∀ a, Decidable (Drained b a)
  | .session i .go =>
    inferInstanceAs (Decidable (∀ due ∈ (b.progress i).awaits, dropping (b.session.threads i) = true →
      Passed due b ∧ ReadSince due b))
  | .session _ (.call _) | .session _ (.run _) | .session _ (.info _) | .session _ (.raise _) | .session _ .timeout
  | .session _ .absent | .session _ .check | .session _ (.observe _) | .session _ (.reply _) | .session _ .neck
  | .session _ (.published _) | .session _ (.reset _) | .session _ (.frame _) | .ask _ | .read _ | .send _ | .sim .. | .publish _
  | .forget _ | .monitor _ => .isTrue trivial

instance (b : Observatory) : ∀ a, Decidable (CachesFresh b a)
  | .session i _ =>
    inferInstanceAs (Decidable (∀ due ∈ (b.progress i).settles, clearing (b.session.threads i) = true → Cached due b))
  | .monitor true => inferInstanceAs (Decidable (b.monitor.place.Since b.settled))
  | .monitor false | .ask _ | .read _ | .send _ | .sim .. | .publish _ | .forget _ => .isTrue trivial

def observatoryStart : Observatory := ⟨sessionInit, simInit, [], none, {}, [], fun _ => .none, 0, 0, []⟩

def blocksInfo : ServerInfo := ⟨"run", 78, 16, 8, 43, 1, "head", (240, 320), (240, 320), true, false, none, "blocks"⟩

/-- A thread of the session goes on. -/
def going (i n : Nat) : List ObservatoryInput := List.replicate n (.session i .go)

/-- The monitor polls the first state of the topic, and the camera. -/
def polling : List ObservatoryInput :=
  [.publish 0, .monitor true, .monitor true, .monitor true, .sim 1 .go, .sim 1 .go, .monitor true]

/-- A reset up to its accepted request, and from the drop of the cache to its return. -/
def requesting : List ObservatoryInput :=
  .session 0 (.call .reset) :: going 0 8 ++ [.ask 0, .sim 2 .go, .sim 2 .go, .session 0 (.reset none)]

def returning : List ObservatoryInput := going 0 6

/-- A start, and the first observation of its stream. -/
def streaming : List ObservatoryInput :=
  .session 0 (.call .start) :: going 0 9 ++ [.session 1 (.run 2), .session 1 (.info blocksInfo)] ++ going 1 5 ++ [.read 1] ++
    going 1 9 ++ [.read 1, .session 1 (.observe 7)] ++ going 1 6 ++ [.send 1]

/-- The simulation loop captures a state and a frame. -/
def capturing : List ObservatoryInput := [.sim 0 .go, .sim 0 .go, .sim 0 (.render 7), .sim 0 .go]

/-- The simulation loop applies the reset, and captures a state and a frame. -/
def applying : List ObservatoryInput := List.replicate 7 (.sim 0 .go) ++ [.sim 0 (.render 7), .sim 0 .go]

/-- The simulation loop has yet to come to the reset as its call returns. -/
def queuedReset : List ObservatoryInput := capturing ++ requesting ++ returning ++ polling ++ streaming

/-- The simulation loop applies the reset before its call drops the cache. -/
def appliedReset : List ObservatoryInput :=
  requesting ++ List.replicate 7 (.sim 0 .go) ++ returning ++ [.sim 0 (.render 7), .sim 0 .go] ++ polling ++ streaming

/-- It applies the reset after its call has returned, and the deployment forgets the state of before. -/
def appliedLater : List ObservatoryInput :=
  capturing ++ requesting ++ returning ++ applying ++ [.forget 0] ++ polling ++ streaming

-- As the cache is dropped, the state and the frame of before are still under way.
example : ¬observatoryMachine.Meets Drained observatoryStart appliedLater := by decide +kernel

/-- An observation of the old episode is streamed after the reset. -/
theorem stale_after_reset : ∃ r, observatoryMachine.run observatoryStart queuedReset = some r ∧
    ¬∀ x ∈ r.streamed, x.required ≤ x.state ∧ x.required ≤ x.frame.episode := by
  have hrun : (observatoryMachine.run observatoryStart queuedReset).map (·.streamed) = some [⟨0, ⟨7, 0, 1⟩, 1⟩] := by
    decide +kernel
  obtain ⟨r, hr, hx⟩ := Option.map_eq_some_iff.mp hrun
  refine ⟨r, hr, fun h => ?_⟩
  rw [hx] at h
  exact absurd (h _ List.mem_cons_self).1 (by decide)

/-- An observation of the new episode is streamed, whether the reset is applied before the cache is dropped or after. -/
theorem reset_freshness_applied :
    (∃ r, observatoryMachine.run observatoryStart appliedLater = some r ∧ r.streamed = [⟨1, ⟨7, 1, 2⟩, 1⟩] ∧
      ∀ x ∈ r.streamed, x.required ≤ x.state ∧ x.required ≤ x.frame.episode) ∧
    ∃ r, observatoryMachine.run observatoryStart appliedReset = some r ∧ r.streamed = [⟨1, ⟨7, 1, 1⟩, 1⟩] ∧
      ∀ x ∈ r.streamed, x.required ≤ x.state ∧ x.required ≤ x.frame.episode := by
  have hruns : (observatoryMachine.run observatoryStart appliedLater).map (·.streamed) = some [⟨1, ⟨7, 1, 2⟩, 1⟩] ∧
      (observatoryMachine.run observatoryStart appliedReset).map (·.streamed) = some [⟨1, ⟨7, 1, 1⟩, 1⟩] := by
    decide +kernel
  have hmeets : observatoryMachine.Meets CachesFresh observatoryStart appliedLater ∧
      observatoryMachine.Meets Drained observatoryStart appliedReset := by
    decide +kernel
  obtain ⟨later, hlater, hx⟩ := Option.map_eq_some_iff.mp hruns.1
  obtain ⟨r, hr, hy⟩ := Option.map_eq_some_iff.mp hruns.2
  exact ⟨⟨later, hlater, hx, reset_freshness.1 ⟨_, rfl, Machine.path_of_run hlater hmeets.1⟩⟩,
    r, hr, hy, reset_freshness.2 ⟨_, rfl, Machine.path_of_run hr hmeets.2⟩⟩

end HumanoidLab
