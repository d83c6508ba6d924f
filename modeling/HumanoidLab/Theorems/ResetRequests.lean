import HumanoidLab.Lib.Record
import HumanoidLab.Simulators.Reset

/-! The requests of a reset. None is lost: the loop clears the pending flag before it begins the reset, so a
    request that is accepted later is pending again. But a client that waits for the episode id to advance
    may see it advance for a reset that was begun before its own request. -/

namespace HumanoidLab
open Concurrency

variable {ι : Type} {w w' : Simulator ι} {pl pl' : SimPlace ι}

/-- A place of the simulation loop. -/
def SimPlace.looping : SimPlace ι → Bool
  | .top | .look | .clear | .physics | .rendered _ | .finished | .begins | .restore | .bump | .invalidate => true
  | _ => false

/-- A reset has taken its requests and has not advanced the episode id. -/
def SimPlace.applying : SimPlace ι → Bool
  | .begins | .restore | .bump => true
  | _ => false

/-! ### What a step does -/

/-- The step of a thread, by what it changes. -/
inductive SimMoves (w : Simulator ι) : SimPlace ι → SimPlace ι → Simulator ι → Prop
  | iterate : SimMoves w .top .look (w.record .iterated)
  | take : w.pendingReset = true → SimMoves w .look .clear w
  | drive {pl pl' : SimPlace ι} : pl.looping = true → pl'.looping = true → pl.applying = false → pl'.applying = false →
      pl ≠ .clear → (pl = .look → w.pendingReset = false) → SimMoves w pl pl' w
  | publish (rgb : ι) : SimMoves w (.rendered rgb) .top { w with camera := w.camera.publish rgb w.episodeId }
  | clear : SimMoves w .clear .begins ({ w with pendingReset := false }.record .cleared)
  | begins : SimMoves w .begins .restore (w.record .began)
  | restore : SimMoves w .restore .bump (w.record .restored)
  | bump : SimMoves w .bump .invalidate ({ w with episodeId := w.episodeId + 1 }.record (.bumped (w.episodeId + 1)))
  | invalidate : SimMoves w .invalidate .physics { w with camera := w.camera.invalidate }
  | wait {pl pl' : SimPlace ι} : pl.looping = false → pl'.looping = false → (∀ n b, pl' = .poll n b → pl = pl') →
      (∀ f, pl' = .reply f → w.camera.snapshot = some f) → SimMoves w pl pl' w
  | source (s : ResetSource) (before : Option Nat) :
      SimMoves w (.source s before) (.flag before) { w with resetSource := some s }
  | accept (before : Option Nat) : SimMoves w (.flag before) (before.elim .idle (.poll w.log.length))
      ({ w with pendingReset := true }.record (.accepted w.log.length))
  | returns (n before : Nat) : before < w.episodeId →
      SimMoves w (.poll n before) .idle (w.record (.returned n w.episodeId))
  | answer (f : FrameSnapshot ι) : SimMoves w (.reply f) .idle (w.record (.answered f))

theorem sim_moves {c : SimChoice ι} (h : simStep pl c w = some (pl', w')) : SimMoves w pl pl' w' := by
  cases pl with
  | top =>
    cases c <;> simp only [simStep, reduceCtorEq] at h <;> cases h
    · exact .iterate
    · exact .drive rfl rfl rfl rfl nofun nofun
  | look =>
    cases c <;> simp only [simStep, reduceCtorEq] at h
    case go =>
      cases hp : w.pendingReset <;> simp only [hp, if_true, Bool.false_eq_true, if_false] at h <;> cases h
      · exact .drive rfl rfl rfl rfl nofun fun _ => hp
      · exact .take hp
    case paused =>
      cases hp : w.pendingReset <;> simp only [hp, if_true, Bool.false_eq_true, if_false, reduceCtorEq] at h
      cases h
      exact .drive rfl rfl rfl rfl nofun fun _ => hp
  | physics =>
    cases c <;> simp only [simStep, reduceCtorEq] at h <;> cases h <;> exact .drive rfl rfl rfl rfl nofun nofun
  | idle =>
    cases c <;> simp only [simStep, reduceCtorEq] at h
    case call r => cases h; cases r <;> exact .wait rfl rfl nofun nofun
  | status =>
    cases c <;> simp only [simStep, reduceCtorEq] at h <;> cases h <;> exact .wait rfl rfl nofun nofun
  | poll n before =>
    cases c <;> simp only [simStep, reduceCtorEq] at h
    case go =>
      split at h <;> cases h
      · exact .returns n before ‹_›
      · exact .wait rfl rfl (fun _ _ _ => rfl) nofun
    case timeout => cases h; exact .wait rfl rfl nofun nofun
  | frame =>
    cases c <;> simp only [simStep, reduceCtorEq] at h
    cases hs : w.camera.snapshot <;> simp only [hs, Option.elim] at h <;> cases h
    · exact .wait rfl rfl nofun nofun
    · exact .wait rfl rfl nofun fun f h => by cases h; exact hs
  | finished => cases c <;> simp [simStep] at h
  | _ =>
    cases c <;> simp only [simStep, reduceCtorEq] at h
    cases h
    constructor

/-- The loop stays in `run`, and a caller outside it. -/
theorem SimMoves.looping (h : SimMoves w pl pl' w') : pl'.looping = pl.looping := by
  cases h with
  | drive hl hl' _ _ _ _ => rw [hl, hl']
  | wait hl hl' _ _ => rw [hl, hl']
  | accept before => cases before <;> rfl
  | _ => rfl

section
variable {C : Pool (Simulator ι) (SimPlace ι) → Nat × SimChoice ι → Prop} {q : Pool (Simulator ι) (SimPlace ι)}

theorem loop_thread (hq : (simMachine ι).Reach C q) (i : Nat) : (q.threads i).looping = decide (i = 0) := by
  refine (Threads.invariant (I := fun _ => True) (A := fun i pl _ => pl.looping = decide (i = 0)) hq ?_ ?_ ?_).2 i
  · rintro p rfl
    refine ⟨trivial, fun i => ?_⟩
    by_cases hi : i = 0 <;> simp [simInit, hi, SimPlace.looping]
  · intro p i b r _ _ hr _ hA
    exact ⟨trivial, (sim_moves hr).looping.trans (hA i)⟩
  · intro p i b r j _ _ _ _ hA _
    exact hA j

/-! ### No request is lost -/

def SimEvent.iterates : SimEvent ι → Bool
  | .iterated => true
  | _ => false

/-- How often the loop iterates. -/
def iterations (l : List (SimEvent ι)) : Nat := l.countP SimEvent.iterates

theorem iterations_append (k l : List (SimEvent ι)) : iterations (k ++ l) = iterations k + iterations l :=
  List.countP_append

@[simp] theorem iterations_cons (e : SimEvent ι) (l : List (SimEvent ι)) :
    iterations (e :: l) = iterations l + if e.iterates then 1 else 0 :=
  List.countP_cons

theorem new_event {e : SimEvent ι} {new l : List (SimEvent ι)} (h : e :: l = new ++ l) : new = [e] :=
  (List.append_cancel_right (h : [e] ++ l = new ++ l)).symm

/-- A request, `later` events ago, has its reset begun, or the loop comes to it before its second iteration ends. -/
def Owed (later : List (SimEvent ι)) (pl : SimPlace ι) (w : Simulator ι) : Prop :=
  .began ∈ later ∨ (w.pendingReset = true ∧ iterations later = 0) ∨
    (iterations later ≤ 1 ∧ ((pl = .look ∧ w.pendingReset = true) ∨ pl = .clear ∨ pl = .begins))

theorem SimMoves.owed_loop (h : SimMoves w pl pl' w') (hl : pl.looping = true) {new later : List (SimEvent ι)}
    (hn : w'.log = new ++ w.log) (ho : Owed later pl w) : Owed (new ++ later) pl' w' := by
  cases h with
  | iterate =>
    obtain rfl := new_event hn
    rcases ho with ho | ⟨hp, hi⟩ | ⟨-, ⟨h, -⟩ | h | h⟩
    · exact Or.inl (List.mem_append_right _ ho)
    · exact Or.inr (Or.inr ⟨by simp [SimEvent.iterates, hi], Or.inl ⟨rfl, hp⟩⟩)
    all_goals cases h
  | take hp =>
    obtain rfl := List.self_eq_append_left.mp hn
    rcases ho with ho | ⟨-, hi⟩ | ⟨hi, -⟩
    · exact Or.inl ho
    · exact Or.inr (Or.inr ⟨hi ▸ Nat.zero_le 1, Or.inr (Or.inl rfl)⟩)
    · exact Or.inr (Or.inr ⟨hi, Or.inr (Or.inl rfl)⟩)
  | drive _ _ hap _ hclear hlook =>
    obtain rfl := List.self_eq_append_left.mp hn
    rcases ho with ho | ho | ⟨-, ⟨h, hp⟩ | h | h⟩
    · exact Or.inl ho
    · exact Or.inr (Or.inl ho)
    · exact absurd (hlook h) (by simp [hp])
    · exact absurd h hclear
    · rw [h] at hap
      cases hap
  | clear =>
    obtain rfl := new_event hn
    rcases ho with ho | ⟨-, hi⟩ | ⟨hi, -⟩
    · exact Or.inl (List.mem_append_right _ ho)
    · exact Or.inr (Or.inr ⟨by simp [SimEvent.iterates, hi], Or.inr (Or.inr rfl)⟩)
    · exact Or.inr (Or.inr ⟨by simpa [SimEvent.iterates] using hi, Or.inr (Or.inr rfl)⟩)
  | begins =>
    obtain rfl := new_event hn
    exact Or.inl List.mem_cons_self
  | publish rgb | invalidate =>
    obtain rfl := List.self_eq_append_left.mp hn
    rcases ho with ho | ho | ⟨-, ⟨h, -⟩ | h | h⟩
    · exact Or.inl ho
    · exact Or.inr (Or.inl ho)
    all_goals cases h
  | restore | bump =>
    obtain rfl := new_event hn
    rcases ho with ho | ⟨hp, hi⟩ | ⟨-, ⟨h, -⟩ | h | h⟩
    · exact Or.inl (List.mem_append_right _ ho)
    · exact Or.inr (Or.inl ⟨hp, by simp [SimEvent.iterates, hi]⟩)
    all_goals cases h
  | accept before | wait hl' _ _ _ | source s before | returns n before _ | answer f => simp_all [SimPlace.looping]

/-- What a step of a caller records is no iteration, and it leaves a pending reset pending. -/
theorem SimMoves.caller (h : SimMoves w pl pl' w') (hl : pl.looping = false) {new : List (SimEvent ι)}
    (hn : w'.log = new ++ w.log) : iterations new = 0 ∧ (w.pendingReset = true → w'.pendingReset = true) := by
  cases h with
  | drive hl' => rw [hl] at hl'; cases hl'
  | wait | source s before =>
    obtain rfl := List.self_eq_append_left.mp hn
    exact ⟨rfl, id⟩
  | accept before =>
    obtain rfl := new_event hn
    exact ⟨rfl, fun _ => rfl⟩
  | returns n before _ | answer f =>
    obtain rfl := new_event hn
    exact ⟨rfl, id⟩
  | _ => cases hl

theorem SimMoves.owed_caller (h : SimMoves w pl pl' w') (hl : pl.looping = false) {new later : List (SimEvent ι)}
    {at_ : SimPlace ι} (hn : w'.log = new ++ w.log) (ho : Owed later at_ w) : Owed (new ++ later) at_ w' := by
  obtain ⟨hi, hp⟩ := h.caller hl hn
  have hc : iterations (new ++ later) = iterations later := by rw [iterations_append, hi, Nat.zero_add]
  rcases ho with ho | ⟨h, ho⟩ | ⟨ho, hat⟩
  · exact Or.inl (List.mem_append_right _ ho)
  · exact Or.inr (Or.inl ⟨hp h, hc.trans ho⟩)
  · exact Or.inr (Or.inr ⟨hc ▸ ho, hat.imp_left (And.imp_right hp)⟩)

/-- A step records at most one event; a request that is accepted has the number of the events before it, and is pending. -/
theorem SimMoves.log (h : SimMoves w pl pl' w') : w'.log = w.log ∨
    ∃ e, w'.log = e :: w.log ∧ ∀ n, e = .accepted n → n = w.log.length ∧ w'.pendingReset = true ∧ pl.looping = false := by
  cases h with
  | drive | take | publish | invalidate | wait | source => exact Or.inl rfl
  | accept before => exact Or.inr ⟨_, rfl, fun n h => by cases h; exact ⟨rfl, rfl, rfl⟩⟩
  | _ => exact Or.inr ⟨_, rfl, nofun⟩

theorem request_owed (hq : (simMachine ι).Reach C q) : ∀ later earlier n,
    q.shared.log = later ++ .accepted n :: earlier → Owed later (q.threads 0) q.shared := by
  refine Machine.Reach.invariant (I := fun q => ∀ later earlier n,
    q.shared.log = later ++ .accepted n :: earlier → Owed later (q.threads 0) q.shared) hq ?_ ?_
  · rintro _ rfl later earlier n hlog
    simp [simInit] at hlog
  · rintro p ⟨i, c⟩ q hp ho - hs later earlier n hlog
    obtain ⟨⟨pl', w'⟩, hr, rfl⟩ := Threads.step_eq_some.mp hs
    have hm := sim_moves hr
    have hrole := loop_thread hp i
    have hkeep : ∀ new later : List (SimEvent ι), w'.log = new ++ p.shared.log → Owed later (p.threads 0) p.shared →
        Owed (new ++ later) ((p.set i (pl', w')).threads 0) w' := by
      intro new later hn ho
      by_cases hi : i = 0
      · subst hi
        rw [Pool.set_self]
        exact hm.owed_loop (by simpa using hrole) hn ho
      · rw [Pool.set_other p _ (Ne.symm hi)]
        exact hm.owed_caller (by simpa [hi] using hrole) hn ho
    rcases hm.log with hl | ⟨e, hl, hacc⟩
    · exact hkeep [] later hl (ho later earlier n (hl ▸ hlog))
    · rcases cons_eq_split (hl ▸ hlog) with ⟨rfl, rfl, -⟩ | ⟨later', rfl, hlog'⟩
      · exact Or.inr (Or.inl ⟨(hacc n rfl).2.1, rfl⟩)
      · exact hkeep [e] later' hl (ho later' earlier n hlog')

/-- In every run, a request that the loop has iterated twice after has a reset that began after it. -/
theorem reset_requests (hq : (simMachine ι).Reach Machine.Free q) {later earlier : List (SimEvent ι)} {n : Nat}
    (hlog : q.shared.log = later ++ .accepted n :: earlier) (hi : 2 ≤ iterations later) : .began ∈ later := by
  rcases request_owed hq later earlier n hlog with h | ⟨-, h⟩ | ⟨h, -⟩
  · exact h
  · omega
  · omega

end

/-- A request from the UI is accepted while the loop applies the reset of another one. -/
def requestDuringReset : List (Nat × SimChoice Unit) :=
  [(1, .call (.reset .control)), (1, .go), (1, .go), (0, .go), (0, .go), (0, .go), (2, .call (.reset .ui)), (2, .go),
    (0, .go), (2, .go), (0, .go), (0, .go), (0, .go), (0, .go), (0, .go), (0, .go), (0, .go), (0, .go), (0, .go),
    (0, .go), (0, .go), (0, .go), (0, .go)]

/-- It has a reset of its own. -/
theorem reset_requests_second : ∃ q, (simMachine Unit).run simInit requestDuringReset = some q ∧
    q.shared.log.drop 8 = .accepted 4 :: q.shared.log.drop 9 ∧ .began ∈ q.shared.log.take 8 := by
  obtain ⟨q, hq, hlog, hi⟩ : ∃ q ∈ (simMachine Unit).run simInit requestDuringReset,
      q.shared.log.drop 8 = .accepted 4 :: q.shared.log.drop 9 ∧ 2 ≤ iterations (q.shared.log.take 8) := by decide
  have hreach : (simMachine Unit).Reach Machine.Free q := ⟨_, rfl, Machine.path_of_run hq (Machine.meets_free _ _)⟩
  have hsplit : q.shared.log = q.shared.log.take 8 ++ .accepted 4 :: q.shared.log.drop 9 := by
    rw [← hlog, List.take_append_drop]
  exact ⟨q, hq, hlog, reset_requests hreach hsplit hi⟩

end HumanoidLab
