import HumanoidLab.Theorems.ResetHandshake

/-! A reset advances the episode id before it drops the frame of the camera buffer, and the endpoint encodes a
    frame that it has read outside the lock of the buffer. A client that has seen the new episode gets no frame
    of an earlier one, when neither the buffer nor the endpoint had one as the client's wait returned. -/

namespace HumanoidLab
open Concurrency

variable {ι : Type} {w w' : Simulator ι} {pl pl' : SimPlace ι} {n e : Nat} {l : List (SimEvent ι)} {f : FrameSnapshot ι}

/-- A client's wait returned episode `e`. -/
def Observed (e : Nat) (l : List (SimEvent ι)) : Prop := ∃ n, .returned n e ∈ l

/-- A frame is of no episode before one that a client has observed. -/
def CurrentFrame : SimEvent ι → List (SimEvent ι) → Prop
  | .answered f, earlier => ∀ e, Observed e earlier → e ≤ f.episode
  | _, _ => True

/-- The episode that a waiting client asked for its reset in. -/
def SimPlace.awaiting : SimPlace ι → Option Nat
  | .poll _ before => some before
  | _ => none

/-- The guard that a wait returns with no frame of an earlier episode in the buffer or about to be answered. -/
def FramesFresh (p : Pool (Simulator ι) (SimPlace ι)) (a : Nat × SimChoice ι) : Prop :=
  ∀ before ∈ (p.threads a.1).awaiting, before < p.shared.episodeId →
    (∀ f ∈ p.shared.camera.snapshot, f.episode = p.shared.episodeId) ∧
    ∀ i f, p.threads i = .reply f → f.episode = p.shared.episodeId

/-! ### What a step does to the frames -/

theorem SimMoves.episode (h : SimMoves w pl pl' w') : w.episodeId ≤ w'.episodeId := by
  cases h with
  | bump => exact Nat.le_succ _
  | _ => exact Nat.le_refl _

theorem SimMoves.snapshot (h : SimMoves w pl pl' w') (hf : f ∈ w'.camera.snapshot) :
    f ∈ w.camera.snapshot ∨ f.episode = w.episodeId := by
  cases h with
  | publish rgb =>
    obtain rfl := Option.some.inj hf
    exact Or.inr rfl
  | invalidate => cases hf
  | _ => exact Or.inl hf

theorem SimMoves.to_reply (h : SimMoves w pl (.reply f) w') : w.camera.snapshot = some f ∧ w' = w := by
  generalize hp : SimPlace.reply f = at_ at h
  cases h with
  | drive _ hl' => subst hp; cases hl'
  | wait _ _ _ hreply => exact ⟨hreply f hp.symm, rfl⟩
  | accept before => cases before <;> cases hp
  | _ => cases hp

theorem SimMoves.answered (h : SimMoves w pl pl' w') (hl : w'.log = .answered f :: w.log) : pl = .reply f := by
  cases h with
  | drive | take | publish | invalidate | wait | source => exact absurd hl.symm (List.cons_ne_self _ _)
  | answer f =>
    cases List.head_eq_of_cons_eq hl
    rfl
  | _ => cases List.head_eq_of_cons_eq hl

theorem SimMoves.observed (h : SimMoves w pl pl' w') (ho : Observed e w'.log) : Observed e w.log ∨
    (e = w.episodeId ∧ w'.episodeId = w.episodeId ∧ w'.camera = w.camera ∧ ∃ n b, pl = .poll n b ∧ b < w.episodeId) := by
  obtain ⟨n, hn⟩ := ho
  rcases h.log with hl | ⟨ev, hl, -⟩ <;> rw [hl] at hn
  · exact Or.inl ⟨n, hn⟩
  · rcases List.mem_cons.mp hn with rfl | hn
    · obtain ⟨b, hpl, hb, he⟩ := h.returned hl
      subst hpl
      cases h with
      | drive hl' => cases hl'
      | wait => exact absurd hl.symm (List.cons_ne_self _ _)
      | returns => exact Or.inr ⟨he, rfl, rfl, n, b, rfl, hb⟩
    · exact Or.inl ⟨n, hn⟩

/-! ### Every run -/

/-- The frames that can still be answered are of no episode before an observed one. -/
structure FramesKept (w : Simulator ι) : Prop where
  episode : ∀ e, Observed e w.log → e ≤ w.episodeId
  snapshot : ∀ e, Observed e w.log → ∀ f ∈ w.camera.snapshot, e ≤ f.episode
  answered : Each CurrentFrame w.log

/-- The same of the frame that a thread answers. -/
def Answers (pl : SimPlace ι) (w : Simulator ι) : Prop := ∀ f, pl = .reply f → ∀ e, Observed e w.log → e ≤ f.episode

section
variable {q : Pool (Simulator ι) (SimPlace ι)}

theorem frames_reach (hq : (simMachine ι).Reach FramesFresh q) :
    FramesKept q.shared ∧ ∀ i, Answers (q.threads i) q.shared := by
  refine Threads.invariant (I := FramesKept) (A := fun _ => Answers) hq ?_ ?_ ?_
  · rintro p rfl
    refine ⟨⟨fun e ⟨n, h⟩ => ?_, fun e ⟨n, h⟩ => ?_, trivial⟩, fun i f hf => ?_⟩
    · cases h
    · cases h
    · simp only [simInit] at hf
      split at hf <;> cases hf
  · rintro p i c ⟨pl', w'⟩ hp hc hr hI hA
    have hm := sim_moves hr
    -- A wait that returns meets the guard: the frames are of the episode that it returns.
    have hguard : ∀ n b, p.threads i = .poll n b → b < p.shared.episodeId →
        ∀ f ∈ p.shared.camera.snapshot, f.episode = p.shared.episodeId :=
      fun n b hpl hb => (hc b (by rw [hpl]; rfl) hb).1
    refine ⟨⟨fun e ho => ?_, fun e ho f hf => ?_, ?_⟩, fun f hf e ho => ?_⟩
    · rcases hm.observed ho with ho | ⟨rfl, he, -⟩
      · exact Nat.le_trans (hI.episode e ho) hm.episode
      · exact Nat.le_of_eq he.symm
    · rcases hm.observed ho with ho | ⟨rfl, -, hcam, n, b, hpl, hb⟩
      · rcases hm.snapshot hf with hf | hf
        · exact hI.snapshot e ho f hf
        · exact hf ▸ hI.episode e ho
      · exact Nat.le_of_eq (hguard n b hpl hb f (hcam ▸ hf)).symm
    · rcases hm.log with hl | ⟨ev, hl, -⟩
      · exact hl ▸ hI.answered
      · change Each CurrentFrame w'.log
        rw [hl]
        refine ⟨?_, hI.answered⟩
        cases ev with
        | answered f => exact hA i f (hm.answered hl)
        | _ => trivial
    · obtain rfl : pl' = .reply f := hf
      obtain ⟨hs, rfl⟩ := hm.to_reply
      exact hI.snapshot e ho f hs
  · rintro p i c ⟨pl', w'⟩ j hp hc hr hI hA hj f hf e ho
    have hm := sim_moves hr
    rcases hm.observed ho with ho | ⟨rfl, -, -, n, b, hpl, hb⟩
    · exact hA j f hf e ho
    · exact Nat.le_of_eq ((hc b (by rw [hpl]; rfl) hb).2 j f hf).symm

/-- In every run in which each wait returns with no earlier frame in the buffer or about to be answered: a frame
    answered after a client has observed an episode is of that episode or a later one. -/
theorem camera_episodes (hq : (simMachine ι).Reach FramesFresh q) {later earlier : List (SimEvent ι)}
    (hlog : q.shared.log = later ++ .answered f :: earlier) (ho : Observed e earlier) : e ≤ f.episode :=
  (frames_reach hq).1.answered.law hlog e ho

end

/-- A frame of episode 0 is in the buffer when a client waits for its reset, and the loop advances the episode id. -/
def frameBeforeReset : List (Nat × SimChoice Unit) :=
  [(0, .go), (0, .go), (0, .render ()), (0, .go), (1, .call .resetApplied), (1, .go), (1, .go), (1, .go),
    (0, .go), (0, .go), (0, .go), (0, .go), (0, .go), (0, .go)]

/-- The loop renders a frame of the new episode, and a client asks for it. -/
def frameAfterReset : List (Nat × SimChoice Unit) :=
  [(0, .render ()), (0, .go), (2, .call .getFrame), (2, .go), (2, .go)]

/-- The guard that no waiting client steps. -/
def Waitless (p : Pool (Simulator ι) (SimPlace ι)) (a : Nat × SimChoice ι) : Prop := (p.threads a.1).awaiting = none

instance (p : Pool (Simulator ι) (SimPlace ι)) (a : Nat × SimChoice ι) : Decidable (Waitless p a) :=
  inferInstanceAs (Decidable (_ = none))

theorem waitless_fresh {p : Pool (Simulator ι) (SimPlace ι)} {a : Nat × SimChoice ι} (h : Waitless p a) : FramesFresh p a := by
  intro b hb
  rw [show (p.threads a.1).awaiting = none from h] at hb
  cases hb

/-- The wait returns after the buffer has dropped its frame. -/
theorem camera_episodes_served : ∃ q, (simMachine Unit).Reach FramesFresh q ∧
    q.shared.log.take 2 = [.answered ⟨(), 1, 2⟩, .returned 1 1] ∧ ∀ e, Observed e q.shared.log.tail → e ≤ 1 := by
  obtain ⟨p, hp, hmeet, hsnap, h0, h1, t, ht, q, hq, hmeet', htake⟩ :
      ∃ p ∈ (simMachine Unit).run simInit (frameBeforeReset ++ [(0, .go)]),
        (simMachine Unit).Meets Waitless simInit (frameBeforeReset ++ [(0, .go)]) ∧ p.shared.camera.snapshot = none ∧
        p.threads 0 = .physics ∧ p.threads 1 = .poll 1 0 ∧ ∃ t ∈ (simMachine Unit).step p (1, .go),
          ∃ q ∈ (simMachine Unit).run t frameAfterReset, (simMachine Unit).Meets Waitless t frameAfterReset ∧
            q.shared.log.take 2 = [.answered ⟨(), 1, 2⟩, .returned 1 1] := by decide
  have hfresh : FramesFresh p (1, .go) := by
    refine fun _ _ _ => ⟨fun f hf => ?_, fun i f hf => ?_⟩
    · rw [hsnap] at hf
      cases hf
    · by_cases hi : i = 0 ∨ i = 1
      · rcases hi with rfl | rfl
        · cases h0.symm.trans hf
        · cases h1.symm.trans hf
      · have hlabels : ∀ a ∈ frameBeforeReset ++ [(0, .go)], a.1 = 0 ∨ a.1 = 1 := by decide
        rw [Threads.run_other (i := i) hp fun a ha ha' => hi (ha' ▸ hlabels a ha)] at hf
        simp only [simInit] at hf
        split at hf <;> cases hf
  have hreach : (simMachine Unit).Reach FramesFresh q :=
    (Machine.Reach.step ⟨_, rfl, (Machine.path_of_run hp hmeet).mono fun _ _ => waitless_fresh⟩ hfresh ht).path
      ((Machine.path_of_run hq hmeet').mono fun _ _ => waitless_fresh)
  have hlog : q.shared.log = [] ++ .answered ⟨(), 1, 2⟩ :: q.shared.log.tail := by
    cases hl : q.shared.log with
    | nil => rw [hl] at htake; cases htake
    | cons x l =>
      rw [hl] at htake
      rw [(List.cons.inj htake).1, List.nil_append, List.tail_cons]
  exact ⟨q, hreach, htake, fun e he => camera_episodes hreach hlog he⟩

/-- When the client's wait returns before that, the frame of episode 0 is answered. -/
theorem frame_outlives_episode : ∃ q, (simMachine Unit).run simInit
      (frameBeforeReset ++ [(1, .go), (2, .call .getFrame), (2, .go), (2, .go)]) = some q ∧
    q.shared.log.take 2 = [.answered ⟨(), 0, 1⟩, .returned 1 1] := by
  decide

end HumanoidLab
