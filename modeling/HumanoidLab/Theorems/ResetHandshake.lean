import HumanoidLab.Theorems.ResetRequests

/-! A client that waits for its reset reads the episode id before it asks, and takes the first later one for
    the reset that it asked for. It is, when the loop neither began nor finished a reset between that read and
    the acceptance of the request. -/

namespace HumanoidLab
open Concurrency

variable {ι : Type} {w w' : Simulator ι} {pl pl' : SimPlace ι} {n m b : Nat} {l : List (SimEvent ι)} {e : SimEvent ι}

/-- A reset that began after request `n` has written the robot and the scene back and advanced the episode id. -/
def Applied (n : Nat) (l : List (SimEvent ι)) : Prop :=
  ∃ e, [.bumped e, .restored, .began, .accepted n].Sublist l

/-- Request `n` was accepted after the pending flag was last cleared. -/
def Queued (n : Nat) : List (SimEvent ι) → Prop
  | [] => False
  | .cleared :: _ => False
  | .accepted m :: l => m = n ∨ Queued n l
  | _ :: l => Queued n l

/-- What a client may rely on when its wait returns. -/
def Handshake : SimEvent ι → List (SimEvent ι) → Prop
  | .returned n _, earlier => Applied n earlier ∧ ¬Queued n earlier
  | _, _ => True

theorem Applied.cons (h : Applied n l) : Applied n (e :: l) := h.imp fun _ h => h.cons e

/-- The request of the event, when it is the acceptance of one. -/
def SimEvent.request : SimEvent ι → Option Nat
  | .accepted n => some n
  | _ => none

theorem queued_cons (h : Queued n (e :: l)) : e.request = some n ∨ Queued n l := by
  cases e with
  | accepted m =>
    rcases h with rfl | h
    · exact Or.inl rfl
    · exact Or.inr h
  | cleared => exact h.elim
  | _ => exact Or.inr h

/-! ### The condition -/

/-- The episode id that a thread read before it queues its reset. -/
def SimPlace.baseline : SimPlace ι → Option Nat
  | .flag before => before
  | _ => none

/-- The guard that a waiting client has its request accepted while the episode is the one that it read, and no
    reset is being applied. -/
def RequestsFresh (p : Pool (Simulator ι) (SimPlace ι)) (a : Nat × SimChoice ι) : Prop :=
  ∀ before ∈ (p.threads a.1).baseline, p.shared.episodeId = before ∧ (p.threads 0).applying = false

instance (p : Pool (Simulator ι) (SimPlace ι)) (a : Nat × SimChoice ι) : Decidable (RequestsFresh p a) :=
  inferInstanceAs (Decidable (∀ before ∈ _, _))

/-! ### What a waiting client has before it -/

/-- What the loop has done for request `n` when the reset that it is applying will advance the episode id. -/
def Ahead (n : Nat) (l : List (SimEvent ι)) : SimPlace ι → Prop
  | .begins => ¬Queued n l
  | .restore => [.began, .accepted n].Sublist l ∧ ¬Queued n l
  | .bump => [.restored, .began, .accepted n].Sublist l ∧ ¬Queued n l
  | _ => True

theorem ahead_of_not_applying (h : pl.applying = false) : Ahead n l pl := by
  cases pl with
  | begins | restore | bump => cases h
  | _ => trivial

/-- A client waits for request `n` since episode `b`, with the loop at `pl`. -/
structure Awaits (pl : SimPlace ι) (n b : Nat) (w : Simulator ι) : Prop where
  accepted : .accepted n ∈ w.log
  baseline : b ≤ w.episodeId
  advanced : b < w.episodeId → Applied n w.log ∧ ¬Queued n w.log
  ahead : b = w.episodeId → Ahead n w.log pl

theorem Ahead.cons (h : Ahead n l pl) (hw : Queued n (e :: l) → Queued n l) : Ahead n (e :: l) pl := by
  cases pl with
  | begins => exact fun hc => h (hw hc)
  | restore => exact ⟨h.1.cons e, fun hc => h.2 (hw hc)⟩
  | bump => exact ⟨h.1.cons e, fun hc => h.2 (hw hc)⟩
  | _ => trivial

/-- An event that is not the request itself leaves the wait, up to where the loop goes. -/
theorem Awaits.cons (h : Awaits pl n b w) (hl : w'.log = e :: w.log) (he : w'.episodeId = w.episodeId)
    (hr : e.request ≠ some n) (ha : Ahead n w.log pl → Ahead n (e :: w.log) pl') : Awaits pl' n b w' := by
  refine ⟨?_, he ▸ h.baseline, fun hb => ?_, fun hb => ?_⟩
  · rw [hl]
    exact List.mem_cons_of_mem _ h.accepted
  · obtain ⟨happ, hnq⟩ := h.advanced (he ▸ hb)
    rw [hl]
    exact ⟨happ.cons, fun hc => (queued_cons hc).elim hr hnq⟩
  · rw [hl]
    exact ha (h.ahead (he ▸ hb))

theorem Awaits.quiet (h : Awaits pl n b w) (hl : w'.log = w.log) (he : w'.episodeId = w.episodeId)
    (ha : pl'.applying = false) : Awaits pl' n b w' := by
  refine ⟨hl ▸ h.accepted, he ▸ h.baseline, fun hb => ?_, fun _ => ahead_of_not_applying ha⟩
  rw [hl]
  exact h.advanced (he ▸ hb)

theorem SimMoves.awaits_loop (h : SimMoves w pl pl' w') (hl : pl.looping = true) (ha : Awaits pl n b w) :
    Awaits pl' n b w' := by
  cases h with
  | iterate => exact ha.cons rfl rfl nofun fun _ => trivial
  | take | publish | invalidate => exact ha.quiet rfl rfl rfl
  | drive _ _ _ happ => exact ha.quiet rfl rfl happ
  | clear => exact ha.cons rfl rfl nofun fun _ => id
  | begins => exact ha.cons rfl rfl nofun fun hb => ⟨(List.singleton_sublist.mpr ha.accepted).cons_cons _, hb⟩
  | restore => exact ha.cons rfl rfl nofun fun hb => ⟨hb.1.cons_cons _, hb.2⟩
  | bump =>
    refine ⟨List.mem_cons_of_mem _ ha.accepted, Nat.le_succ_of_le ha.baseline, fun _ => ?_, fun _ => trivial⟩
    -- The reset that advances the episode id is the first one since the client read it, or the wait is over.
    rcases Nat.eq_or_lt_of_le ha.baseline with hb | hb
    · obtain ⟨happ, hnq⟩ := ha.ahead hb
      exact ⟨⟨_, happ.cons_cons _⟩, hnq⟩
    · obtain ⟨happ, hnq⟩ := ha.advanced hb
      exact ⟨happ.cons, hnq⟩
  | accept before | wait hl' _ _ _ | source s before | returns n before _ | answer f => simp_all [SimPlace.looping]

theorem SimMoves.awaits_caller {at_ : SimPlace ι} (h : SimMoves w pl pl' w') (hl : pl.looping = false)
    (hn : n < w.log.length) (ha : Awaits at_ n b w) : Awaits at_ n b w' := by
  cases h with
  | drive hl' => simp [hl] at hl'
  | wait => exact ha
  | source s before => exact ⟨ha.accepted, ha.baseline, ha.advanced, ha.ahead⟩
  | accept before =>
    have hr : (SimEvent.accepted w.log.length : SimEvent ι).request ≠ some n := fun h => by
      simp [SimEvent.request] at h
      omega
    exact ha.cons rfl rfl hr fun h => h.cons fun hc => (queued_cons hc).resolve_left hr
  | returns m before _ | answer f => exact ha.cons rfl rfl nofun fun h => h.cons id
  | _ => cases hl

/-- A client whose request is accepted in the episode that it read waits from there on. -/
theorem awaits_accept (hb : w.episodeId = b) (happ : pl.applying = false) (hl : w'.log = .accepted w.log.length :: w.log)
    (he : w'.episodeId = w.episodeId) : Awaits pl w.log.length b w' := by
  refine ⟨?_, ?_, fun h => ?_, fun _ => ahead_of_not_applying happ⟩
  · rw [hl]
    exact List.mem_cons_self
  · exact Nat.le_of_eq (he.trans hb).symm
  · rw [he, hb] at h
    exact absurd h (Nat.lt_irrefl b)

theorem SimMoves.to_poll (h : SimMoves w pl (.poll n b) w') : (pl = .poll n b ∧ w' = w) ∨
    (pl = .flag (some b) ∧ n = w.log.length ∧ w'.log = .accepted w.log.length :: w.log ∧ w'.episodeId = w.episodeId) := by
  generalize hp : SimPlace.poll n b = at_ at h
  cases h with
  | drive _ hl' => subst hp; cases hl'
  | wait _ _ hpoll _ => exact Or.inl ⟨hpoll n b hp.symm, rfl⟩
  | accept before =>
    cases before with
    | none => cases hp
    | some b' => cases hp; exact Or.inr ⟨rfl, rfl, rfl, rfl⟩
  | _ => cases hp

theorem SimMoves.returned {episode : Nat} (h : SimMoves w pl pl' w') (hl : w'.log = .returned n episode :: w.log) :
    ∃ b, pl = .poll n b ∧ b < w.episodeId ∧ episode = w.episodeId := by
  cases h with
  | drive | take | publish | invalidate | wait | source => exact absurd hl.symm (List.cons_ne_self _ _)
  | returns m b hb =>
    cases List.head_eq_of_cons_eq hl
    exact ⟨b, rfl, hb, rfl⟩
  | _ => cases List.head_eq_of_cons_eq hl

/-! ### Every run -/

section
variable {C : Pool (Simulator ι) (SimPlace ι) → Nat × SimChoice ι → Prop} {q : Pool (Simulator ι) (SimPlace ι)}

theorem accepted_lt (hq : (simMachine ι).Reach C q) (hn : .accepted n ∈ q.shared.log) : n < q.shared.log.length := by
  refine Machine.Reach.invariant (I := fun q => ∀ n, .accepted n ∈ q.shared.log → n < q.shared.log.length) hq ?_ ?_ n hn
  · rintro _ rfl n hn
    cases hn
  · rintro p ⟨i, c⟩ q - hI - hs n hn
    obtain ⟨⟨pl', w'⟩, hr, rfl⟩ := Threads.step_eq_some.mp hs
    change .accepted n ∈ w'.log at hn
    change n < w'.log.length
    rcases (sim_moves hr).log with hl | ⟨e, hl, hacc⟩ <;> rw [hl] at hn ⊢
    · exact hI n hn
    · rw [List.length_cons]
      rcases List.mem_cons.mp hn with rfl | hn
      · rw [(hacc n rfl).1]
        exact Nat.lt_succ_self _
      · exact Nat.lt_succ_of_lt (hI n hn)

/-- Every wait, and every wait that has returned. -/
theorem handshake_reach (hq : (simMachine ι).Reach RequestsFresh q) :
    (∀ i n b, q.threads i = .poll n b → Awaits (q.threads 0) n b q.shared) ∧ Each Handshake q.shared.log := by
  refine Machine.Reach.invariant (I := fun q => (∀ i n b, q.threads i = .poll n b →
    Awaits (q.threads 0) n b q.shared) ∧ Each Handshake q.shared.log) hq ?_ ?_
  · rintro _ rfl
    refine ⟨fun i n b h => ?_, trivial⟩
    simp only [simInit] at h
    split at h <;> cases h
  · rintro p ⟨i, c⟩ q hp ⟨hI, hE⟩ hc hs
    obtain ⟨⟨pl', w'⟩, hr, rfl⟩ := Threads.step_eq_some.mp hs
    have hm := sim_moves hr
    have hrole := loop_thread hp
    refine ⟨fun j n b hj => ?_, ?_⟩
    · by_cases hi : i = 0
      · subst hi
        have hl : pl'.looping = true := by rw [hm.looping, hrole 0]; rfl
        have hj0 : j ≠ 0 := by
          rintro rfl
          rw [Pool.set_self] at hj
          cases hj
          cases hl
        rw [Pool.set_other p _ hj0] at hj
        rw [Pool.set_self]
        exact hm.awaits_loop (by rw [hrole 0]; rfl) (hI j n b hj)
      · rw [Pool.set_other p _ (Ne.symm hi)]
        by_cases hji : j = i
        · subst hji
          rw [Pool.set_self] at hj
          obtain rfl : pl' = .poll n b := hj
          rcases hm.to_poll with ⟨hpl, rfl⟩ | ⟨hpl, rfl, hl, he⟩
          · exact hI j n b hpl
          · obtain ⟨hb, happ⟩ := hc b (by rw [hpl]; rfl)
            exact awaits_accept hb happ hl he
        · rw [Pool.set_other p _ hji] at hj
          have ha := hI j n b hj
          exact hm.awaits_caller (by simpa [hi] using hrole i) (accepted_lt hp ha.accepted) ha
    · rcases hm.log with hl | ⟨e, hl, -⟩
      · exact hl ▸ hE
      · rw [Pool.set_shared, hl]
        refine ⟨?_, hE⟩
        cases e with
        | returned n episode =>
          obtain ⟨b, hpl, hb, -⟩ := hm.returned hl
          exact (hI i n b hpl).advanced hb
        | _ => trivial

/-- In every run whose waiting clients have their requests accepted in the episode that they read, with no reset
    being applied: when a wait returns, a reset that began after its own request was accepted has taken effect,
    and the request is not in the pending flag. -/
theorem reset_handshake (hq : (simMachine ι).Reach RequestsFresh q) {later earlier : List (SimEvent ι)} {episode : Nat}
    (hlog : q.shared.log = later ++ .returned n episode :: earlier) : Applied n earlier ∧ ¬Queued n earlier :=
  (handshake_reach hq).2.law hlog

end

/-- A client waits for its reset from start to end. -/
def waitsForReset : List (Nat × SimChoice Unit) :=
  [(1, .call .resetApplied), (1, .go), (1, .go), (1, .go), (0, .go), (0, .go), (0, .go), (0, .go), (0, .go), (0, .go), (1, .go)]

theorem reset_handshake_alone : ∃ q, (simMachine Unit).run simInit waitsForReset = some q ∧
    q.shared.log.head? = some (.returned 0 1) ∧ Applied 0 q.shared.log.tail ∧ ¬Queued 0 q.shared.log.tail := by
  obtain ⟨q, hq, hm, hlog⟩ : ∃ q ∈ (simMachine Unit).run simInit waitsForReset,
      (simMachine Unit).Meets RequestsFresh simInit waitsForReset ∧
      q.shared.log = .returned 0 1 :: q.shared.log.tail := by decide
  refine ⟨q, hq, by rw [hlog]; rfl, ?_⟩
  have hsplit : q.shared.log = [] ++ .returned 0 1 :: q.shared.log.tail := hlog
  exact reset_handshake ⟨_, rfl, Machine.path_of_run hq hm⟩ hsplit

/-- A reset from the UI is being applied when a client asks for its own: the client reads episode 0, its request
    is accepted, and the reset of the UI advances the episode id. -/
def waitsDuringReset : List (Nat × SimChoice Unit) :=
  [(2, .call (.reset .ui)), (2, .go), (2, .go), (0, .go), (0, .go), (0, .go), (0, .go),
    (1, .call .resetApplied), (1, .go), (1, .go), (1, .go), (0, .go), (0, .go), (1, .go)]

/-- The wait returns with the client's request in the pending flag and no reset begun for it. -/
theorem wait_returns_for_another : ∃ q, (simMachine Unit).run simInit waitsDuringReset = some q ∧
    q.shared.pendingReset = true ∧ q.shared.log.head? = some (.returned 4 1) ∧
      ¬Applied 4 q.shared.log.tail ∧ Queued 4 q.shared.log.tail := by
  obtain ⟨q, hq, hp, hlog⟩ : ∃ q ∈ (simMachine Unit).run simInit waitsDuringReset, q.shared.pendingReset = true ∧
      q.shared.log = [.returned 4 1, .bumped 1, .restored, .accepted 4, .began, .cleared, .iterated, .accepted 0] := by
    decide
  refine ⟨q, hq, hp, by rw [hlog]; rfl, fun ⟨e, h⟩ => ?_, ?_⟩
  · -- The only reset of the record began before the request.
    have hb : [.began, .accepted 4].Sublist q.shared.log.tail := (List.suffix_append [_, _] _).sublist.trans h
    rw [hlog] at hb
    revert hb
    decide
  · rw [hlog]
    exact Or.inl rfl

end HumanoidLab
