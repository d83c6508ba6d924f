import HumanoidLab.Datasets.Fidelity
import HumanoidLab.Theorems.ControlTick
import HumanoidLab.Theorems.FreeWindow
import HumanoidLab.Theorems.Layouts
import Mathlib.Data.Prod.Lex

/-! Which token a row of a replay is compared with. On the wall clock it is the last one that had been sent. The simulated clock begins
    again with an episode and the rows are kept, so there it is that token only where the row is of the episode of the stream. -/

namespace HumanoidLab.Sonic
open Fallible Concurrency

/-! ### The search -/

section
variable {T : Type} [LinearOrder T] {send : List T} {t : T}

/-- The search ends behind the last time that is not after the one it looks for. -/
theorem searchsortedRight_iff (hsorted : send.Pairwise (· < ·)) {k : ℕ} :
    searchsortedRight send t = k + 1 ↔ ∃ m, send[k]? = some m ∧ m ≤ t ∧ ∀ n, send[k + 1]? = some n → t < n := by
  constructor
  · intro h
    have hidx : send.findIdx (t < ·) = k + 1 := h
    have hk : k < send.findIdx (t < ·) := by rw [hidx]; exact Nat.lt_succ_self k
    have hlen : k < send.length := hk.trans_le List.findIdx_le_length
    refine ⟨send[k], List.getElem?_eq_getElem hlen, not_lt.mp (of_decide_eq_false (List.not_of_lt_findIdx hk)), ?_⟩
    intro n hn
    obtain ⟨hlt, rfl⟩ := List.getElem?_eq_some_iff.mp hn
    have hat := @List.findIdx_getElem _ (fun x => decide (t < x)) send (hidx ▸ hlt)
    simp only [hidx] at hat
    exact of_decide_eq_true hat
  · rintro ⟨m, hm, hle, hnext⟩
    obtain ⟨hlen, rfl⟩ := List.getElem?_eq_some_iff.mp hm
    have hbefore : ∀ j (hj : j < send.length), j < k + 1 → send[j] ≤ t := by
      intro j hj hjk
      rcases (Nat.lt_succ_iff.mp hjk).eq_or_lt with rfl | hlt
      · exact hle
      · exact (List.pairwise_iff_getElem.mp hsorted j k hj hlen hlt).le.trans hle
    by_cases hend : k + 1 < send.length
    · refine (List.findIdx_eq hend).mpr ⟨decide_eq_true (hnext _ (List.getElem?_eq_getElem hend)), fun j hj => ?_⟩
      exact decide_eq_false (not_lt.mpr (hbefore j (hj.trans hend) hj))
    · have hall : send.findIdx (t < ·) = send.length := by
        refine List.findIdx_eq_length.mpr fun x hx => ?_
        obtain ⟨j, hj, rfl⟩ := List.getElem_of_mem hx
        exact decide_eq_false (not_lt.mpr (hbefore j hj (by omega)))
      rw [searchsortedRight, hall]
      omega

/-- It finds how many times are not after the one it looks for. -/
theorem le_iff_lt_searchsorted (hsorted : send.Pairwise (· < ·)) {j : ℕ} {x : T} (hj : send[j]? = some x) :
    x ≤ t ↔ j < searchsortedRight send t := by
  obtain ⟨hlen, rfl⟩ := List.getElem?_eq_some_iff.mp hj
  constructor
  · intro hle
    by_contra hlater
    have hidx : searchsortedRight send t < send.length := (not_lt.mp hlater).trans_lt hlen
    have hlt : t < send[searchsortedRight send t] := of_decide_eq_true (List.findIdx_getElem (w := hidx))
    rcases (not_lt.mp hlater).eq_or_lt with heq | hless
    · simp only [heq] at hlt
      exact absurd hle (not_le.mpr hlt)
    · exact absurd hle (not_le.mpr (hlt.trans (List.pairwise_iff_getElem.mp hsorted _ j hidx hlen hless)))
  · intro hlt
    exact not_lt.mp (of_decide_eq_false (List.not_of_lt_findIdx hlt))

end

/-! ### The order of a run -/

/-- A tick of an episode is not after another. -/
def momentLe (a b : ℕ × ℕ) : Prop := toLex a ≤ toLex b

theorem momentLe_iff {a b : ℕ × ℕ} : momentLe a b ↔ a.1 < b.1 ∨ a.1 = b.1 ∧ a.2 ≤ b.2 := Prod.Lex.toLex_le_toLex

theorem momentLe.trans {a b c : ℕ × ℕ} (hab : momentLe a b) (hbc : momentLe b c) : momentLe a c := le_trans (α := ℕ ×ₗ ℕ) hab hbc

section
variable {K : Type}

/-- The clock file was last written not before a moment. -/
def Shown (s : TokenReplay K) (a : ℕ × ℕ) : Prop := ∃ c, s.clock = some c ∧ momentLe a c.moment

/-- What the publisher had read when it sent a token before a row was recorded, and how many ticks lie between them in one episode. -/
structure SentBefore (row : RecordedRow K) (token : SentToken K) (m : ReplayReading K) : Prop where
  moment : momentLe m.moment row.moment
  elapsed : m.episodeId = row.episodeId → row.elapsed + m.tick ≤ row.row.tick + token.elapsed

/-- A token that was sent after a row. From the fourth tick of an episode on the clock shows a row when it is recorded. -/
structure SentAfter (row : RecordedRow K) (token : SentToken K) : Prop where
  moment : 0 < row.row.tick → ∀ m, token.reading = some m → momentLe row.moment m.moment
  elapsed : row.elapsed ≤ token.elapsed

variable [Field K] [LinearOrder K] {C : Control K} {shown : K → K} {paced : Bool} {s s' : TokenReplay K}

/-- What a tick wrote. -/
structure Written (C : Control K) (shown : K → K) (m : ReplayReading K) : Prop where
  text : m.simS = shown (m.tick * C.physicsDt)
  positive : 0 < m.tick

/-- A reading of the clock with which a token was sent. -/
structure ReadFrom (C : Control K) (shown : K → K) (s : TokenReplay K) (token : SentToken K) (m : ReplayReading K) : Prop where
  written : Written C shown m
  clock : Shown s m.moment
  elapsed : m.episodeId = s.state.episodeId → s.elapsed + m.tick ≤ s.state.tick + token.elapsed

structure RecordedIn (C : Control K) (s : TokenReplay K) (row : RecordedRow K) : Prop where
  simS : row.row.simS = row.row.tick * C.physicsDt
  sent : row.sent ≤ s.tokens.length
  elapsed : row.elapsed ≤ s.elapsed
  clock : 0 < row.row.tick → Shown s row.moment

/-- How the clock, the rows and the tokens of a run stand to one another. -/
structure RunOrder (C : Control K) (shown : K → K) (s : TokenReplay K) : Prop where
  clock : ∀ c, s.clock = some c → Written C shown c ∧ momentLe c.moment (s.state.episodeId, s.state.tick)
  current : 4 ≤ s.state.tick → ∃ c, s.clock = some c ∧ c.episodeId = s.state.episodeId ∧ c.tick % 4 = 0 ∧ s.state.tick < c.tick + 4
  tokens : ∀ token ∈ s.tokens, ∀ m, token.reading = some m → ReadFrom C shown s token m
  rows : ∀ row ∈ s.rows, RecordedIn C s row
  before : ∀ row ∈ s.rows, ∀ (j : ℕ) token, s.tokens[j]? = some token → j < row.sent →
    ∀ m, token.reading = some m → SentBefore row token m
  after : ∀ row ∈ s.rows, ∀ (j : ℕ) token, s.tokens[j]? = some token → row.sent ≤ j → SentAfter row token

theorem RunOrder.started : RunOrder C shown { state := C.started } where
  clock _ h := by cases h
  current h := absurd h (Nat.not_succ_le_zero 3)
  tokens _ h := by cases h
  rows _ h := by cases h
  before _ h := by cases h
  after _ h := by cases h

/-- A reading is not after the simulator. -/
theorem RunOrder.shown_le (h : RunOrder C shown s) {a : ℕ × ℕ} (ha : Shown s a) : momentLe a (s.state.episodeId, s.state.tick) := by
  obtain ⟨c, hc, hle⟩ := ha
  exact hle.trans (h.clock c hc).2

theorem RunOrder.record (h : RunOrder C shown s) (plant : Plant K) (root : RootSample K) (command : Option (CompleteRobotCommand K)) :
    RunOrder C shown { s with rows := s.record C plant root command } := by
  obtain _ | c := command
  · exact h
  by_cases hfourth : s.state.tick % 4 = 0
  swap
  · simpa only [TokenReplay.record, if_neg hfourth] using h
  simp only [TokenReplay.record, if_pos hfourth]
  have hmem {row : RecordedRow K} (hrow : row ∈ s.rows ++ [⟨s.state.episodeId, s.tokens.length, s.elapsed,
      C.trackingRow plant root s.state c⟩]) :
      row ∈ s.rows ∨ row = ⟨s.state.episodeId, s.tokens.length, s.elapsed, C.trackingRow plant root s.state c⟩ := by
    rcases List.mem_append.mp hrow with hrow | hrow
    · exact Or.inl hrow
    · exact Or.inr (List.mem_singleton.mp hrow)
  refine ⟨h.clock, h.current, fun token ht m hm => ?_, fun row hrow => ?_, fun row hrow j token hj hsent m hm => ?_,
    fun row hrow j token hj hsent => ?_⟩
  · obtain ⟨hwritten, hclock, helapsed⟩ := h.tokens token ht m hm
    exact ⟨hwritten, hclock, helapsed⟩
  · rcases hmem hrow with hrow | rfl
    · obtain ⟨hsim, hlen, helapsed, hclock⟩ := h.rows row hrow
      exact ⟨hsim, hlen, helapsed, hclock⟩
    · refine ⟨rfl, le_rfl, le_rfl, fun hpos => ?_⟩
      -- the row is at a fourth tick, so it is the tick that the clock shows
      have hpos : 0 < s.state.tick := hpos
      obtain ⟨reading, hreading, hepisode, htick, hlt⟩ := h.current (by omega)
      exact ⟨reading, hreading, momentLe_iff.mpr (Or.inr ⟨hepisode.symm, show s.state.tick ≤ reading.tick by omega⟩)⟩
  · rcases hmem hrow with hrow | rfl
    · exact h.before row hrow j token hj hsent m hm
    · have hread := h.tokens token (List.mem_of_getElem? hj) m hm
      exact ⟨h.shown_le hread.clock, hread.elapsed⟩
  · rcases hmem hrow with hrow | rfl
    · exact h.after row hrow j token hj hsent
    · exact absurd (List.getElem?_eq_some_iff.mp hj).1 (not_lt.mpr hsent)

/-- A tick, without the row that it recorded. -/
theorem RunOrder.advance (h : RunOrder C shown s) {t : ControlState K} (htick : t.tick = s.state.tick)
    (hepisode : t.episodeId = s.state.episodeId) :
    RunOrder C shown { s with
      state := { t with tick := t.tick + 1 }
      elapsed := s.elapsed + 1
      clock := if (t.tick + 1) % 4 = 0 then some ⟨t.episodeId, t.tick + 1, shown ((t.tick + 1 : ℕ) * C.physicsDt)⟩ else s.clock } := by
  rw [htick, hepisode]
  have hnow : momentLe (s.state.episodeId, s.state.tick) (s.state.episodeId, s.state.tick + 1) :=
    momentLe_iff.mpr (Or.inr ⟨rfl, Nat.le_succ _⟩)
  have hshown {a : ℕ × ℕ} (ha : Shown s a) : Shown { s with
      state := { t with tick := s.state.tick + 1 }
      elapsed := s.elapsed + 1
      clock := if (s.state.tick + 1) % 4 = 0 then
        some ⟨s.state.episodeId, s.state.tick + 1, shown ((s.state.tick + 1 : ℕ) * C.physicsDt)⟩ else s.clock } a := by
    by_cases hwrite : (s.state.tick + 1) % 4 = 0
    · exact ⟨_, if_pos hwrite, (h.shown_le ha).trans hnow⟩
    · obtain ⟨c, hc, hle⟩ := ha
      exact ⟨c, (if_neg hwrite).trans hc, hle⟩
  refine ⟨fun c hc => ?_, fun hfour => ?_, fun token ht m hm => ?_, fun row hrow => ?_, h.before, h.after⟩
  · dsimp only at hc
    split at hc
    · cases hc
      exact ⟨⟨rfl, Nat.succ_pos _⟩, le_rfl (α := ℕ ×ₗ ℕ)⟩
    · exact ⟨(h.clock c hc).1, (h.clock c hc).2.trans hnow⟩
  · dsimp only at hfour ⊢
    split
    · rename_i hwrite
      exact ⟨_, rfl, rfl, hwrite, Nat.lt_add_of_pos_right (by decide)⟩
    · obtain ⟨c, hc, hsame, hfourth, hlt⟩ := h.current (by omega)
      exact ⟨c, hc, hsame, hfourth, by omega⟩
  · obtain ⟨hwritten, hclock, helapsed⟩ := h.tokens token ht m hm
    refine ⟨hwritten, hshown hclock, fun hsame => ?_⟩
    have hle := helapsed hsame
    dsimp only
    omega
  · obtain ⟨hsim, hlen, helapsed, hclock⟩ := h.rows row hrow
    exact ⟨hsim, hlen, helapsed.trans (Nat.le_succ _), fun hpos => hshown (hclock hpos)⟩

theorem RunOrder.reset (h : RunOrder C shown s) : RunOrder C shown { s with state := C.resetEpisode s.state } := by
  refine ⟨fun c hc => ⟨(h.clock c hc).1, ?_⟩, fun hfour => absurd hfour (Nat.not_succ_le_zero 3), fun token ht m hm => ?_,
    fun row hrow => ?_, h.before, h.after⟩
  · have hle := momentLe_iff.mp (h.clock c hc).2
    refine momentLe_iff.mpr (Or.inl (show c.episodeId < s.state.episodeId + 1 from ?_))
    exact Nat.lt_succ_of_le (hle.elim le_of_lt fun heq => heq.1.le)
  · obtain ⟨hwritten, hclock, -⟩ := h.tokens token ht m hm
    refine ⟨hwritten, hclock, fun hsame => ?_⟩
    have hle := momentLe_iff.mp (h.shown_le hclock)
    have hsame : m.episodeId = s.state.episodeId + 1 := hsame
    have hep : m.episodeId ≤ s.state.episodeId := hle.elim le_of_lt fun heq => heq.1.le
    omega
  · obtain ⟨hsim, hlen, helapsed, hclock⟩ := h.rows row hrow
    exact ⟨hsim, hlen, helapsed, hclock⟩

theorem RunOrder.send (h : RunOrder C shown s) {reading : Option (ReplayReading K)} (hreading : ∀ m, reading = some m → s.clock = some m)
    (wallTimeNs : ℤ) : RunOrder C shown { s with tokens := s.tokens ++ [⟨reading, wallTimeNs, s.elapsed⟩] } := by
  refine ⟨h.clock, h.current, fun token ht m hm => ?_, fun row hrow => ?_, fun row hrow j token hj hsent => ?_,
    fun row hrow j token hj hsent => ?_⟩
  · rcases List.mem_append.mp ht with ht | ht
    · obtain ⟨hwritten, hclock, helapsed⟩ := h.tokens token ht m hm
      exact ⟨hwritten, hclock, helapsed⟩
    · cases List.mem_singleton.mp ht
      obtain ⟨hwritten, hle⟩ := h.clock m (hreading m hm)
      refine ⟨hwritten, ⟨m, hreading m hm, le_rfl (α := ℕ ×ₗ ℕ)⟩, fun hsame => ?_⟩
      have hsame : m.episodeId = s.state.episodeId := hsame
      rcases momentLe_iff.mp hle with hlt | ⟨-, htick⟩
      · exact absurd hsame hlt.ne
      · have htick : m.tick ≤ s.state.tick := htick
        dsimp only
        omega
  · obtain ⟨hsim, hlen, helapsed, hclock⟩ := h.rows row hrow
    exact ⟨hsim, hlen.trans (by simp), helapsed, hclock⟩
  · rw [List.getElem?_append_left (hsent.trans_le (h.rows row hrow).sent)] at hj
    exact h.before row hrow j token hj hsent
  · by_cases hold : j < s.tokens.length
    · rw [List.getElem?_append_left hold] at hj
      exact h.after row hrow j token hj hsent
    · rw [List.getElem?_append_right (not_lt.mp hold)] at hj
      obtain rfl := List.mem_singleton.mp (List.mem_of_getElem? hj)
      refine ⟨fun hpos m hm => ?_, (h.rows row hrow).elapsed⟩
      obtain ⟨c, hc, hle⟩ := (h.rows row hrow).clock hpos
      cases hc.symm.trans (hreading m hm)
      exact hle

theorem RunOrder.step {a : TokenReplayInput K} (h : RunOrder C shown s) (hstep : (tokenReplayMachine C shown paced).step s a = some s') :
    RunOrder C shown s' := by
  cases a with
  | tick plant polled root =>
    simp only [tokenReplayMachine] at hstep
    split at hstep
    · rename_i command t hr
      cases hstep
      have htick := applyControl_tick hr
      exact (h.record plant root command).advance htick.1 htick.2
    · cases hstep
  | reset =>
    cases hstep
    exact h.reset
  | start =>
    simp only [tokenReplayMachine] at hstep
    split at hstep
    · obtain ⟨reading, -, rfl⟩ := Option.map_eq_some_iff.mp hstep
      refine ⟨h.clock, h.current, fun token ht m hm => ?_, fun row hrow => ?_, h.before, h.after⟩
      · obtain ⟨hwritten, hclock, helapsed⟩ := h.tokens token ht m hm
        exact ⟨hwritten, hclock, helapsed⟩
      · obtain ⟨hsim, hlen, helapsed, hclock⟩ := h.rows row hrow
        exact ⟨hsim, hlen, helapsed, hclock⟩
    · cases hstep
  | send wallTimeNs =>
    simp only [tokenReplayMachine] at hstep
    split at hstep
    · split at hstep
      · rename_i start reading _ hclock
        split at hstep
        · cases hstep
          exact h.send (fun m hm => hm ▸ hclock) wallTimeNs
        · cases hstep
      · cases hstep
    · cases hstep
      exact h.send (fun m hm => by cases hm) wallTimeNs

theorem runOrder_reach (h : (tokenReplayMachine C shown paced).Reach Machine.Free s) : RunOrder C shown s := by
  refine h.invariant (fun s hs => ?_) fun _ _ _ _ hs _ hstep => hs.step hstep
  cases hs
  exact .started

end

/-! ### What is scored -/

theorem mem_select {α : Type} {mask : List Bool} {xs : List α} {x : α} :
    x ∈ select mask xs ↔ ∃ i : ℕ, mask[i]? = some true ∧ xs[i]? = some x := by
  constructor
  · intro h
    obtain ⟨⟨flag, y⟩, hmem, rfl⟩ := List.mem_map.mp h
    obtain ⟨hzip, hflag⟩ := List.mem_filter.mp hmem
    obtain ⟨i, hi⟩ := List.mem_iff_getElem?.mp hzip
    obtain ⟨hmask, hx⟩ := List.getElem?_zip_eq_some.mp hi
    exact ⟨i, hflag ▸ hmask, hx⟩
  · rintro ⟨i, hmask, hx⟩
    have hzip : (true, x) ∈ mask.zip xs := List.mem_iff_getElem?.mpr ⟨i, List.getElem?_zip_eq_some.mpr ⟨hmask, hx⟩⟩
    exact List.mem_map.mpr ⟨(true, x), List.mem_filter.mpr ⟨hzip, rfl⟩, rfl⟩

section
variable {T : Type} [LinearOrder T] [Add T] {send times : List T} {tolerance : T} {active : List Bool}

/-- The rows that are scored of an alignment, with their tokens. -/
def scoredRows (a : RowAlignment) (active : List Bool) (rows : ℕ) : List (ℕ × ℤ) :=
  select (List.zipWith (fun inStream active => inStream && !active) a.inStream active) ((List.range rows).zip a.index)

theorem mem_scoredRows {p : ℕ × ℤ} : p ∈ scoredRows (alignTimes send times tolerance) active times.length ↔
    ∃ (x : T) (k : ℕ), times[p.1]? = some x ∧ active[p.1]? = some false ∧ p.2 = k ∧ searchsortedRight send x = k + 1 ∧
      ∃ l, send.getLast? = some l ∧ x ≤ l + tolerance := by
  obtain ⟨i, j⟩ := p
  rw [scoredRows, mem_select]
  constructor
  · rintro ⟨i', hmask, hpair⟩
    rw [List.getElem?_zip_eq_some, alignTimes] at hpair
    obtain ⟨hi, hj⟩ := hpair
    obtain ⟨-, rfl⟩ : i' < times.length ∧ i' = i := by
      obtain ⟨hlt, heq⟩ := List.getElem?_eq_some_iff.mp hi
      rw [List.length_range] at hlt
      exact ⟨hlt, by rw [List.getElem_range] at heq; exact heq⟩
    rw [List.getElem?_map] at hj
    obtain ⟨x, hx, rfl⟩ := Option.map_eq_some_iff.mp hj
    rw [List.getElem?_zipWith, alignTimes, List.getElem?_map, hx] at hmask
    obtain ⟨flag, hflag, hmask⟩ : ∃ flag, active[i']? = some flag ∧
        ((0 ≤ (searchsortedRight send x : ℤ) - 1 && send.getLast?.any (x ≤ · + tolerance)) && !flag) = true := by
      cases hactive : active[i']? with
      | none =>
        rw [hactive] at hmask
        cases hmask
      | some flag =>
        rw [hactive] at hmask
        exact ⟨flag, rfl, Option.some.inj hmask⟩
    simp only [Bool.and_eq_true, decide_eq_true_eq, Bool.not_eq_true', Option.any_eq_true] at hmask
    obtain ⟨⟨hindex, l, hl, hle⟩, rfl⟩ := hmask
    exact ⟨x, searchsortedRight send x - 1, hx, hflag, by omega, by omega, l, hl, hle⟩
  · rintro ⟨x, k, hx, hflag, rfl, hsearch, l, hl, hle⟩
    have hlt := (List.getElem?_eq_some_iff.mp hx).1
    refine ⟨i, ?_, ?_⟩
    · rw [List.getElem?_zipWith, alignTimes, List.getElem?_map, hx, hflag]
      refine congrArg some ?_
      simp only [Bool.and_eq_true, decide_eq_true_eq, Bool.not_false, and_true, Option.any_eq_true, hsearch]
      exact ⟨by omega, l, hl, hle⟩
    · rw [List.getElem?_zip_eq_some, alignTimes, List.getElem?_map, hx]
      refine ⟨?_, congrArg some ?_⟩
      · rw [List.getElem?_range hlt]
      · simp only [hsearch]
        omega

end

section
variable {K : Type} [Field K] [LinearOrder K] {N : Numerics K} {timed : Bool} {C : Control K} {shown : K → K} {paced : Bool}
  {s : TokenReplay K} {t : Tracking K} {jointPos : List (List K)} {timeline : PublishedTimeline K} {frameIndex : List ℤ}
  {r : Comparison K}

theorem compare_ok (h : compareReferenceCommandResponse jointPos t timeline = .ok r) :
    timeline.sentWallTimeNs.IsChain (· < ·) ∧ r.coverage.simClock = timeline.useSimClock ∧
      ∃ a, alignRows t timeline = .ok a ∧ r.scored = scoredRows a t.supportActive t.simS.length := by
  obtain ⟨hsent, h⟩ := guard_ok.mp h
  obtain ⟨-, h⟩ := guard_ok.mp h
  obtain ⟨body, -, h⟩ := bind_ok h
  obtain ⟨-, h⟩ := guard_ok.mp h
  obtain ⟨a, ha, h⟩ := bind_ok h
  simp only [not_or, not_not] at hsent
  dsimp only at h
  split at h
  · cases h
    exact ⟨hsent.2.2, rfl, a, ha, rfl⟩
  · cases h

/-- No later than a tenth of a second behind the last token, on the clock that aligns the trace with the stream. -/
def InTail (C : Control K) (t : Tracking K) (simClock : Bool) (i : ℕ) (row : RecordedRow K) (last : SentToken K) : Prop :=
  if simClock then row.elapsed * C.physicsDt ≤ last.elapsed * C.physicsDt + 0.1
  else ∃ wall, t.wallTimeNs[i]? = some wall ∧ wall ≤ last.wallTimeNs + 100000000

/-- The token of a pair is the last one that had been sent when its row was recorded, which was no later than the tail of the stream. -/
def PairedInRun (C : Control K) (s : TokenReplay K) (t : Tracking K) (simClock : Bool) (p : ℕ × ℤ) : Prop :=
  ∃ row last, s.rows[p.1]? = some row ∧ s.tokens.getLast? = some last ∧ 0 < row.sent ∧ p.2 = row.sent - 1 ∧
    InTail C t simClock p.1 row last

/-! ### The simulated clock -/

/-- A row whose simulated time is between those of a token and of the next one, or in the tail of the last. -/
structure BehindToken (s : TokenReplay K) (row : RecordedRow K) (k : ℕ) (token : SentToken K) (m : ReplayReading K) : Prop where
  sent : s.tokens[k]? = some token
  read : token.reading = some m
  since : m.simS ≤ row.row.simS
  next : ∀ next n, s.tokens[k + 1]? = some next → next.reading = some n → row.row.simS < n.simS
  tail : ∃ last l, s.tokens.getLast? = some last ∧ last.reading = some l ∧ row.row.simS ≤ l.simS + 0.1

/-- No reset lies between the row and what the publisher had read for the token, nor between the row and what it had read for the next
    one, and the row at the time that it had read was recorded after it sent the token. -/
structure RowAgrees (C : Control K) (s : TokenReplay K) (row : RecordedRow K) (k : ℕ) (token : SentToken K) (m : ReplayReading K) :
    Prop where
  episode : m.episodeId ≤ row.episodeId
  next : ∀ next n, s.tokens[k + 1]? = some next → next.reading = some n → row.episodeId ≤ n.episodeId
  own : m.moment = row.moment → k < row.sent
  tail : s.tokens[k + 1]? = none → m.episodeId = row.episodeId ∨ row.elapsed * C.physicsDt ≤ token.elapsed * C.physicsDt + 0.1

/-- The free rows in the stream. -/
def SimClockAgrees (C : Control K) (s : TokenReplay K) : Prop :=
  ∀ row ∈ s.rows, row.row.isFree = true → ∀ k token m, BehindToken s row k token m → RowAgrees C s row k token m

/-- On the wall clock the free rows in the stream are later than the tokens that were sent before them, and earlier than the others. -/
def WallClockAgrees (s : TokenReplay K) (t : Tracking K) : Prop :=
  ∀ (i : ℕ) row wall, s.rows[i]? = some row → row.row.isFree = true → t.wallTimeNs[i]? = some wall →
    (∃ first, s.tokens.head? = some first ∧ first.wallTimeNs ≤ wall) →
    (∃ last, s.tokens.getLast? = some last ∧ wall ≤ last.wallTimeNs + 100000000) →
    ∀ (j : ℕ) token, s.tokens[j]? = some token → (token.wallTimeNs ≤ wall ↔ j < row.sent)

end

section
variable {K : Type} {N : Numerics K} {s : TokenReplay K} {t : Tracking K} {frameIndex : List ℤ} {row : RecordedRow K}

theorem readings_of_sim (h : (savedTimeline s frameIndex).useSimClock = true) : ∀ token ∈ s.tokens, token.reading.isSome = true := by
  intro token ht
  simp only [PublishedTimeline.useSimClock, savedTimeline, Option.getD_some, List.length_map, decide_true, Bool.true_and,
    List.all_map, List.all_eq_true, Function.comp_apply, Option.isSome_map] at h
  exact h token ht

theorem map_some_filterMap {α : Type} {xs : List (Option α)} (h : ∀ x ∈ xs, x.isSome = true) : (xs.filterMap id).map some = xs := by
  induction xs with
  | nil => rfl
  | cons x xs ih =>
    obtain ⟨a, rfl⟩ := Option.isSome_iff_exists.mp (h x List.mem_cons_self)
    rw [List.filterMap_cons_some (by rfl), List.map_cons, ih fun y hy => h y (List.mem_cons_of_mem _ hy)]

theorem simTimes_some (hread : ∀ token ∈ s.tokens, token.reading.isSome = true) :
    (savedTimeline s frameIndex).simTimes.map some = s.tokens.map fun token => token.reading.map (·.simS) := by
  refine map_some_filterMap fun x hx => ?_
  obtain ⟨token, ht, rfl⟩ := List.mem_map.mp hx
  rw [Option.isSome_map]
  exact hread token ht

theorem simTimes_at (hread : ∀ token ∈ s.tokens, token.reading.isSome = true) {k : ℕ} {x : K} :
    (savedTimeline s frameIndex).simTimes[k]? = some x ↔
      ∃ token m, s.tokens[k]? = some token ∧ token.reading = some m ∧ m.simS = x := by
  have hat : ((savedTimeline s frameIndex).simTimes[k]?).map some = s.tokens[k]?.map fun token => token.reading.map (·.simS) := by
    rw [← List.getElem?_map, simTimes_some hread, List.getElem?_map]
  constructor
  · intro hx
    rw [hx] at hat
    obtain ⟨token, htoken, hsim⟩ := Option.map_eq_some_iff.mp hat.symm
    obtain ⟨m, hm, rfl⟩ := Option.map_eq_some_iff.mp hsim
    exact ⟨token, m, htoken, hm, rfl⟩
  · rintro ⟨token, m, htoken, hm, rfl⟩
    rw [htoken, Option.map_some, hm, Option.map_some] at hat
    obtain ⟨y, hy, hxy⟩ := Option.map_eq_some_iff.mp hat
    rw [hy, Option.some.inj hxy]

/-- A row of a trace is scored on the wall clock with the token that the search finds. -/
theorem mem_scored_wall (hloaded : Loaded N (s.rows.map (·.row)) t) (hlen : t.wallTimeNs.length = t.simS.length) {p : ℕ × ℤ} :
    p ∈ scoredRows (alignTimes (s.tokens.map (·.wallTimeNs)) t.wallTimeNs 100000000) t.supportActive t.simS.length ↔
      ∃ row wall, ∃ k : ℕ, s.rows[p.1]? = some row ∧ row.row.isFree = true ∧ t.wallTimeNs[p.1]? = some wall ∧ p.2 = k ∧
        searchsortedRight (s.tokens.map (·.wallTimeNs)) wall = k + 1 ∧
        ∃ last, s.tokens.getLast? = some last ∧ wall ≤ last.wallTimeNs + 100000000 := by
  rw [← hlen, mem_scoredRows, hloaded.supportActive, List.map_map]
  simp only [List.getElem?_map, List.getLast?_map, Option.map_eq_some_iff, Function.comp_apply]
  constructor
  · rintro ⟨wall, k, hwall, ⟨row, hrow, hflag⟩, hindex, hsearch, _, ⟨last, hlast, rfl⟩, hle⟩
    exact ⟨row, wall, k, hrow, by rw [TrackingRow.isFree, hflag]; rfl, hwall, hindex, hsearch, last, hlast, hle⟩
  · rintro ⟨row, wall, k, hrow, hfree, hwall, hindex, hsearch, last, hlast, hle⟩
    refine ⟨wall, k, hwall, ⟨row, hrow, ?_⟩, hindex, hsearch, _, ⟨last, hlast, rfl⟩, hle⟩
    rwa [TrackingRow.isFree, Bool.not_eq_true'] at hfree

/-- The search finds how many tokens had been sent where the wall times have the order of the run. -/
theorem sent_eq_search_iff (hsorted : (s.tokens.map (·.wallTimeNs)).Pairwise (· < ·)) (hsent : row.sent ≤ s.tokens.length) {wall : ℤ} :
    row.sent = searchsortedRight (s.tokens.map (·.wallTimeNs)) wall ↔
      ∀ (j : ℕ) token, s.tokens[j]? = some token → (token.wallTimeNs ≤ wall ↔ j < row.sent) := by
  have hsearch : ∀ (j : ℕ) token, s.tokens[j]? = some token →
      (token.wallTimeNs ≤ wall ↔ j < searchsortedRight (s.tokens.map (·.wallTimeNs)) wall) := fun j token hj =>
    le_iff_lt_searchsorted hsorted (by rw [List.getElem?_map, hj]; rfl)
  constructor
  · intro heq
    rwa [heq]
  · intro hagree
    have hfound : searchsortedRight (s.tokens.map (·.wallTimeNs)) wall ≤ s.tokens.length :=
      List.findIdx_le_length.trans_eq (List.length_map _)
    by_contra hne
    -- the first token on which the two differ
    have hj : min row.sent (searchsortedRight (s.tokens.map (·.wallTimeNs)) wall) < s.tokens.length := by omega
    have hiff := (hagree _ _ (List.getElem?_eq_getElem hj)).symm.trans (hsearch _ _ (List.getElem?_eq_getElem hj))
    omega

end

section
variable {K : Type} [Field K] [LinearOrder K] {N : Numerics K} {C : Control K} {shown : K → K} {paced timed : Bool}
  {s : TokenReplay K} {t : Tracking K} {jointPos : List (List K)} {frameIndex : List ℤ} {r : Comparison K} {row : RecordedRow K}
  {k : ℕ} {token : SentToken K} {m : ReplayReading K}

/-- A row of a trace is scored on the simulated clock with the token that its time is behind. -/
theorem mem_scored_sim (hloaded : Loaded N (s.rows.map (·.row)) t) (hread : ∀ token ∈ s.tokens, token.reading.isSome = true)
    (hsorted : (savedTimeline s frameIndex).simTimes.Pairwise (· < ·)) {p : ℕ × ℤ} :
    p ∈ scoredRows (alignTimes (savedTimeline s frameIndex).simTimes t.simS 0.1) t.supportActive t.simS.length ↔
      ∃ row token m, ∃ k : ℕ, s.rows[p.1]? = some row ∧ row.row.isFree = true ∧ p.2 = k ∧ BehindToken s row k token m := by
  have hlength : (savedTimeline s frameIndex).simTimes.length = s.tokens.length := by
    rw [← List.length_map (f := some), simTimes_some hread, List.length_map]
  rw [mem_scoredRows, hloaded.simS, hloaded.supportActive, List.map_map, List.map_map]
  simp only [List.getElem?_map, Option.map_eq_some_iff, Function.comp_apply, searchsortedRight_iff hsorted, List.getLast?_eq_getElem?,
    hlength, simTimes_at hread]
  constructor
  · rintro ⟨_, k, ⟨row, hrow, rfl⟩, ⟨row', hrow', hflag⟩, hindex, ⟨_, ⟨token, m, htoken, hm, rfl⟩, hle, hnext⟩,
      _, ⟨last, l, hlast, hl, rfl⟩, htail⟩
    cases hrow.symm.trans hrow'
    refine ⟨row, token, m, k, hrow, by rw [TrackingRow.isFree, hflag]; rfl, hindex, htoken, hm, hle, fun next n hk hn => ?_,
      last, l, by rwa [List.getLast?_eq_getElem?], hl, htail⟩
    exact hnext _ ⟨next, n, hk, hn, rfl⟩
  · rintro ⟨row, token, m, k, hrow, hfree, hindex, htoken, hm, hle, hnext, last, l, hlast, hl, htail⟩
    rw [List.getLast?_eq_getElem?] at hlast
    refine ⟨_, k, ⟨row, hrow, rfl⟩, ⟨row, hrow, ?_⟩, hindex, ⟨_, ⟨token, m, htoken, hm, rfl⟩, hle, ?_⟩, _, ⟨last, l, hlast, hl, rfl⟩, htail⟩
    · rwa [TrackingRow.isFree, Bool.not_eq_true'] at hfree
    · rintro _ ⟨next, n, hk, hn, rfl⟩
      exact hnext next n hk hn

variable [IsStrictOrderedRing K]

/-- The row is of the episode in which the token was sent, or the tail is that of the ticks. -/
theorem tail_of_agrees (hshown : ∀ m n : ℕ, shown (m * C.physicsDt) ≤ n * C.physicsDt ↔ m ≤ n) (hwritten : Written C shown m)
    (hrow : row.row.simS = row.row.tick * C.physicsDt) (hbefore : SentBefore row token m) (hsame : m.episodeId = row.episodeId)
    (htail : row.row.simS ≤ m.simS + 0.1) : row.elapsed * C.physicsDt ≤ token.elapsed * C.physicsDt + 0.1 := by
  have helapsed : (row.elapsed : K) + m.tick ≤ row.row.tick + token.elapsed := by exact_mod_cast hbefore.elapsed hsame
  have hticks := mul_le_mul_of_nonneg_right helapsed C.dt_positive.le
  have htext : m.simS ≤ m.tick * C.physicsDt := hwritten.text ▸ (hshown m.tick m.tick).mpr le_rfl
  rw [add_mul, add_mul, ← hrow] at hticks
  linarith

/-- The token that a row is behind is the last one that had been sent, and the row is in the tail of the stream, where the row agrees. -/
theorem agrees_iff (hshown : ∀ m n : ℕ, shown (m * C.physicsDt) ≤ n * C.physicsDt ↔ m ≤ n) (h : RunOrder C shown s)
    (hread : ∀ token ∈ s.tokens, token.reading.isSome = true) (hrow : row ∈ s.rows) (hbehind : BehindToken s row k token m) :
    (row.sent = k + 1 ∧ ∃ last, s.tokens.getLast? = some last ∧
      row.elapsed * C.physicsDt ≤ last.elapsed * C.physicsDt + 0.1) ↔ RowAgrees C s row k token m := by
  obtain ⟨htoken, hreading, hsince, hnext, last, l, hlast, hl, htail⟩ := hbehind
  have hwritten := (h.tokens token (List.mem_of_getElem? htoken) m hreading).written
  have hsim := (h.rows row hrow).simS
  have hpassed : m.tick ≤ row.row.tick := (hshown _ _).mp (by rw [← hwritten.text, ← hsim]; exact hsince)
  have hpositive : 0 < row.row.tick := hwritten.positive.trans_le hpassed
  have hfuture : ∀ next n, s.tokens[k + 1]? = some next → next.reading = some n → row.row.tick < n.tick := by
    intro next n hk hn
    have hlt := hnext next n hk hn
    rw [(h.tokens next (List.mem_of_getElem? hk) n hn).written.text, hsim] at hlt
    by_contra hle
    exact absurd ((hshown _ _).mpr (not_lt.mp hle)) (not_le.mpr hlt)
  have hend : k + 1 = s.tokens.length → last = token ∧ l = m := by
    intro hlen
    rw [List.getLast?_eq_getElem?, ← hlen, Nat.add_sub_cancel] at hlast
    cases hlast.symm.trans htoken
    exact ⟨rfl, Option.some.inj (hl.symm.trans hreading)⟩
  have hlen : k < s.tokens.length := (List.getElem?_eq_some_iff.mp htoken).1
  constructor
  · rintro ⟨hsent, last', hlast', hwithin⟩
    cases hlast'.symm.trans hlast
    refine ⟨?_, fun next n hk hn => ?_, fun _ => by omega, fun hnone => Or.inr ?_⟩
    · have hle := (h.before row hrow k token htoken (by omega) m hreading).moment
      exact (momentLe_iff.mp hle).elim le_of_lt fun heq => heq.1.le
    · have hle := (h.after row hrow (k + 1) next hk hsent.le).moment hpositive n hn
      exact (momentLe_iff.mp hle).elim le_of_lt fun heq => heq.1.le
    · rw [List.getElem?_eq_none_iff] at hnone
      rw [← (hend (by omega)).1]
      exact hwithin
  · intro hagrees
    have hsent : k < row.sent := by
      by_contra hlater
      have hle := (h.after row hrow k token htoken (not_lt.mp hlater)).moment hpositive m hreading
      rcases momentLe_iff.mp hle with hlt | ⟨heq, htick⟩
      · exact absurd hagrees.episode (not_le.mpr hlt)
      · exact hlater (hagrees.own (Prod.ext heq.symm (hpassed.antisymm htick)))
    have hunsent : row.sent ≤ k + 1 := by
      by_contra hmore
      have hmore : k + 1 < s.tokens.length := (not_le.mp hmore).trans_le (h.rows row hrow).sent
      obtain ⟨n, hn⟩ := Option.isSome_iff_exists.mp (hread _ (List.getElem_mem hmore))
      have hk : s.tokens[k + 1]? = some s.tokens[k + 1] := List.getElem?_eq_getElem hmore
      have hle := (h.before row hrow (k + 1) _ hk (by omega) n hn).moment
      rcases momentLe_iff.mp hle with hlt | ⟨-, htick⟩
      · exact absurd (hagrees.next _ n hk hn) (not_le.mpr hlt)
      · exact absurd htick (not_le.mpr (hfuture _ n hk hn))
    refine ⟨by omega, last, hlast, ?_⟩
    by_cases hmore : k + 1 < s.tokens.length
    · -- the last token was sent after the row
      rw [List.getLast?_eq_getElem?] at hlast
      have hle := (h.after row hrow (s.tokens.length - 1) last hlast (by omega)).elapsed
      have hticks := mul_le_mul_of_nonneg_right (Nat.cast_le (α := K).mpr hle) C.dt_positive.le
      exact hticks.trans (le_add_of_nonneg_right (by norm_num))
    · obtain ⟨rfl, rfl⟩ := hend (by omega)
      rcases hagrees.tail (List.getElem?_eq_none (by omega)) with hsame | hwithin
      · exact tail_of_agrees hshown hwritten hsim (h.before row hrow k last htoken hsent l hreading) hsame htail
      · exact hwithin

end

/-! ### A reset before the stream -/

/-- The small robot without the band. -/
theorem smallBinding_resolved : smallBinding.Resolved := startController_resolved small_start

def replayControl : Control ℚ where
  toBinding := smallBinding
  resolved := smallBinding_resolved
  physicsDt := 1 / 200
  dt_positive := physics_dt_positive
  support := none

def replayCommand (episodeId sequence : ℕ) : CompleteRobotCommand ℚ :=
  let group := fun schema name => ⟨schema, sequence, [name], [0], [0], [0], [1], [0], 100⟩
  ⟨episodeId, group bodyCommandSchema "waist_yaw_joint", some (group dex3CommandSchema "left_hand_thumb_0_joint"),
    some (group dex3CommandSchema "right_hand_thumb_0_joint")⟩

/-- Ticks of an episode, each with a command, 5 ms apart. -/
def replayTicks (episodeId first count : ℕ) : List (TokenReplayInput ℚ) :=
  (List.range count).map fun i : ℕ =>
    .tick smallPlant (.ok (some (replayCommand episodeId (first + i)))) ⟨[0, 0, 1], [1, 0, 0, 0], (first + i : ℕ) * 5000000⟩

/-- The robot is reset before the stream, is sent two tokens, and is reset after it. -/
def replayedOnce : List (TokenReplayInput ℚ) :=
  replayTicks 0 0 2 ++ [.reset] ++ replayTicks 1 2 4 ++ [.start, .send 31000000] ++ replayTicks 1 6 4 ++ [.send 51000000] ++
    replayTicks 1 10 1 ++ [.reset] ++ replayTicks 2 11 1

/-- The robot runs for five ticks, is reset, and is sent two tokens. -/
def replayedAfterReset : List (TokenReplayInput ℚ) :=
  replayTicks 0 0 5 ++ [.reset] ++ replayTicks 1 5 4 ++ [.start, .send 46000000] ++ replayTicks 1 9 4 ++ [.send 66000000]

def replayOf (inputs : List (TokenReplayInput ℚ)) : Option (TokenReplay ℚ) :=
  (tokenReplayMachine replayControl id true).run { state := replayControl.started } inputs

/-- The reference has two frames. -/
def referenceFrames : List (List ℚ) := List.replicate 2 (List.replicate 29 0)

def comparisonOf (s : TokenReplay ℚ) : Option (Comparison ℚ) :=
  (loadTracking exactNumerics true (s.rows.map (·.row))).toOption.bind fun t =>
    (compareReferenceCommandResponse referenceFrames t (savedTimeline s [0, 1])).toOption

/-- What is seen of a run: when each row was recorded and after how many tokens, what was read for each token, and the pairs. -/
structure ReplaySeen where
  rows : List (ℕ × ℚ × ℕ)
  tokens : List (Option (ℕ × ℚ))
  pairs : List (ℕ × ℤ)
  simClock : Bool
  deriving DecidableEq

def seenRow (row : RecordedRow ℚ) : ℕ × ℚ × ℕ := (row.episodeId, row.row.simS, row.sent)

def seenToken (token : SentToken ℚ) : Option (ℕ × ℚ) := token.reading.map fun m => (m.episodeId, m.simS)

def replaySeen (inputs : List (TokenReplayInput ℚ)) : Option ReplaySeen :=
  (replayOf inputs).bind fun s => (comparisonOf s).map fun r =>
    ⟨s.rows.map seenRow, s.tokens.map seenToken, r.scored, r.coverage.simClock⟩

theorem toOption_eq_some {ε α : Type} {x : Except ε α} {a : α} (h : x.toOption = some a) : x = .ok a := by
  cases x with
  | error e => cases h
  | ok b =>
    cases h
    rfl

/-- A run that is seen is a run whose trace is compared. -/
theorem replaySeen_ok {inputs : List (TokenReplayInput ℚ)} {seen : ReplaySeen} (h : replaySeen inputs = some seen) :
    ∃ s t r, (tokenReplayMachine replayControl id true).Reach Machine.Free s ∧
      loadTracking exactNumerics true (s.rows.map (·.row)) = .ok t ∧
      compareReferenceCommandResponse referenceFrames t (savedTimeline s [0, 1]) = .ok r ∧
      s.rows.map seenRow = seen.rows ∧ s.tokens.map seenToken = seen.tokens ∧ r.scored = seen.pairs ∧
      r.coverage.simClock = seen.simClock := by
  obtain ⟨s, hs, hseen⟩ := Option.bind_eq_some_iff.mp h
  obtain ⟨r, hr, rfl⟩ := Option.map_eq_some_iff.mp hseen
  obtain ⟨t, ht, hcompare⟩ := Option.bind_eq_some_iff.mp hr
  exact ⟨s, t, r, ⟨_, rfl, Machine.path_of_run hs (Machine.meets_free _ _)⟩, toOption_eq_some ht, toOption_eq_some hcompare, rfl, rfl,
    rfl, rfl⟩

/-- The text of the clock is exact. -/
theorem replayClock_exact (m n : ℕ) :
    id (m * replayControl.physicsDt) ≤ n * replayControl.physicsDt ↔ m ≤ n := by
  rw [id, mul_le_mul_iff_left₀ replayControl.dt_positive, Nat.cast_le]

end HumanoidLab.Sonic
