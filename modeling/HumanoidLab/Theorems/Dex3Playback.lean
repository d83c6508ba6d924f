import HumanoidLab.Theorems.Dex3Provenance
import Mathlib.Data.Prod.Lex

/-! The Dex3 node never plays backwards: its targets follow the chunks in the order in which they were taken over, and the rows of a chunk
    in theirs. A held target keeps its place. -/

namespace HumanoidLab.FluxDex3
open Concurrency Rounding

variable {S : Type} {config : NodeConfig} {timeout : ℚ} {policy : Policy S} {s t : System S} {j k : Journal}

/-! ### The scheduler -/

theorem float64_mono {x y : ℚ} (h : x ≤ y) : Psi0Dex3.float64 x ≤ Psi0Dex3.float64 y := roundBinary_mono (by decide) h

/-- With time, later rows are due. -/
theorem due_mono {now now' : ℚ} {e : Executor} (h : now ≤ now') : e.due config.executor now ≤ e.due config.executor now' := by
  have hperiod : 0 ≤ config.executor.period := roundBinary_nonneg (div_nonneg zero_le_one (by show (0 : ℚ) ≤ 30; norm_num))
  have helapsed : Psi0Dex3.float64 (now - e.started) ≤ Psi0Dex3.float64 (now' - e.started) := float64_mono (sub_le_sub_right h _)
  have hsum := float64_mono (add_le_add_left helapsed (Psi0Dex3.float64 (1 / 10 ^ 9)))
  exact Nat.floor_mono (max_le_max le_rfl (float64_mono (div_le_div_of_nonneg_right hsum hperiod)))

theorem due_congr {executorConfig : ExecutorConfig} {now : ℚ} {e e' : Executor} (h : e'.started = e.started) :
    e'.due executorConfig now = e.due executorConfig now := by
  unfold Executor.due
  rw [h]

theorem Chunk.getElem?_row (c : Chunk) {i : Nat} (hi : i < 32) : c.rows[i]? = some (c.row i hi) :=
  List.getElem?_eq_getElem (c.length ▸ hi)

/-- A tick plays a row of the chunk, or the first one of the next. -/
theorem tick_row {executorConfig : ExecutorConfig} {now : ℚ} {e e' : Executor} {target : List ℚ}
    (h : e.tick executorConfig now = (some target, e')) : ∃ c, e.current = some c ∧
      (c.rows[e'.index]? = some target ∧ e'.current = some c ∧ e'.nextChunk = e.nextChunk ∧ e'.started = e.started ∧
          e'.index = min (e.due executorConfig now) 31 ∨
        ∃ next, e.nextChunk = some next ∧ next.rows[0]? = some target ∧ e'.current = some next ∧ e'.nextChunk = none ∧ e'.index = 0) := by
  unfold Executor.tick at h
  split at h
  swap
  · cases h
  next session current hsession hcurrent =>
  refine ⟨current, hcurrent, ?_⟩
  split at h
  next hdue =>
    cases h
    exact Or.inl ⟨current.getElem?_row hdue, hcurrent, rfl, rfl, (Nat.min_eq_left (Nat.le_of_lt_succ hdue)).symm⟩
  next hdue =>
  split at h
  next hnext =>
    cases h
    exact Or.inl ⟨current.getElem?_row (Nat.lt_succ_self 31), hcurrent, rfl, rfl,
      (Nat.min_eq_right (Nat.le_of_succ_le (not_lt.mp hdue))).symm⟩
  next next hnext =>
    cases h
    exact Or.inr ⟨next, hnext, next.getElem?_row (by decide), rfl, rfl, rfl⟩

/-! ### The places of the targets -/

/-- A chunk is the one that was accepted as number `i`. -/
def Placed (j : Journal) (i task : Nat) (chunk : Chunk) : Prop := ∃ a, j.accepted[i]? = some a ∧ a.task = task ∧ a.chunk = chunk

/-- A target is a row of such a chunk: `place` is the number of the chunk and that of the row. -/
def Stands (j : Journal) (place : ℕ × ℕ) (task : Nat) (target : List ℚ) : Prop :=
  ∃ chunk, Placed j place.1 task chunk ∧ chunk.rows[place.2]? = some target

theorem Placed.lt {i task : Nat} {chunk : Chunk} (h : Placed j i task chunk) : i < j.accepted.length := by
  obtain ⟨a, ha, -⟩ := h
  exact (List.getElem?_eq_some_iff.mp ha).1

theorem Placed.mono (h : j.accepted <+: k.accepted) {i task : Nat} {chunk : Chunk} (hp : Placed j i task chunk) :
    Placed k i task chunk := by
  obtain ⟨a, ha, hrest⟩ := hp
  obtain ⟨hi, rfl⟩ := List.getElem?_eq_some_iff.mp ha
  exact ⟨_, List.prefix_iff_getElem?.mp h i hi, hrest⟩

theorem Stands.mono (h : j.accepted <+: k.accepted) {place : ℕ × ℕ} {task : Nat} {target : List ℚ} (hs : Stands j place task target) :
    Stands k place task target := by
  obtain ⟨chunk, hchunk, hrow⟩ := hs
  exact ⟨chunk, hchunk.mono h, hrow⟩

/-- The places of what was published, and of what is played next. -/
structure Playback (config : NodeConfig) (s : System S) (j : Journal) (places : List (ℕ × ℕ)) : Prop where
  stand : List.Forall₂ (fun p place => Stands j place p.task p.target) j.published places
  forward : places.Pairwise fun a b => toLex a ≤ toLex b
  current : ∀ chunk, s.node.executor.current = some chunk → ∃ i, Placed j i j.task chunk ∧
    (∀ place ∈ places, toLex place ≤ toLex (i, s.node.executor.index)) ∧ s.node.executor.index ≤ 31 ∧
    s.node.executor.index ≤ s.node.executor.due config.executor s.clock ∧
    ∀ next, s.node.executor.nextChunk = some next → ∃ n, i < n ∧ Placed j n j.task next
  last : ∀ target, s.node.lastAction = some target → ∃ place, places.getLast? = some place ∧ Stands j place j.task target
  held : ∀ target, s.node.pauseTarget = some target → ∃ place, places.getLast? = some place ∧ Stands j place j.task target

theorem playback_init {clock : ℚ} : Playback config ({ clock } : System S) {} [] where
  stand := .nil
  forward := .nil
  current chunk h := by cases h
  last target h := by cases h
  held target h := by cases h

variable {places : List (ℕ × ℕ)}

/-- Nothing is published or accepted; time may pass, and what is played or held may be dropped. -/
theorem Playback.frame (h : Playback config s j places) (hclock : s.clock ≤ t.clock)
    (hcurrent : ∀ chunk, t.node.executor.current = some chunk → t.node.executor = s.node.executor ∧ k.task = j.task)
    (hlast : ∀ target, t.node.lastAction = some target → s.node.lastAction = some target ∧ k.task = j.task)
    (hheld : ∀ target, t.node.pauseTarget = some target →
      (s.node.pauseTarget = some target ∨ s.node.lastAction = some target) ∧ k.task = j.task)
    (haccepted : k.accepted = j.accepted) (hpublished : k.published = j.published) : Playback config t k places := by
  have hprefix : j.accepted <+: k.accepted := by rw [haccepted]
  have hstands : ∀ target, (∃ place, places.getLast? = some place ∧ Stands j place j.task target) → k.task = j.task →
      ∃ place, places.getLast? = some place ∧ Stands k place k.task target := by
    rintro target ⟨place, hplace, hstands⟩ htask
    exact ⟨place, hplace, htask ▸ hstands.mono hprefix⟩
  refine ⟨?_, h.forward, fun chunk hc => ?_, fun target ht => ?_, fun target ht => ?_⟩
  · rw [hpublished]
    exact h.stand.imp fun _ _ hs => hs.mono hprefix
  · obtain ⟨hsame, htask⟩ := hcurrent chunk hc
    rw [hsame] at hc ⊢
    obtain ⟨i, hplaced, hbefore, hindex, hdue, hnext⟩ := h.current chunk hc
    refine ⟨i, htask ▸ hplaced.mono hprefix, hbefore, hindex, hdue.trans (due_mono hclock), fun next hn => ?_⟩
    obtain ⟨n, hless, hn⟩ := hnext next hn
    exact ⟨n, hless, htask ▸ hn.mono hprefix⟩
  · obtain ⟨ht, htask⟩ := hlast target ht
    exact hstands target (h.last target ht) htask
  · obtain ⟨ht, htask⟩ := hheld target ht
    exact hstands target (ht.elim (h.held target) (h.last target)) htask

/-- A place is one of an accepted chunk. -/
theorem Playback.lt (h : Playback config s j places) {place : ℕ × ℕ} (hp : place ∈ places) : place.1 < j.accepted.length := by
  obtain ⟨i, hi, rfl⟩ := List.getElem_of_mem hp
  obtain ⟨chunk, hplaced, -⟩ := h.stand.get (h.stand.length_eq ▸ hi) hi
  exact hplaced.lt

/-- A chunk is accepted: it is played from its first row, or waits for the one before it. -/
theorem Playback.accept (h : Playback config s j places) {session : Session} {seq : Nat} {age : ℚ} {actions : NdArray ℚ}
    {rest : List Event} {chunk : Chunk} {executor : Executor} (hread : chunkOf config actions = some chunk)
    (haccepted : s.node.executor.accept config.executor session seq age actions s.clock = .ok executor) :
    Playback config
      { s with node := { ({ s.node with events := rest } : Node).settle (some session) with executor, inflight := false } }
      { j with accepted := j.accepted ++ [⟨j.task, session, seq, age, chunk⟩] } places := by
  obtain ⟨-, -, -, -, read, chunk', hchunk, hlimited, -, rfl⟩ := accept_ok haccepted
  obtain rfl := Option.some.inj (hread.symm.trans (chunkOf_ok hchunk hlimited))
  have hprefix : j.accepted <+: j.accepted ++ [⟨j.task, session, seq, age, chunk⟩] := List.prefix_append _ _
  have hnew : Placed { j with accepted := j.accepted ++ [⟨j.task, session, seq, age, chunk⟩] } j.accepted.length j.task chunk :=
    ⟨_, List.getElem?_concat_length, rfl, rfl⟩
  refine ⟨h.stand.imp fun _ _ hs => hs.mono hprefix, h.forward, fun c hc => ?_, fun target ht => ?_, fun target ht => ?_⟩
  · unfold Executor.install at hc ⊢
    simp only at hc ⊢
    split at hc
    next hfirst =>
      obtain rfl := Option.some.inj hc
      rw [if_pos hfirst]
      refine ⟨j.accepted.length, hnew, fun place hp => ?_, Nat.zero_le _, Nat.zero_le _, fun next hn => by cases hn⟩
      exact Prod.Lex.toLex_le_toLex.mpr (Or.inl (h.lt hp))
    next hfirst =>
      rw [if_neg hfirst]
      obtain ⟨i, hplaced, hbefore, hindex, hdue, -⟩ := h.current c hc
      refine ⟨i, hplaced.mono hprefix, hbefore, hindex, hdue, fun next hn => ?_⟩
      obtain rfl := Option.some.inj hn
      exact ⟨j.accepted.length, hplaced.lt, hnew⟩
  · obtain ⟨place, hplace, hstands⟩ := h.last target ht
    exact ⟨place, hplace, hstands.mono hprefix⟩
  · obtain ⟨place, hplace, hstands⟩ := h.held target ht
    exact ⟨place, hplace, hstands.mono hprefix⟩

/-- A target is published at a place that is not before the others. -/
theorem Playback.publish (h : Playback config s j places) (node : Node) (place : ℕ × ℕ) {prompt : String} {target : List ℚ}
    {command : Option Command} (hplace : ∀ earlier ∈ places, toLex earlier ≤ toLex place) (hstands : Stands j place j.task target)
    (hcurrent : ∀ chunk, node.executor.current = some chunk → ∃ i, Placed j i j.task chunk ∧ toLex place ≤ toLex (i, node.executor.index) ∧
      node.executor.index ≤ 31 ∧ node.executor.index ≤ node.executor.due config.executor s.clock ∧
      ∀ next, node.executor.nextChunk = some next → ∃ n, i < n ∧ Placed j n j.task next)
    (hlast : ∀ t, node.lastAction = some t → t = target) (hheld : ∀ t, node.pauseTarget = some t → t = target) :
    Playback config { s with node } { j with published := j.published ++ [⟨j.task, prompt, target, command⟩] } (places ++ [place]) where
  stand := List.rel_append h.stand (.cons hstands .nil)
  forward := by
    rw [List.pairwise_append]
    refine ⟨h.forward, List.pairwise_singleton _ _, fun earlier he place' hp => ?_⟩
    obtain rfl := List.mem_singleton.mp hp
    exact hplace earlier he
  current chunk hc := by
    obtain ⟨i, hplaced, hindex, hrest⟩ := hcurrent chunk hc
    refine ⟨i, hplaced, fun earlier he => ?_, hrest⟩
    rcases List.mem_append.mp he with he | he
    · exact (hplace earlier he).trans hindex
    · obtain rfl := List.mem_singleton.mp he
      exact hindex
  last t ht := by
    obtain rfl := hlast t ht
    exact ⟨place, List.getLast?_concat, hstands⟩
  held t ht := by
    obtain rfl := hheld t ht
    exact ⟨place, List.getLast?_concat, hstands⟩

theorem Stands.unique {place : ℕ × ℕ} {task task' : Nat} {target target' : List ℚ} (h : Stands j place task target)
    (h' : Stands j place task' target') : target = target' := by
  obtain ⟨chunk, ⟨a, ha, -, rfl⟩, hrow⟩ := h
  obtain ⟨chunk', ⟨a', ha', -, rfl⟩, hrow'⟩ := h'
  obtain rfl := Option.some.inj (ha.symm.trans ha')
  exact Option.some.inj (hrow.symm.trans hrow')

/-- The last place is not before the others. -/
theorem Playback.le_last (h : Playback config s j places) {place : ℕ × ℕ} (hplace : places.getLast? = some place) :
    ∀ earlier ∈ places, toLex earlier ≤ toLex place := by
  obtain ⟨before, rfl⟩ := List.getLast?_eq_some_iff.mp hplace
  intro earlier he
  rcases List.mem_append.mp he with he | he
  · exact (List.pairwise_append.mp h.forward).2.2 earlier he place (List.mem_singleton_self _)
  · rw [List.mem_singleton.mp he]

theorem Playback.hold (h : Playback config s j places) {target : List ℚ} {prompt : String} {command : Option Command}
    (hheld : s.node.pauseTarget = some target) :
    ∃ places', Playback config s { j with published := j.published ++ [⟨j.task, prompt, target, command⟩] } places' := by
  obtain ⟨place, hplace, hstands⟩ := h.held target hheld
  have hmem : place ∈ places := List.mem_of_getLast? hplace
  refine ⟨places ++ [place], h.publish s.node _ (h.le_last hplace) hstands (fun chunk hc => ?_) (fun t ht => ?_) fun t ht => ?_⟩
  · obtain ⟨i, hplaced, hbefore, hrest⟩ := h.current chunk hc
    exact ⟨i, hplaced, hbefore place hmem, hrest⟩
  · obtain ⟨place', hplace', hstands'⟩ := h.last t ht
    obtain rfl := Option.some.inj (hplace.symm.trans hplace')
    exact hstands'.unique hstands
  · exact Option.some.inj (ht.symm.trans hheld)

theorem Playback.play (h : Playback config s j places) {target : List ℚ} {executor : Executor} {prompt : String}
    {command : Option Command} (hticks : s.node.executor.tick config.executor s.clock = (some target, executor)) :
    ∃ places', Playback config { s with node := s.node.played target executor }
      { j with published := j.published ++ [⟨j.task, prompt, target, command⟩] } places' := by
  obtain ⟨chunk, hcurrent, hrow⟩ := tick_row hticks
  obtain ⟨i, hplaced, hbefore, hindex, hdue, hnext⟩ := h.current chunk hcurrent
  have hlast : ∀ t, (s.node.played target executor).lastAction = some t → t = target := fun t ht => (Option.some.inj ht).symm
  have hheld : ∀ t, (s.node.played target executor).pauseTarget = some t → t = target := fun t ht => by cases ht
  rcases hrow with ⟨hrow, hsame, hwaits, hstarted, hplayed⟩ | ⟨next, hwaits, hrow, hsame, hempty, hplayed⟩
  · have hforward : s.node.executor.index ≤ executor.index := hplayed ▸ le_min hdue hindex
    refine ⟨_, h.publish _ (i, executor.index) (fun earlier he => (hbefore earlier he).trans ?_) ⟨chunk, hplaced, hrow⟩
      (fun c hc => ?_) hlast hheld⟩
    · exact Prod.Lex.toLex_le_toLex.mpr (Or.inr ⟨rfl, hforward⟩)
    · obtain rfl := Option.some.inj (hsame.symm.trans hc)
      refine ⟨i, hplaced, le_rfl, hplayed ▸ min_le_right _ _, ?_, fun next hn => hnext next (hwaits ▸ hn)⟩
      show executor.index ≤ executor.due config.executor s.clock
      rw [due_congr hstarted, hplayed]
      exact min_le_left _ _
  · obtain ⟨n, hless, hn⟩ := hnext next hwaits
    refine ⟨_, h.publish _ (n, 0) (fun earlier he => (hbefore earlier he).trans ?_) ⟨next, hn, hrow⟩ (fun c hc => ?_) hlast hheld⟩
    · exact Prod.Lex.toLex_le_toLex.mpr (Or.inl hless)
    · obtain rfl := Option.some.inj (hsame.symm.trans hc)
      refine ⟨n, hn, ?_, ?_, ?_, fun next' hn' => ?_⟩
      · show toLex (n, 0) ≤ toLex (n, executor.index)
        rw [hplayed]
      · show executor.index ≤ 31
        rw [hplayed]
        exact Nat.zero_le _
      · show executor.index ≤ _
        rw [hplayed]
        exact Nat.zero_le _
      · have hnone : executor.nextChunk = some next' := hn'
        rw [hempty] at hnone
        cases hnone

theorem Playback.move {x y : System S × Journal} (hmove : Move config policy x y) (h : ∃ places, Playback config x.1 x.2 places) :
    ∃ places, Playback config y.1 y.2 places := by
  obtain ⟨places, h⟩ := h
  cases hmove with
  | wait now hle => exact ⟨places, h.frame hle (fun _ _ => ⟨rfl, rfl⟩) (fun _ ht => ⟨ht, rfl⟩) (fun _ ht => ⟨Or.inl ht, rfl⟩) rfl rfl⟩
  | abort reason =>
    exact ⟨places, h.frame le_rfl (fun _ hc => by cases hc) (fun _ ht => by cases ht) (fun _ ht => by cases ht) rfl rfl⟩
  | @begins s j session prompt fresh known idle resumes =>
    refine ⟨places, h.frame le_rfl (fun _ hc => by cases hc) (fun t ht => ?_) (fun t ht => ?_) rfl rfl⟩
    · by_cases hpaused : s.node.paused = true
      · exact ⟨(if_pos hpaused).symm.trans ht, if_pos hpaused⟩
      · exact absurd ((if_neg hpaused).symm.trans ht) (by simp)
    · by_cases hpaused : s.node.paused = true
      · exact ⟨Or.inl ((if_pos hpaused).symm.trans ht), if_pos hpaused⟩
      · exact absurd ((if_neg hpaused).symm.trans ht) (by simp)
  | @pause s j session action reason running active last =>
    exact ⟨places, h.frame le_rfl (fun _ hc => by cases hc) (fun _ ht => ⟨ht, rfl⟩) (fun _ ht => ⟨Or.inr (last.trans ht), rfl⟩) rfl rfl⟩
  | @discard s j event rest hevents unawaited =>
    obtain ⟨pending, hsettled, -⟩ := settleEvent_eq event { s.node with events := rest }
    simp only [hsettled]
    exact ⟨places, h.frame le_rfl (fun _ _ => ⟨rfl, rfl⟩) (fun _ ht => ⟨ht, rfl⟩) (fun _ ht => ⟨Or.inl ht, rfl⟩) rfl rfl⟩
  | fails event rest reason hevents =>
    exact ⟨places, h.frame le_rfl (fun _ hc => by cases hc) (fun _ ht => by cases ht) (fun _ ht => by cases ht) rfl rfl⟩
  | accept session seq stamp actions rest age chunk executor hevents awaited read accepted => exact ⟨places, h.accept read accepted⟩
  | play target executor command running ticks => exact h.play ticks
  | hold target command held idle => exact h.hold held
  | _ => exact ⟨places, h.frame le_rfl (fun _ _ => ⟨rfl, rfl⟩) (fun _ ht => ⟨ht, rfl⟩) (fun _ ht => ⟨Or.inl ht, rfl⟩) rfl rfl⟩

/-! ### Runs -/

variable {clock : ℚ} {as : List (SystemStep S)}

/-- In every run the published targets stand in the accepted chunks of their tasks, each not before the ones that were published earlier:
    in a later chunk, or in the same row or a later one of the same chunk. -/
theorem played_forward (hrun : (journaledDex3 config timeout policy).run ({ clock }, {}) as = some (s, j)) :
    ∃ places : List (ℕ × ℕ), (places.Pairwise fun a b => toLex a ≤ toLex b) ∧
      List.Forall₂ (fun p place => Stands j place p.task p.target) j.published places := by
  obtain ⟨places, h⟩ := (moves_of_run hrun).keeps (I := fun x => ∃ places, Playback config x.1 x.2 places)
    (fun _ _ hmove h => Playback.move hmove h) ⟨[], playback_init⟩
  exact ⟨places, h.forward, h.stand⟩

/-- A tenth of a second later the fourth row is played, and then held by a pause. -/
def pausedSteps : List (SystemStep Unit) := [.finish (demoTick (1 / 10)), .pause, .finish (demoTick (1 / 5))]

theorem played_forward_paused : ∃ s j,
    (journaledDex3 demoConfig 5 rampPolicy).run ({ clock := 0 }, {}) (.image blackMessage (demoReading 0) :: (demoSteps ++ pausedSteps)) =
        some (s, j) ∧
      j.published.map Publication.target = [List.replicate 28 0, List.replicate 28 (3 / 32), List.replicate 28 (3 / 32)] ∧
      ∃ places : List (ℕ × ℕ), (places.Pairwise fun a b => toLex a ≤ toLex b) ∧
        List.Forall₂ (fun p place => Stands j place p.task p.target) j.published places := by
  have hpublished : (demoRun (demoSteps ++ pausedSteps)).map (fun x => x.2.published.map Publication.target) =
      some [List.replicate 28 0, List.replicate 28 (3 / 32), List.replicate 28 (3 / 32)] := by
    decide +kernel
  obtain ⟨⟨s, j⟩, hrun, hj⟩ := Option.map_eq_some_iff.mp hpublished
  have hrun := (demoRun_eq _).trans hrun
  exact ⟨s, j, hrun, hj, played_forward hrun⟩

end HumanoidLab.FluxDex3
