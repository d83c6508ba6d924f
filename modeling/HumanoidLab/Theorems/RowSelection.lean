import HumanoidLab.Bridge.GrootScheduling
import HumanoidLab.Theorems.RowPacing
import Mathlib.Data.List.ReduceOption

/-! The rows of a chunk that a timeline publishes. The index of the loop is one past the row of the last reading, or stays at the end of
    the chunk: this goes on over every pass, and the row of a reading follows from its time. -/

namespace HumanoidLab
open Fallible

variable {K : Type}

/-- A reading as a sample of the pacer. -/
def PolicyTime.sample (now : PolicyTime K) : K × Int := (now.seconds, now.generation)

variable [Field K] [LinearOrder K] [FloorRing K]

/-- The row boundaries from the first reading of a timeline to another one. -/
def SimulationClockPacer.crossed (p : SimulationClockPacer K) (first now : PolicyTime K) : Int :=
  ⌊(now.seconds - first.seconds) * p.rateHz + rowTolerance⌋

/-- The row of a reading. -/
def SimulationClockPacer.row (p : SimulationClockPacer K) (start horizon : Int) (first now : PolicyTime K) : Int :=
  min (start + p.crossed first now) (horizon - 1)

/-- What a reading publishes, after the one before it. -/
def SimulationClockPacer.published (p : SimulationClockPacer K) (start horizon : Int) (first before now : PolicyTime K) : Option Int :=
  if p.crossed first before = p.crossed first now then none else some (p.row start horizon first now)

/-! ### A pass -/

theorem advanceChunkIndex_none {index horizon : Int} (h : 0 < horizon) : advanceChunkIndex index 0 horizon = .ok (index, false) := by
  unfold advanceChunkIndex
  rw [if_neg (by omega), if_pos rfl]

theorem advanceChunkIndex_some (index : Int) {due horizon : Int} (h : 0 < horizon) (hdue : 0 < due) :
    advanceChunkIndex index due horizon = .ok (min (index + due - 1) (horizon - 1), true) := by
  unfold advanceChunkIndex
  rw [if_neg (by omega), if_neg hdue.ne']

theorem advanceChunkIndex_refused {index due horizon : Int} (h : horizon ≤ 0) :
    advanceChunkIndex index due horizon = .error "invalid action scheduling state" := if_pos (Or.inr h)

variable {p : SimulationClockPacer K} {horizon start : Int} {s : ChunkLoop K} {t : PacerState K} {u : ClockUpdate}
  {first now next : PolicyTime K} {rest : List (PolicyTime K)}

theorem zoom_update (hupdate : p.update (.fin now.seconds) now.generation s.pacer = .ok u t) :
    (zoom ChunkLoop.pacer (fun pacer loop => { loop with pacer }) (p.update (.fin now.seconds) now.generation)).run s =
      .ok u ⟨t, s.actionChunkIndex⟩ := by
  simp only [EStateM.run, zoom, hupdate]

/-- A pass after an update of the pacer, by what the index advances to. -/
theorem schedule_none {index : Int} (hupdate : p.update (.fin now.seconds) now.generation s.pacer = .ok u t)
    (h : advanceChunkIndex s.actionChunkIndex u.rowsDue horizon = .ok (index, false)) :
    (schedule p horizon now).run s = .ok none ⟨t, index⟩ := by
  rw [schedule, EStateM.run_bind, zoom_update hupdate]
  simp only [EStateM.run_bind, EStateM.run_get, h, lift]
  rfl

theorem schedule_some {index : Int} (hupdate : p.update (.fin now.seconds) now.generation s.pacer = .ok u t)
    (h : advanceChunkIndex s.actionChunkIndex u.rowsDue horizon = .ok (index, true)) :
    (schedule p horizon now).run s = .ok (some index) ⟨t, min (index + 1) (horizon - 1)⟩ := by
  rw [schedule, EStateM.run_bind, zoom_update hupdate]
  simp only [EStateM.run_bind, EStateM.run_get, h, lift]
  rfl

theorem schedule_refused {e : String} (hupdate : p.update (.fin now.seconds) now.generation s.pacer = .ok u t)
    (h : advanceChunkIndex s.actionChunkIndex u.rowsDue horizon = .error e) :
    (schedule p horizon now).run s = .error e ⟨t, s.actionChunkIndex⟩ := by
  rw [schedule, EStateM.run_bind, zoom_update hupdate]
  simp only [EStateM.run_bind, EStateM.run_get, h, lift]
  rfl

/-! ### A timeline -/

variable [IsStrictOrderedRing K]

theorem crossed_first : p.crossed first first = 0 := by
  simp [SimulationClockPacer.crossed, rowTolerance_floor]

theorem crossed_mono (h : now.seconds ≤ next.seconds) : p.crossed first now ≤ p.crossed first next := by
  have hrate := p.rate_positive.le
  unfold SimulationClockPacer.crossed
  gcongr

/-- The loop after a reading of a timeline: the pacer stands at it, and the index is past its row. -/
structure Selected (p : SimulationClockPacer K) (start horizon : Int) (first now : PolicyTime K) (s : ChunkLoop K) : Prop where
  stands : StandsAt p s.pacer first.seconds now.seconds now.generation
  index : s.actionChunkIndex = min (p.row start horizon first now + 1) (horizon - 1)

/-- The pacer counts the boundaries from the origin and the row of the origin itself. -/
theorem StandsAt.target_eq (h : StandsAt p t first.seconds now.seconds now.generation) :
    p.target first.seconds now.seconds = p.crossed first now + 1 := by
  unfold SimulationClockPacer.target SimulationClockPacer.crossed
  rw [max_eq_right (sub_nonneg.mpr h.ordered)]

/-- A reading that goes on with the timeline publishes its row, if it crosses a boundary. -/
theorem Selected.continues (hhorizon : 0 < horizon) (h : Selected p start horizon first now s)
    (hnext : Continues now.sample next.sample) :
    ∃ s', (schedule p horizon next).run s = .ok (p.published start horizon first now next) s' ∧
      Selected p start horizon first next s' := by
  obtain ⟨hgeneration, hle⟩ := hnext
  have hgeneration : (now.generation : Int) = next.generation := hgeneration
  have hle : now.seconds ≤ next.seconds := hle
  obtain ⟨t, hupdate, ht⟩ := h.stands.continues hle
  rw [hgeneration] at hupdate ht
  have hdue : p.target first.seconds next.seconds - p.target first.seconds now.seconds = p.crossed first next - p.crossed first now := by
    rw [ht.target_eq, h.stands.target_eq]
    ring
  rw [hdue] at hupdate
  have hmono : p.crossed first now ≤ p.crossed first next := crossed_mono hle
  have hindex := h.index
  unfold SimulationClockPacer.row at hindex
  by_cases hsame : p.crossed first now = p.crossed first next
  · -- No boundary: the index stays.
    rw [hsame, sub_self] at hupdate
    refine ⟨⟨t, s.actionChunkIndex⟩, ?_, ht, ?_⟩
    · rw [schedule_none hupdate (advanceChunkIndex_none hhorizon), SimulationClockPacer.published, if_pos hsame]
    · rw [h.index, SimulationClockPacer.row, SimulationClockPacer.row, hsame]
  · have hcrossed : 0 < p.crossed first next - p.crossed first now := by omega
    have hrow : min (s.actionChunkIndex + (p.crossed first next - p.crossed first now) - 1) (horizon - 1) =
        p.row start horizon first next := by
      unfold SimulationClockPacer.row
      omega
    have hadvance := advanceChunkIndex_some s.actionChunkIndex hhorizon hcrossed
    rw [hrow] at hadvance
    refine ⟨⟨t, min (p.row start horizon first next + 1) (horizon - 1)⟩, ?_, ht, rfl⟩
    rw [schedule_some hupdate hadvance, SimulationClockPacer.published, if_neg hsame]

/-- The first reading publishes the row that the loop starts at. -/
theorem Stands.selected (start : Int) {l : Option (K × Int)} (hhorizon : 0 < horizon) (h : Stands p t l)
    (hstart : ∀ x ∈ l, ¬Continues x first.sample) :
    ∃ s', (schedule p horizon first).run ⟨t, start⟩ = .ok (some (p.row start horizon first first)) s' ∧
      Selected p start horizon first first s' := by
  obtain ⟨u, t', hupdate, -, hu⟩ := h.update first.seconds first.generation
  obtain ⟨rfl, ht⟩ := hu hstart
  have hadvance := advanceChunkIndex_some start hhorizon Int.one_pos
  have hrow : min (start + 1 - 1) (horizon - 1) = p.row start horizon first first := by
    unfold SimulationClockPacer.row
    rw [crossed_first, add_sub_cancel_right, add_zero]
  rw [hrow] at hadvance
  exact ⟨_, schedule_some hupdate hadvance, ht, rfl⟩

/-- The readings that go on with a timeline, by induction on them. -/
theorem Selected.run (hhorizon : 0 < horizon) (h : Selected p start horizon first now s)
    (hchain : (now :: rest).IsChain fun x y => Continues x.sample y.sample) :
    ∃ s', (rest.mapM (schedule p horizon)).run s = .ok (List.zipWith (p.published start horizon first) (now :: rest) rest) s' ∧
      Selected p start horizon first ((now :: rest).getLast (List.cons_ne_nil _ _)) s' := by
  induction rest generalizing now s with
  | nil => exact ⟨s, rfl, h⟩
  | cons next rest ih =>
    obtain ⟨hnext, hchain⟩ := List.isChain_cons_cons.mp hchain
    obtain ⟨t, hpass, ht⟩ := h.continues hhorizon hnext
    obtain ⟨s', hrun, hs'⟩ := ih ht hchain
    refine ⟨s', ?_, by rwa [List.getLast_cons (List.cons_ne_nil _ _)]⟩
    rw [List.mapM_cons, EStateM.run_bind, hpass]
    simp only [EStateM.run_bind, hrun, List.zipWith_cons_cons]
    rfl

/-- The rows in order, and the last of them. A reading without one has the row of the reading before it. -/
theorem published_ordered (p : SimulationClockPacer K) (start horizon : Int) (first : PolicyTime K)
    (hchain : (now :: rest).IsChain fun x y => Continues x.sample y.sample) :
    (p.row start horizon first now ::
        (List.zipWith (p.published start horizon first) (now :: rest) rest).reduceOption).IsChain (· ≤ ·) ∧
      (p.row start horizon first now :: (List.zipWith (p.published start horizon first) (now :: rest) rest).reduceOption).getLast? =
        some (p.row start horizon first ((now :: rest).getLast (List.cons_ne_nil _ _))) := by
  induction rest generalizing now with
  | nil => exact ⟨.singleton _, rfl⟩
  | cons next rest ih =>
    obtain ⟨⟨-, hle⟩, hchain⟩ := List.isChain_cons_cons.mp hchain
    have hle : now.seconds ≤ next.seconds := hle
    obtain ⟨hordered, hlast⟩ := ih hchain
    rw [List.zipWith_cons_cons, List.getLast_cons (List.cons_ne_nil _ _), SimulationClockPacer.published]
    by_cases hsame : p.crossed first now = p.crossed first next
    · have hrow : p.row start horizon first now = p.row start horizon first next := by
        unfold SimulationClockPacer.row
        rw [hsame]
      rw [if_pos hsame, List.reduceOption_cons_of_none, hrow]
      exact ⟨hordered, hlast⟩
    · have hrow : p.row start horizon first now ≤ p.row start horizon first next :=
        min_le_min_right _ (Int.add_le_add_left (crossed_mono hle) start)
      rw [if_neg hsame, List.reduceOption_cons_of_some, List.getLast?_cons_cons]
      exact ⟨.cons_cons hrow hordered, hlast⟩

/-- Along a timeline each reading that crosses a row boundary publishes the row of its time, and the others nothing, so that the last row
    is that of the last time. -/
theorem row_selection (p : SimulationClockPacer K) (before : List (Value K × Int)) (start horizon : Int) {first : PolicyTime K}
    {rest : List (PolicyTime K)} (hstart : Starts (finiteSamples before) first.sample)
    (hchain : (first :: rest).IsChain fun x y => Continues x.sample y.sample) :
    (horizon ≤ 0 → ∃ t, ((first :: rest).mapM (schedule p horizon)).run ⟨p.afterUpdates {} before, start⟩ =
        .error "invalid action scheduling state" t) ∧
      (0 < horizon → ∃ rows t, ((first :: rest).mapM (schedule p horizon)).run ⟨p.afterUpdates {} before, start⟩ = .ok rows t ∧
        rows = some (p.row start horizon first first) :: List.zipWith (p.published start horizon first) (first :: rest) rest ∧
        rows.reduceOption.Pairwise (· ≤ ·) ∧
        rows.reduceOption.getLast? = some (min (start +
          ⌊(((first :: rest).getLast (List.cons_ne_nil _ _)).seconds - first.seconds) * p.rateHz + rowTolerance⌋) (horizon - 1))) := by
  have hstands : Stands p (p.afterUpdates {} before) (finiteSamples before).getLast? := by
    have h := Stands.after (p := p) (l := none) rfl before
    rwa [Option.or_none] at h
  refine ⟨fun hhorizon => ?_, fun hhorizon => ?_⟩
  · obtain ⟨u, t, hupdate, -, -⟩ := hstands.update first.seconds first.generation
    refine ⟨⟨t, start⟩, ?_⟩
    have hrefused := schedule_refused (s := ⟨p.afterUpdates {} before, start⟩) hupdate (advanceChunkIndex_refused hhorizon)
    rw [List.mapM_cons, EStateM.run_bind, hrefused]
  · obtain ⟨s, hfirst, hs⟩ := hstands.selected start hhorizon hstart
    obtain ⟨t, hrun, -⟩ := hs.run hhorizon hchain
    obtain ⟨hordered, hlast⟩ := published_ordered p start horizon first hchain
    refine ⟨_, t, ?_, rfl, List.isChain_iff_pairwise.mp hordered, hlast⟩
    rw [List.mapM_cons, EStateM.run_bind, hfirst]
    simp only [EStateM.run_bind, hrun]
    rfl

/-- A timeline that stands still, crosses boundaries, and goes past the end of a chunk of four rows. -/
theorem row_selection_fifty :
    let p : SimulationClockPacer ℚ := ⟨50, by decide⟩
    let timeline : List (PolicyTime ℚ) := [⟨2, 1⟩, ⟨2, 1⟩, ⟨101 / 50, 1⟩, ⟨21 / 10, 1⟩]
    ∃ rows t, (timeline.mapM (schedule p 4)).run ⟨p.afterUpdates {} [(.fin 7, 0)], 1⟩ = .ok rows t ∧
      rows = [some 1, none, some 2, some 3] := by
  intro p timeline
  have hchain : timeline.IsChain fun x y => Continues x.sample y.sample := by
    norm_num [timeline, Continues, PolicyTime.sample]
  have hrows := (row_selection p [(.fin 7, 0)] 1 4 (by simp [Starts, finiteSamples, Continues, PolicyTime.sample]) hchain).2 (by decide)
  obtain ⟨rows, t, hrun, rfl, -⟩ := hrows
  exact ⟨_, t, hrun, by decide +kernel⟩

end HumanoidLab
