import HumanoidLab.Bridge.Clocks
import Mathlib.Algebra.Order.Floor.Ring
import Mathlib.Data.Rat.Floor
import Mathlib.Tactic.NormNum

/-! The rows of a timeline. The pacer keeps the number of row boundaries from the origin of the timeline to its last
    sample, so that the rows of the updates telescope: their number depends on the ends of the timeline alone. -/

namespace HumanoidLab
open Fallible

variable {K : Type}

/-- The samples of a list of updates that do not raise. -/
def finiteSamples : List (Value K × Int) → List (K × Int)
  | [] => []
  | (.fin x, e) :: samples => (x, e) :: finiteSamples samples
  | (.nonFinite, _) :: samples => finiteSamples samples

/-- The second of two samples goes on with the timeline of the first. -/
def Continues [LE K] (x y : K × Int) : Prop := x.2 = y.2 ∧ x.1 ≤ y.1

/-- A sample does not go on with the timeline before it. -/
def Starts [LE K] (before : List (K × Int)) (first : K × Int) : Prop := ∀ x ∈ before.getLast?, ¬Continues x first

variable [Field K] [LinearOrder K] [FloorRing K] {p : SimulationClockPacer K} {s t : PacerState K} {o x y : K} {e e' : Int}

/-- A pacer that stands at a sample of a timeline. -/
structure StandsAt (p : SimulationClockPacer K) (s : PacerState K) (o x : K) (e : Int) : Prop where
  episode : s.episodeId = some e
  origin : s.origin = some o
  last : s.last = some x
  emitted : s.emitted = p.target o x
  ordered : o ≤ x

theorem StandsAt.state_eq (hs : StandsAt p s o x e) (ht : StandsAt p t o x e) : s = t := by
  obtain ⟨s₁, s₂, s₃, s₄⟩ := s
  obtain ⟨t₁, t₂, t₃, t₄⟩ := t
  obtain ⟨h₁, h₂, h₃, h₄, -⟩ := hs
  obtain ⟨h₁', h₂', h₃', h₄', -⟩ := ht
  simp_all

theorem updates_of_ok {u : ClockUpdate} (h : (p.update (.fin x) e).run s = .ok u t) (samples : List (Value K × Int)) :
    p.updates s ((.fin x, e) :: samples) = u :: p.updates t samples ∧
      p.afterUpdates s ((.fin x, e) :: samples) = p.afterUpdates t samples := by
  have hafter : after (p.update (.fin x) e) s = t := by
    unfold after
    rw [h]
  simp only [SimulationClockPacer.updates, SimulationClockPacer.afterUpdates, h, hafter, and_self]

section
variable [IsStrictOrderedRing K]

theorem rowTolerance_floor : ⌊(rowTolerance : K)⌋ = 0 := by
  rw [Int.floor_eq_zero_iff]
  constructor <;> norm_num [rowTolerance]

/-- The origin itself is one row. -/
theorem target_origin : p.target x x = 1 := by
  simp [SimulationClockPacer.target, rowTolerance_floor]

theorem target_mono (hxy : x ≤ y) : p.target o x ≤ p.target o y := by
  have hrate := p.rate_positive.le
  unfold SimulationClockPacer.target
  gcongr

/-- A sample that goes on with the timeline makes the boundaries due that it crosses. -/
theorem StandsAt.continues (h : StandsAt p s o x e) (hxy : x ≤ y) :
    ∃ t, (p.update (.fin y) e).run s = .ok ⟨p.target o y - p.target o x, false, x = y⟩ t ∧ StandsAt p t o y e := by
  obtain ⟨hepisode, horigin, hlast, hemitted, hordered⟩ := h
  refine ⟨{ s with last := some y, emitted := p.target o y }, ?_, ⟨hepisode, horigin, rfl, rfl, hordered.trans hxy⟩⟩
  have hdue : max 0 (p.target o y - p.target o x) = p.target o y - p.target o x :=
    max_eq_right (sub_nonneg.mpr (target_mono hxy))
  simp only [SimulationClockPacer.update, EStateM.run_bind, EStateM.run_get, horigin, hepisode, hlast, hemitted,
    Option.any_some, decide_eq_true_eq, ne_eq, not_true_eq_false, false_or, if_neg hxy.not_gt, hdue, Option.some.injEq]
  rfl

/-- A sample that does not go on with the timeline starts one. -/
theorem StandsAt.restarts (h : StandsAt p s o x e) (hn : ¬Continues (x, e) (y, e')) :
    ∃ t, (p.update (.fin y) e').run s = .ok ⟨1, true, false⟩ t ∧ StandsAt p t y y e' := by
  obtain ⟨hepisode, horigin, hlast, hemitted, hordered⟩ := h
  refine ⟨⟨some e', some y, 1, some y⟩, ?_, ⟨rfl, rfl, rfl, target_origin.symm, le_rfl⟩⟩
  have hreset : e ≠ e' ∨ y < x := by
    by_contra hc
    obtain ⟨he, hx⟩ := not_or.mp hc
    exact hn ⟨not_not.mp he, not_lt.mp hx⟩
  simp only [SimulationClockPacer.update, EStateM.run_bind, EStateM.run_get, horigin, hepisode, hlast,
    Option.any_some, decide_eq_true_eq, ne_eq, Option.some.injEq, if_pos hreset]
  rfl

/-- The first sample of all starts a timeline. -/
theorem starts_first : ∃ t, (p.update (.fin y) e).run {} = .ok ⟨1, false, false⟩ t ∧ StandsAt p t y y e :=
  ⟨⟨some e, some y, 1, some y⟩, rfl, ⟨rfl, rfl, rfl, target_origin.symm, le_rfl⟩⟩

/-- Where a pacer stands after all samples so far: at the last one, if there is one. -/
def Stands (p : SimulationClockPacer K) (s : PacerState K) : Option (K × Int) → Prop
  | none => s = {}
  | some x => ∃ o, StandsAt p s o x.1 x.2

/-- A finite sample is a start, or goes on with the timeline. -/
theorem Stands.update {l : Option (K × Int)} (h : Stands p s l) (x : K) (e : Int) :
    ∃ u t, (p.update (.fin x) e).run s = .ok u t ∧ Stands p t (some (x, e)) ∧
      ((∀ y ∈ l, ¬Continues y (x, e)) → u = ⟨1, l.isSome, false⟩ ∧ StandsAt p t x x e) := by
  cases l with
  | none =>
    obtain rfl : s = {} := h
    obtain ⟨t, hrun, ht⟩ := starts_first (p := p) (y := x) (e := e)
    exact ⟨_, t, hrun, ⟨x, ht⟩, fun _ => ⟨rfl, ht⟩⟩
  | some y =>
    obtain ⟨o, hs⟩ := h
    by_cases hc : Continues y (x, e)
    · obtain ⟨rfl, hyx⟩ := hc
      obtain ⟨t, hrun, ht⟩ := hs.continues hyx
      exact ⟨_, t, hrun, ⟨o, ht⟩, fun hn => absurd ⟨rfl, hyx⟩ (hn y rfl)⟩
    · obtain ⟨t, hrun, ht⟩ := hs.restarts hc
      exact ⟨_, t, hrun, ⟨x, ht⟩, fun _ => ⟨rfl, ht⟩⟩

theorem Stands.after {l : Option (K × Int)} (h : Stands p s l) (samples : List (Value K × Int)) :
    Stands p (p.afterUpdates s samples) ((finiteSamples samples).getLast?.or l) := by
  induction samples generalizing s l with
  | nil => exact h
  | cons sample samples ih =>
    obtain ⟨x | _, e⟩ := sample
    · obtain ⟨u, t, hrun, ht, -⟩ := h.update x e
      rw [(updates_of_ok hrun samples).2]
      simpa [finiteSamples, List.getLast?_cons, Option.or_some] using ih ht
    · exact ih h

/-- The updates of a timeline that goes on cross the boundaries up to its last sample. -/
theorem StandsAt.timeline {samples : List (Value K × Int)} {rest : List (K × Int)} (h : StandsAt p s o x e)
    (hfinite : finiteSamples samples = rest) (hchain : ((x, e) :: rest).IsChain Continues) :
    (∀ u ∈ p.updates s samples, u.reset = false ∧ 0 ≤ u.rowsDue) ∧
      p.rows s samples = p.target o (((x, e) :: rest).getLast (List.cons_ne_nil _ _)).1 - p.target o x ∧
      StandsAt p (p.afterUpdates s samples) o (((x, e) :: rest).getLast (List.cons_ne_nil _ _)).1 e := by
  induction samples generalizing s x rest with
  | nil =>
    subst hfinite
    exact ⟨by simp [SimulationClockPacer.updates], by simp [SimulationClockPacer.rows, SimulationClockPacer.updates, finiteSamples], h⟩
  | cons sample samples ih =>
    obtain ⟨y | _, e'⟩ := sample
    · subst hfinite
      obtain ⟨⟨he, hxy⟩, hchain⟩ := List.isChain_cons_cons.mp hchain
      obtain rfl : e = e' := he
      obtain ⟨t, hrun, ht⟩ := h.continues hxy
      obtain ⟨hmem, hsum, hstands⟩ := ih ht rfl hchain
      obtain ⟨hupdates, hafter⟩ := updates_of_ok hrun samples
      simp only [SimulationClockPacer.rows] at hsum ⊢
      have hlast : ((x, e) :: finiteSamples ((.fin y, e) :: samples)).getLast (List.cons_ne_nil _ _) =
          ((y, e) :: finiteSamples samples).getLast (List.cons_ne_nil _ _) := List.getLast_cons (List.cons_ne_nil _ _)
      rw [hupdates, hafter, hlast]
      refine ⟨?_, ?_, hstands⟩
      · rintro u hu
        rcases List.mem_cons.mp hu with rfl | hu
        · exact ⟨rfl, sub_nonneg.mpr (target_mono hxy)⟩
        · exact hmem u hu
      · rw [List.map_cons, List.sum_cons, hsum]
        ring
    · exact ih h hfinite hchain

/-- The updates of a whole timeline, from where the pacer stands before it. -/
theorem Stands.timeline {l : Option (K × Int)} {samples : List (Value K × Int)} {first : K × Int} {rest : List (K × Int)}
    (h : Stands p s l) (hfinite : finiteSamples samples = first :: rest) (hstart : ∀ y ∈ l, ¬Continues y first)
    (hchain : (first :: rest).IsChain Continues) :
    (∃ tail, p.updates s samples = ⟨1, l.isSome, false⟩ :: tail ∧ ∀ u ∈ tail, u.reset = false ∧ 0 ≤ u.rowsDue) ∧
      p.rows s samples = p.target first.1 ((first :: rest).getLast (List.cons_ne_nil _ _)).1 ∧
      StandsAt p (p.afterUpdates s samples) first.1 ((first :: rest).getLast (List.cons_ne_nil _ _)).1 first.2 := by
  induction samples generalizing s with
  | nil => cases hfinite
  | cons sample samples ih =>
    obtain ⟨x | _, e⟩ := sample
    · obtain ⟨rfl, hrest⟩ := List.cons.inj hfinite
      obtain ⟨u, t, hrun, -, hu⟩ := h.update x e
      obtain ⟨rfl, ht⟩ := hu hstart
      obtain ⟨hmem, hsum, hstands⟩ := ht.timeline hrest hchain
      obtain ⟨hupdates, hafter⟩ := updates_of_ok hrun samples
      rw [hafter]
      refine ⟨⟨_, hupdates, hmem⟩, ?_, hstands⟩
      simp only [SimulationClockPacer.rows] at hsum ⊢
      rw [hupdates, List.map_cons, List.sum_cons, hsum, target_origin]
      ring
    · exact ih h hfinite

/-- A timeline is a row for its first sample and a row for each boundary up to its last one, however it is sampled. -/
theorem simulation_pacing (p : SimulationClockPacer K) (before timeline : List (Value K × Int)) {first : K × Int}
    {rest : List (K × Int)} (hfinite : finiteSamples timeline = first :: rest) (hstart : Starts (finiteSamples before) first)
    (hchain : (first :: rest).IsChain Continues) :
    (∃ tail, p.updates (p.afterUpdates {} before) timeline = ⟨1, (finiteSamples before).getLast?.isSome, false⟩ :: tail ∧
        ∀ u ∈ tail, u.reset = false ∧ 0 ≤ u.rowsDue) ∧
      p.rows (p.afterUpdates {} before) timeline =
        ⌊(((first :: rest).getLast (List.cons_ne_nil _ _)).1 - first.1) * p.rateHz + rowTolerance⌋ + 1 ∧
      ∀ timeline' rest', finiteSamples timeline' = first :: rest' → (first :: rest').IsChain Continues →
        (first :: rest').getLast (List.cons_ne_nil _ _) = (first :: rest).getLast (List.cons_ne_nil _ _) →
        p.rows (p.afterUpdates {} before) timeline' = p.rows (p.afterUpdates {} before) timeline ∧
          p.afterUpdates (p.afterUpdates {} before) timeline' = p.afterUpdates (p.afterUpdates {} before) timeline := by
  have hbefore : Stands p (p.afterUpdates {} before) (finiteSamples before).getLast? := by
    have hstands := Stands.after (p := p) (l := none) rfl before
    rwa [Option.or_none] at hstands
  obtain ⟨hupdates, hrows, hend⟩ := hbefore.timeline hfinite hstart hchain
  refine ⟨hupdates, ?_, ?_⟩
  · rw [hrows, SimulationClockPacer.target, max_eq_right (sub_nonneg.mpr hend.ordered)]
  · intro timeline' rest' hfinite' hchain' hlast
    obtain ⟨-, hrows', hend'⟩ := hbefore.timeline hfinite' hstart hchain'
    rw [hlast] at hrows' hend'
    exact ⟨hrows'.trans hrows.symm, hend'.state_eq hend⟩

/-- A timeline of three samples after one of another episode. -/
theorem simulation_pacing_fifty :
    let p : SimulationClockPacer ℚ := ⟨50, by decide⟩
    let before : List (Value ℚ × Int) := [(.fin 7, 0)]
    p.rows (p.afterUpdates {} before) [(.fin 2, 1), (.nonFinite, 1), (.fin (101 / 50), 1), (.fin (21 / 10), 1)] = 6 := by
  intro p before
  have hfinite : finiteSamples [(Value.fin 2, (1 : Int)), (.nonFinite, 1), (.fin (101 / 50), 1), (.fin (21 / 10), 1)] =
      ((2 : ℚ), 1) :: [(101 / 50, 1), (21 / 10, 1)] := rfl
  rw [(simulation_pacing p before _ hfinite (by simp [before, Starts, finiteSamples, Continues])
    (by norm_num [Continues])).2.1]
  norm_num [rowTolerance, p]

end
end HumanoidLab
