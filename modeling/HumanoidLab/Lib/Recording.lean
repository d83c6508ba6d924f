import HumanoidLab.Lib.Machine
import Mathlib.Data.List.Nodup

/-! Machines with a record: what is observed of a run is kept beside the state and decides no step, so that a property of runs is a
    property of states. A property that the steps keep exactly under a guard holds all along the runs whose steps meet the guard, and of
    no other. -/

namespace Concurrency

universe u v w

namespace Machine

variable {σ : Type u} {α : Type v} {ρ : Type w}

/-- A machine with a record beside its state. -/
def recording (M : Machine σ α) (record : σ → α → ρ → ρ) (start : ρ) : Machine (σ × ρ) α where
  init s := M.init s.1 ∧ s.2 = start
  step s a := (M.step s.1 a).map fun t => (t, record s.1 a s.2)

variable {M : Machine σ α} {record : σ → α → ρ → ρ} {start : ρ} {s t : σ} {r r' : ρ} {a : α} {as : List α}

theorem recording_step_iff : (M.recording record start).step (s, r) a = some (t, r') ↔ M.step s a = some t ∧ r' = record s a r := by
  simp only [recording, Option.map_eq_some_iff, Prod.mk.injEq]
  constructor
  · rintro ⟨u, hu, rfl, rfl⟩
    exact ⟨hu, rfl⟩
  · rintro ⟨ht, rfl⟩
    exact ⟨t, ht, rfl, rfl⟩

/-- Every run has its record. -/
theorem recording_run (h : M.run s as = some t) : ∃ r', (M.recording record start).run (s, r) as = some (t, r') := by
  induction as generalizing s r with
  | nil =>
    obtain rfl : s = t := by simpa using h
    exact ⟨r, rfl⟩
  | cons a as ih =>
    rw [run_cons, Option.bind_eq_some_iff] at h
    obtain ⟨u, hu, h⟩ := h
    obtain ⟨r', hr'⟩ := ih h
    refine ⟨r', ?_⟩
    rw [run_cons, recording_step_iff.mpr ⟨hu, rfl⟩]
    exact hr'

/-- The record does not decide which steps meet a guard. -/
theorem recording_meets {C : σ → α → Prop} : (M.recording record start).Meets (fun s a => C s.1 a) (s, r) as ↔ M.Meets C s as := by
  induction as generalizing s r with
  | nil => exact Iff.rfl
  | cons a as ih =>
    refine and_congr_right fun _ => ?_
    cases hs : M.step s a with
    | none => simp [recording, hs]
    | some t =>
      rw [recording_step_iff.mpr ⟨hs, rfl⟩]
      exact ih

/-- Where each step keeps `I` exactly when it meets `C`, `I` holds all along a run exactly when all steps meet `C`; `J` is an invariant
    that the steps may use. -/
theorem meets_iff_along {I J : σ → Prop} {C : σ → α → Prop} (ambient : ∀ s a t, J s → M.step s a = some t → J t)
    (exact' : ∀ s a t, J s → I s → M.step s a = some t → (I t ↔ C s a)) (hJ : J s) (hI : I s) (hrun : M.run s as = some t) :
    (∀ bs cs u, as = bs ++ cs → M.run s bs = some u → I u) ↔ M.Meets C s as := by
  induction as generalizing s with
  | nil =>
    refine iff_of_true ?_ trivial
    intro bs cs u h hu
    obtain ⟨rfl, -⟩ := List.append_eq_nil_iff.mp h.symm
    obtain rfl : s = u := by simpa using hu
    exact hI
  | cons a as ih =>
    rw [run_cons, Option.bind_eq_some_iff] at hrun
    obtain ⟨v, hv, hrun⟩ := hrun
    rw [meets_cons hv]
    have hstep := exact' s a v hJ hI hv
    constructor
    · intro h
      have hIv : I v := h [a] as v rfl (by rw [run_cons, hv]; rfl)
      refine ⟨hstep.mp hIv, (ih (ambient s a v hJ hv) hIv hrun).mp ?_⟩
      intro bs cs u has hu
      refine h (a :: bs) cs u (by rw [has, List.cons_append]) ?_
      rw [run_cons, hv]
      exact hu
    · rintro ⟨hC, hmeets⟩ bs cs u has hu
      have hIv := hstep.mpr hC
      cases bs with
      | nil =>
        obtain rfl : s = u := by simpa using hu
        exact hI
      | cons b bs =>
        obtain ⟨rfl, htail⟩ := List.cons.inj has
        rw [run_cons, hv] at hu
        exact (ih (ambient s a v hJ hv) hIv hrun).mpr hmeets bs cs u htail hu

end Machine

/-- What is left of distinct elements in order ends with the last of them, if that is left. -/
theorem getLast?_of_sublist {α : Type u} {l m : List α} {x : α} (h : l.Sublist m) (hm : m.Nodup) (hx : m.getLast? = some x)
    (hl : x ∈ l) : l.getLast? = some x := by
  obtain ⟨front, rfl⟩ := List.getLast?_eq_some_iff.mp hx
  obtain ⟨left, right, rfl, hleft, hright⟩ := List.sublist_append_iff.mp h
  have hfree : x ∉ front := fun hmem => (List.nodup_append.mp hm).2.2 x hmem x (List.mem_singleton_self x) rfl
  rcases List.sublist_singleton.mp hright with rfl | rfl
  · exact absurd (hleft.subset (by simpa using hl)) hfree
  · exact List.getLast?_concat

end Concurrency
