import Mathlib.Data.List.Basic
import Mathlib.Data.List.Perm.Basic

/-! Repeated sweeps over pending items. An item is visited once its parent is known and makes its child known; the sweeps end with one
    that visits nothing. What is visited does not depend on the order of the items, only the order of the visits does. -/

namespace Sweeps

variable {ι α : Type} [DecidableEq α] (parent child : ι → α)

/-- One sweep: the items that are visited, and those that are left. -/
def sweep : List α → List ι → List ι × List ι
  | _, [] => ([], [])
  | known, j :: rest =>
    if parent j ∈ known then
      let (visited, pending) := sweep (child j :: known) rest
      (j :: visited, pending)
    else
      let (visited, pending) := sweep known rest
      (visited, j :: pending)

/-- Up to `n` sweeps. -/
def order : ℕ → List α → List ι → List ι × List ι
  | 0, _, items => ([], items)
  | n + 1, known, items =>
    let (visited, pending) := sweep parent child known items
    let (later, stuck) := order n (visited.map child ++ known) pending
    (visited ++ later, stuck)

omit [DecidableEq α] in
/-- Each item has a known parent when its turn comes. -/
def Grows : List α → List ι → Prop
  | _, [] => True
  | known, j :: rest => parent j ∈ known ∧ Grows (child j :: known) rest

/-- What is known once items that are known to hang together are visited. -/
inductive Reach (root : α) (items : List ι) : α → Prop
  | root : Reach root items root
  | step (j : ι) : j ∈ items → Reach root items (parent j) → Reach root items (child j)

variable {parent child} {known more : List α} {items visited others : List ι} {n : ℕ}

omit [DecidableEq α] in
theorem Grows.mono (h : Grows parent child known items) (hsub : known ⊆ more) : Grows parent child more items := by
  induction items generalizing known more with
  | nil => trivial
  | cons j rest ih =>
    refine ⟨hsub h.1, ih h.2 fun x hx => ?_⟩
    rcases List.mem_cons.mp hx with rfl | hx
    · exact List.mem_cons_self
    · exact List.mem_cons_of_mem _ (hsub hx)

omit [DecidableEq α] in
theorem Grows.append (h : Grows parent child known visited) (h' : Grows parent child (visited.map child ++ known) others) :
    Grows parent child known (visited ++ others) := by
  induction visited generalizing known with
  | nil => exact h'
  | cons j rest ih =>
    refine ⟨h.1, ih h.2 (h'.mono fun x hx => ?_)⟩
    simp only [List.map_cons, List.cons_append, List.mem_cons, List.mem_append] at hx ⊢
    tauto

omit [DecidableEq α] in
theorem Grows.left (h : Grows parent child known (visited ++ others)) : Grows parent child known visited := by
  induction visited generalizing known with
  | nil => trivial
  | cons j rest ih => exact ⟨h.1, ih h.2⟩

omit [DecidableEq α] in
theorem Grows.next {j : ι} (h : Grows parent child known (visited ++ j :: others)) : parent j ∈ visited.map child ++ known := by
  induction visited generalizing known with
  | nil => exact h.1
  | cons i rest ih =>
    have hmem := ih h.2
    simp only [List.map_cons, List.cons_append, List.mem_cons, List.mem_append] at hmem ⊢
    tauto

/-! ### One sweep -/

variable (parent child) in
theorem sweep_perm (known : List α) (items : List ι) :
    ((sweep parent child known items).1 ++ (sweep parent child known items).2).Perm items := by
  induction items generalizing known with
  | nil => exact .refl _
  | cons j rest ih =>
    unfold sweep
    split
    · exact (ih _).cons j
    · exact List.perm_middle.trans ((ih _).cons j)

variable (parent child) in
theorem sweep_grows (known : List α) (items : List ι) : Grows parent child known (sweep parent child known items).1 := by
  induction items generalizing known with
  | nil => trivial
  | cons j rest ih =>
    unfold sweep
    split
    · rename_i hknown
      exact ⟨hknown, ih _⟩
    · exact ih _

/-- A sweep that visits nothing has found no known parent. -/
theorem sweep_stuck (h : (sweep parent child known items).1 = []) :
    (sweep parent child known items).2 = items ∧ ∀ j ∈ items, parent j ∉ known := by
  induction items generalizing known with
  | nil => exact ⟨rfl, fun j hj => (by cases hj)⟩
  | cons j rest ih =>
    unfold sweep at h ⊢
    split at h
    · cases h
    · rename_i hknown
      rw [if_neg hknown]
      obtain ⟨hsame, hrest⟩ := ih h
      refine ⟨congrArg (j :: ·) hsame, fun i hi => ?_⟩
      rcases List.mem_cons.mp hi with rfl | hi
      · exact hknown
      · exact hrest i hi

variable (parent child) in
theorem sweep_length (known : List α) (items : List ι) :
    (sweep parent child known items).1.length + (sweep parent child known items).2.length = items.length := by
  rw [← List.length_append]
  exact (sweep_perm parent child known items).length_eq

/-! ### All sweeps -/

variable (parent child) in
theorem order_perm (n : ℕ) (known : List α) (items : List ι) :
    ((order parent child n known items).1 ++ (order parent child n known items).2).Perm items := by
  induction n generalizing known items with
  | zero => exact .refl _
  | succ n ih =>
    unfold order
    dsimp only
    rw [List.append_assoc]
    exact ((ih _ _).append_left _).trans (sweep_perm parent child known items)

variable (parent child) in
theorem order_grows (n : ℕ) (known : List α) (items : List ι) : Grows parent child known (order parent child n known items).1 := by
  induction n generalizing known items with
  | zero => trivial
  | succ n ih =>
    unfold order
    exact (sweep_grows parent child known items).append (ih _ _)

theorem sweep_of_stuck (h : ∀ j ∈ items, parent j ∉ known) : sweep parent child known items = ([], items) := by
  induction items with
  | nil => rfl
  | cons j rest ih =>
    unfold sweep
    rw [if_neg (h j List.mem_cons_self), ih fun i hi => h i (List.mem_cons_of_mem _ hi)]

theorem order_of_stuck (h : ∀ j ∈ items, parent j ∉ known) : order parent child n known items = ([], items) := by
  induction n with
  | zero => rfl
  | succ n ih =>
    unfold order
    rw [sweep_of_stuck h]
    exact congrArg (fun o : List ι × List ι => ([] ++ o.1, o.2)) ih

variable (parent child) in
/-- After as many sweeps as there are items, no item that is left has a known parent. -/
theorem order_stuck (known : List α) (hn : items.length ≤ n) : ∀ j ∈ (order parent child n known items).2,
    parent j ∉ (order parent child n known items).1.map child ++ known := by
  induction n generalizing known items with
  | zero =>
    obtain rfl := List.length_eq_zero_iff.mp (Nat.le_zero.mp hn)
    exact fun j hj => (by cases hj)
  | succ n ih =>
    cases hvisited : (sweep parent child known items).1 with
    | nil =>
      have hnone := (sweep_stuck hvisited).2
      rw [order_of_stuck hnone]
      exact hnone
    | cons i rest =>
      have hlen := sweep_length parent child known items
      rw [hvisited, List.length_cons] at hlen
      have hlater := ih ((sweep parent child known items).1.map child ++ known)
        (show (sweep parent child known items).2.length ≤ n by omega)
      unfold order
      dsimp only
      intro j hj hmem
      refine hlater j hj ?_
      simp only [List.map_append, List.mem_append] at hmem ⊢
      tauto

/-- More sweeps than there are items change nothing. -/
theorem order_eq {m : ℕ} (hn : items.length ≤ n) (hm : items.length ≤ m) :
    order parent child n known items = order parent child m known items := by
  have hempty : ∀ k known, order parent child k known [] = ([], []) := fun k known => order_of_stuck fun j hj => (by cases hj)
  induction n generalizing m known items with
  | zero =>
    obtain rfl := List.length_eq_zero_iff.mp (Nat.le_zero.mp hn)
    rw [hempty, hempty]
  | succ n ih =>
    cases m with
    | zero =>
      obtain rfl := List.length_eq_zero_iff.mp (Nat.le_zero.mp hm)
      rw [hempty, hempty]
    | succ m =>
      cases hvisited : (sweep parent child known items).1 with
      | nil =>
        have hnone := (sweep_stuck hvisited).2
        rw [order_of_stuck hnone, order_of_stuck hnone]
      | cons i rest =>
        have hlen := sweep_length parent child known items
        rw [hvisited, List.length_cons] at hlen
        unfold order
        dsimp only
        rw [@ih _ _ m (by omega) (by omega)]

/-! ### What is reached -/

omit [DecidableEq α] in
theorem Grows.reach {root : α} (h : Grows parent child known visited) (hsub : ∀ j ∈ visited, j ∈ items)
    (hknown : ∀ x ∈ known, Reach parent child root items x) :
    ∀ x ∈ visited.map child ++ known, Reach parent child root items x := by
  induction visited generalizing known with
  | nil => exact hknown
  | cons j rest ih =>
    have hchild : Reach parent child root items (child j) := .step j (hsub j List.mem_cons_self) (hknown _ h.1)
    have hrest := ih h.2 (fun i hi => hsub i (List.mem_cons_of_mem _ hi)) fun x hx => by
      rcases List.mem_cons.mp hx with rfl | hx
      · exact hchild
      · exact hknown x hx
    intro x hx
    refine hrest x ?_
    simp only [List.map_cons, List.cons_append, List.mem_cons, List.mem_append] at hx ⊢
    tauto

omit [DecidableEq α] in
/-- The parents of visited items were known. -/
theorem Grows.parents (h : Grows parent child known visited) : ∀ j ∈ visited, parent j ∈ visited.map child ++ known := by
  induction visited generalizing known with
  | nil => exact fun j hj => (by cases hj)
  | cons i rest ih =>
    intro j hj
    rcases List.mem_cons.mp hj with rfl | hj
    · exact List.mem_append_right _ h.1
    · have hmem := ih h.2 j hj
      simp only [List.map_cons, List.cons_append, List.mem_cons, List.mem_append] at hmem ⊢
      tauto

/-- An item is left exactly where some item hangs from what is not reached. -/
theorem order_complete_iff {root : α} (hn : items.length ≤ n) :
    (order parent child n [root] items).2 = [] ↔ ∀ j ∈ items, Reach parent child root items (parent j) := by
  have hperm := order_perm parent child n [root] items
  have hgrows := order_grows parent child n [root] items
  have hstuck := order_stuck parent child [root] hn
  revert hperm hgrows hstuck
  generalize order parent child n [root] items = o
  obtain ⟨visited, stuck⟩ := o
  intro hperm hgrows hstuck
  have hvisited : ∀ j ∈ visited, j ∈ items := fun j hj => hperm.mem_iff.mp (List.mem_append_left _ hj)
  have hroot : ∀ x ∈ [root], Reach parent child root items x := fun x hx => List.mem_singleton.mp hx ▸ .root
  have hreached := hgrows.reach hvisited hroot
  constructor
  · rintro rfl
    intro j hj
    rw [List.append_nil] at hperm
    exact hreached _ (hgrows.parents j (hperm.mem_iff.mpr hj))
  · intro hall
    have hknown : ∀ x, Reach parent child root items x → x ∈ visited.map child ++ [root] := by
      intro x hx
      induction hx with
      | root => exact List.mem_append_right _ List.mem_cons_self
      | step j hj _ ih =>
        rcases List.mem_append.mp (hperm.mem_iff.mpr hj) with hin | hin
        · exact List.mem_append_left _ (List.mem_map_of_mem hin)
        · exact absurd ih (hstuck j hin)
    refine List.eq_nil_iff_forall_not_mem.mpr fun j hj => hstuck j hj (hknown _ (hall j ?_))
    exact hperm.mem_iff.mp (List.mem_append_right _ hj)

end Sweeps
