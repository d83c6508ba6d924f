import Mathlib.Algebra.BigOperators.Group.Finset.Basic
import Mathlib.Data.List.Nodup
import Mathlib.Logic.Relation
import Mathlib.Order.WellFounded

/-! Trees by their parents: `parent x` is the node that `x` hangs from, if it hangs from one. Where no node is above itself, each
    node is below one that hangs from none. -/

namespace Forest

variable {α : Type}

/-- The node is another one or somewhere below it. -/
def Under (parent : α → Option α) : α → α → Prop := Relation.ReflTransGen fun x y => parent x = some y

/-- Going up ends. -/
def Grounded (parent : α → Option α) : Prop := WellFounded fun y x => parent x = some y

section
variable {parent : α → Option α} {x y z : α}

theorem Under.eq_or_above (h : Under parent x y) : x = y ∨ ∃ z, parent x = some z ∧ Under parent z y := by
  rcases Relation.ReflTransGen.cases_head h with rfl | ⟨z, hz, hrest⟩
  · exact Or.inl rfl
  · exact Or.inr ⟨z, hz, hrest⟩

/-- The nodes above one are in line. -/
theorem Under.linear (hy : Under parent x y) (hz : Under parent x z) : Under parent y z ∨ Under parent z y := by
  induction hy with
  | refl => exact Or.inl hz
  | tail _ hstep ih =>
    rcases ih with hyz | hzy
    · rcases hyz.eq_or_above with rfl | ⟨w, hw, hrest⟩
      · exact Or.inr (.single hstep)
      · obtain rfl := Option.some.inj (hstep.symm.trans hw)
        exact Or.inl hrest
    · exact Or.inr (hzy.tail hstep)

theorem Under.eq_of_none (h : Under parent x y) (hx : parent x = none) : x = y := by
  rcases h.eq_or_above with heq | ⟨z, hz, -⟩
  · exact heq
  · rw [hx] at hz
    cases hz

/-- A node is below one top only. -/
theorem top_unique (hy : Under parent x y) (hz : Under parent x z) (hytop : parent y = none) (hztop : parent z = none) : y = z := by
  rcases hy.linear hz with h | h
  · exact h.eq_of_none hytop
  · exact (h.eq_of_none hztop).symm

theorem Grounded.exists_top (h : Grounded parent) (x : α) : ∃ y, Under parent x y ∧ parent y = none := by
  induction x using h.induction with
  | _ x ih =>
    cases hx : parent x with
    | none => exact ⟨x, .refl, hx⟩
    | some z =>
      obtain ⟨y, hy, htop⟩ := ih z hx
      exact ⟨y, .head hx hy, htop⟩

/-- The node that hangs from none, above a node. -/
noncomputable def Grounded.top (h : Grounded parent) (x : α) : α := (h.exists_top x).choose

theorem Grounded.under_top (h : Grounded parent) (x : α) : Under parent x (h.top x) := (h.exists_top x).choose_spec.1

theorem Grounded.parent_top (h : Grounded parent) (x : α) : parent (h.top x) = none := (h.exists_top x).choose_spec.2

theorem Grounded.under_iff (h : Grounded parent) (hy : parent y = none) : Under parent x y ↔ h.top x = y := by
  refine ⟨fun hunder => top_unique (h.under_top x) hunder (h.parent_top x) hy, ?_⟩
  rintro rfl
  exact h.under_top x

open Classical in
/-- What is added up below each top is added up over all nodes. -/
theorem Grounded.sum_tops {M : Type} [AddCommMonoid M] (h : Grounded parent) {nodes tops : Finset α} {f : α → M}
    (htops : ∀ x ∈ nodes, h.top x ∈ tops) (hnone : ∀ y ∈ tops, parent y = none) :
    ∑ y ∈ tops, ∑ x ∈ nodes with Under parent x y, f x = ∑ x ∈ nodes, f x := by
  rw [← Finset.sum_fiberwise_of_maps_to htops]
  refine Finset.sum_congr rfl fun y hy => Finset.sum_congr (Finset.filter_congr fun x _ => ?_) fun _ _ => rfl
  exact h.under_iff (hnone y hy)

end

/-! ### Edges -/

/-- Edges from a parent to a child form a tree: no node has two parents, and each is below the root. -/
structure Rooted (root : α) (edges : List (α × α)) : Prop where
  nodup : (edges.map Prod.snd).Nodup
  root_top : root ∉ edges.map Prod.snd
  reach : ∀ e ∈ edges, Relation.ReflTransGen (fun p c => (p, c) ∈ edges) root e.2

section
variable {root p p' c : α} {edges others : List (α × α)}

theorem Rooted.parent_unique (h : Rooted root edges) (hp : (p, c) ∈ edges) (hp' : (p', c) ∈ edges) : p = p' :=
  congrArg Prod.fst (List.inj_on_of_nodup_map h.nodup hp hp' rfl)

theorem Rooted.perm (h : Rooted root edges) (hperm : others.Perm edges) : Rooted root others where
  nodup := (hperm.map _).nodup_iff.mpr h.nodup
  root_top hmem := h.root_top ((hperm.map _).mem_iff.mp hmem)
  reach e he := Relation.ReflTransGen.mono (fun _ _ hstep => hperm.mem_iff.mpr hstep) _ _ (h.reach e (hperm.mem_iff.mp he))

/-- No node of a tree is above itself. -/
theorem Rooted.wellFounded (h : Rooted root edges) : WellFounded fun p c => (p, c) ∈ edges := by
  have hroot : Acc (fun p c => (p, c) ∈ edges) root := .intro root fun p hp =>
    absurd (List.mem_map_of_mem (f := Prod.snd) hp) h.root_top
  have hreached : ∀ c, Relation.ReflTransGen (fun p c => (p, c) ∈ edges) root c → Acc (fun p c => (p, c) ∈ edges) c := by
    intro c hc
    induction hc with
    | refl => exact hroot
    | tail _ hstep ih => exact .intro _ fun p hp => h.parent_unique hstep hp ▸ ih
  exact ⟨fun c => .intro c fun p hp => hreached p (by
    -- The parent of a child is the root or a child itself.
    rcases Relation.ReflTransGen.cases_tail (h.reach _ hp) with heq | ⟨p', hp', hstep⟩
    · exact absurd (List.mem_map_of_mem (f := Prod.snd) hp) (heq ▸ h.root_top)
    · exact h.parent_unique hstep hp ▸ hp')⟩

end
end Forest
