import Mathlib.Algebra.BigOperators.Group.Finset.Basic
import Mathlib.Data.List.Basic
import Mathlib.Data.List.Nodup

/-! Dictionaries that keep the order of insertion, as lists of keys and values, each key once. -/

namespace Dict

variable {κ α : Type} [DecidableEq κ]

/-- `d[key] = value`. -/
def set : List (κ × α) → κ → α → List (κ × α)
  | [], key, value => [(key, value)]
  | item :: rest, key, value => if item.1 = key then (key, value) :: rest else item :: set rest key value

/-- `d.pop(key, None)`. -/
def pop (d : List (κ × α)) (key : κ) : List (κ × α) := d.filter (·.1 ≠ key)

def keys (d : List (κ × α)) : List κ := d.map (·.1)

variable {d : List (κ × α)} {key name : κ} {value : α}

theorem lookup_set (d : List (κ × α)) (key name : κ) (value : α) :
    (set d key value).lookup name = if name = key then some value else d.lookup name := by
  induction d with
  | nil =>
    unfold set
    rw [List.lookup_cons]
    by_cases hname : name = key
    · simp [hname]
    · simp [hname, beq_false_of_ne hname]
  | cons item rest ih =>
    unfold set
    by_cases hitem : item.1 = key
    · rw [if_pos hitem, List.lookup_cons, List.lookup_cons, hitem]
      by_cases hname : name = key
      · simp [hname]
      · simp [hname, beq_false_of_ne hname]
    · rw [if_neg hitem, List.lookup_cons, List.lookup_cons, ih]
      by_cases hname : name = item.1
      · simp [hname, hitem]
      · simp [beq_false_of_ne hname]

theorem lookup_pop (d : List (κ × α)) (key name : κ) : (pop d key).lookup name = if name = key then none else d.lookup name := by
  unfold pop
  induction d with
  | nil => simp
  | cons item rest ih =>
    by_cases hitem : item.1 = key
    · rw [List.filter_cons_of_neg (by simpa using hitem), ih, List.lookup_cons, hitem]
      by_cases hname : name = key
      · simp [hname]
      · simp [hname, beq_false_of_ne hname]
    · rw [List.filter_cons_of_pos (by simpa using hitem), List.lookup_cons, List.lookup_cons, ih]
      by_cases hname : name = item.1
      · simp [hname, hitem]
      · simp [beq_false_of_ne hname]

omit [DecidableEq κ] in
theorem mem_keys_cons {item : κ × α} : name ∈ keys (item :: d) ↔ name = item.1 ∨ name ∈ keys d := by
  rw [keys, List.map_cons, List.mem_cons]
  rfl

theorem mem_keys_set : name ∈ keys (set d key value) ↔ name = key ∨ name ∈ keys d := by
  induction d with
  | nil => simp [set, keys]
  | cons item rest ih =>
    unfold set
    by_cases hitem : item.1 = key
    · simp [keys, hitem]
    · rw [if_neg hitem]
      simp only [keys, List.map_cons, List.mem_cons] at ih ⊢
      rw [ih]
      exact or_left_comm

theorem set_of_not_mem (h : key ∉ keys d) : set d key value = d ++ [(key, value)] := by
  induction d with
  | nil => rfl
  | cons item rest ih =>
    rw [mem_keys_cons, not_or] at h
    unfold set
    rw [if_neg (Ne.symm h.1), ih h.2]
    rfl

theorem nodup_set (h : (keys d).Nodup) : (keys (set d key value)).Nodup := by
  induction d with
  | nil => exact List.nodup_singleton key
  | cons item rest ih =>
    simp only [keys, List.map_cons, List.nodup_cons] at h
    unfold set
    by_cases hitem : item.1 = key
    · rw [if_pos hitem]
      simp only [keys, List.map_cons, List.nodup_cons]
      exact hitem ▸ h
    · rw [if_neg hitem]
      simp only [keys, List.map_cons, List.nodup_cons]
      refine ⟨fun hmem => ?_, ih h.2⟩
      rcases mem_keys_set.mp hmem with heq | hmem
      · exact hitem heq
      · exact h.1 hmem

theorem nodup_pop (h : (keys d).Nodup) : (keys (pop d key)).Nodup := h.sublist (List.filter_sublist.map _)

theorem lookup_isSome_iff : (d.lookup name).isSome ↔ name ∈ keys d := by
  simp only [List.lookup_isSome_iff, keys, List.mem_map, beq_iff_eq]
  exact ⟨fun ⟨p, hp, heq⟩ => ⟨p, hp, heq.symm⟩, fun ⟨p, hp, heq⟩ => ⟨p, hp, heq.symm⟩⟩

theorem lookup_eq_some_iff (h : (keys d).Nodup) : d.lookup name = some value ↔ (name, value) ∈ d := by
  induction d with
  | nil => simp
  | cons item rest ih =>
    obtain ⟨k, v⟩ := item
    simp only [keys, List.map_cons, List.nodup_cons] at h
    rw [List.lookup_cons, List.mem_cons]
    by_cases hname : name = k
    · subst hname
      rw [beq_self_eq_true, Prod.mk.injEq]
      refine ⟨fun heq => Or.inl ⟨rfl, (Option.some.inj heq).symm⟩, ?_⟩
      rintro (⟨-, rfl⟩ | hmem)
      · rfl
      · exact absurd (List.mem_map_of_mem (f := Prod.fst) hmem) h.1
    · rw [beq_false_of_ne hname, ih h.2]
      simp [hname]

/-- Setting items in turn leaves for each key one of the values that it was set to. -/
theorem lookup_sets {β : Type} (key : β → κ) (pairs : List (β × α)) (d : List (κ × α)) (name : κ) :
    (∃ p ∈ pairs, key p.1 = name ∧ (pairs.foldl (fun d p => set d (key p.1) p.2) d).lookup name = some p.2) ∨
    (∀ p ∈ pairs, key p.1 ≠ name) ∧ (pairs.foldl (fun d p => set d (key p.1) p.2) d).lookup name = d.lookup name := by
  induction pairs generalizing d with
  | nil => exact Or.inr ⟨fun p hp => absurd hp List.not_mem_nil, rfl⟩
  | cons p rest ih =>
    rw [List.foldl_cons]
    rcases ih (set d (key p.1) p.2) with ⟨q, hq, hname, hlookup⟩ | ⟨hnone, hlookup⟩
    · exact Or.inl ⟨q, List.mem_cons_of_mem _ hq, hname, hlookup⟩
    · rw [lookup_set] at hlookup
      by_cases hname : key p.1 = name
      · rw [if_pos hname.symm] at hlookup
        exact Or.inl ⟨p, List.mem_cons_self, hname, hlookup⟩
      · rw [if_neg (Ne.symm hname)] at hlookup
        exact Or.inr ⟨List.forall_mem_cons.mpr ⟨hname, hnone⟩, hlookup⟩

/-- The values of a dictionary are those of its keys. -/
theorem sum_values [AddCommMonoid α] (h : (keys d).Nodup) :
    (d.map (·.2)).sum = ∑ k ∈ (keys d).toFinset, (d.lookup k).getD 0 := by
  rw [List.sum_toFinset _ h, keys, List.map_map]
  refine congrArg List.sum (List.map_congr_left fun item hitem => ?_)
  rw [Function.comp_apply, (lookup_eq_some_iff h).mpr hitem]
  rfl

/-! ### Keys that are numbered in order -/

section
variable {names : List κ}

omit [DecidableEq κ] in
theorem keys_zipIdx (names : List κ) : keys names.zipIdx = names := List.zipIdx_map_fst 0 names

theorem lookup_zipIdx (h : name ∈ names) (k : Nat) : (names.zipIdx k).lookup name = some (names.idxOf name + k) := by
  induction names generalizing k with
  | nil => cases h
  | cons first rest ih =>
    rw [List.zipIdx_cons, List.lookup_cons, List.idxOf_cons]
    by_cases hname : name = first
    · simp [hname]
    · have hrest := (List.mem_cons.mp h).resolve_left hname
      rw [beq_false_of_ne hname, beq_false_of_ne (Ne.symm hname), ih hrest]
      exact congrArg some (by rw [cond_false]; omega)

theorem set_zipIdx (h : name ∉ names) : set names.zipIdx name names.length = (names ++ [name]).zipIdx := by
  rw [set_of_not_mem fun hmem => h ((keys_zipIdx names) ▸ hmem), List.zipIdx_append, Nat.zero_add]
  rfl

end
end Dict
