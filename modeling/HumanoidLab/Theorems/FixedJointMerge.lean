import HumanoidLab.Lib.Fallible
import HumanoidLab.Lib.Forest
import HumanoidLab.Simulators.Masses
import Mathlib.Algebra.BigOperators.Group.Finset.Piecewise
import Mathlib.Data.List.Sort

/-! The merge of fixed joints, in exact arithmetic. One pass adds the authored mass of each child to its parent and then drops the
    children, so that what hangs by a fixed joint from a link that is dropped is added to a link that is dropped. -/

namespace HumanoidLab.Masses
open Fallible Forest

variable {M : Type}

/-! ### What the passes leave -/

section
variable [Zero M] [Add M] {masses merged : List (String × M)} {fixed : List (String × String)} {name : String}

omit [Add M] in
theorem massOf_set (merged : List (String × M)) (key : String) (value : M) :
    massOf (Dict.set merged key value) name = if name = key then value else massOf merged name := by
  unfold massOf
  rw [Dict.lookup_set]
  split <;> rfl

variable (masses) in
theorem mem_keys_addedMasses : name ∈ Dict.keys (addedMasses masses fixed) ↔
    name ∈ Dict.keys masses ∨ ∃ child, (child, name) ∈ fixed := by
  suffices ∀ merged : List (String × M), name ∈ Dict.keys (fixed.foldl (addChildMass masses) merged) ↔
        name ∈ Dict.keys merged ∨ ∃ child, (child, name) ∈ fixed from this masses
  induction fixed with
  | nil => simp
  | cons entry rest ih =>
    obtain ⟨child, parent⟩ := entry
    intro merged
    rw [List.foldl_cons, ih, addChildMass, Dict.mem_keys_set]
    simp only [List.mem_cons, Prod.mk.injEq, exists_or, exists_eq_left, or_assoc]
    rw [or_left_comm]

theorem nodup_addedMasses (h : (Dict.keys masses).Nodup) : (Dict.keys (addedMasses masses fixed)).Nodup := by
  suffices ∀ merged : List (String × M), (Dict.keys merged).Nodup →
      (Dict.keys (fixed.foldl (addChildMass masses) merged)).Nodup from this masses h
  induction fixed with
  | nil => exact fun _ h => h
  | cons entry rest ih =>
    intro merged hmerged
    exact ih _ (Dict.nodup_set hmerged)

omit [Zero M] [Add M] in
theorem lookup_pops (merged : List (String × M)) (fixed : List (String × String)) (name : String) :
    (fixed.foldl (fun merged (child, _) => Dict.pop merged child) merged).lookup name =
      if name ∈ Dict.keys fixed then none else merged.lookup name := by
  induction fixed generalizing merged with
  | nil => rfl
  | cons entry rest ih =>
    rw [List.foldl_cons, ih, Dict.lookup_pop]
    by_cases hrest : name ∈ Dict.keys rest
    · rw [if_pos hrest, if_pos (Dict.mem_keys_cons.mpr (Or.inr hrest))]
    · rw [if_neg hrest]
      by_cases hname : name = entry.1
      · rw [if_pos hname, if_pos (Dict.mem_keys_cons.mpr (Or.inl hname))]
      · rw [if_neg hname, if_neg fun hmem => (Dict.mem_keys_cons.mp hmem).elim hname hrest]

theorem nodup_mergedMasses (h : (Dict.keys masses).Nodup) : (Dict.keys (mergedMasses masses fixed)).Nodup := by
  suffices ∀ (fixed : List (String × String)) (merged : List (String × M)), (Dict.keys merged).Nodup →
      (Dict.keys (fixed.foldl (fun merged (child, _) => Dict.pop merged child) merged)).Nodup from
    this fixed _ (nodup_addedMasses h)
  intro fixed
  induction fixed with
  | nil => exact fun _ h => h
  | cons entry rest ih =>
    intro merged hmerged
    exact ih _ (Dict.nodup_pop hmerged)

theorem lookup_mergedMasses (masses : List (String × M)) (fixed : List (String × String)) (name : String) :
    (mergedMasses masses fixed).lookup name =
      if name ∈ Dict.keys fixed then none else (addedMasses masses fixed).lookup name := lookup_pops _ fixed name

theorem lookup_eq_none_iff : fixed.lookup name = none ↔ name ∉ Dict.keys fixed := by
  rw [← Dict.lookup_isSome_iff, Bool.not_eq_true, Option.isSome_eq_false_iff, Option.isNone_iff_eq_none]

/-- The merged masses are those of the links that hang by no fixed joint and have a mass or a child. -/
theorem mem_keys_mergedMasses : name ∈ Dict.keys (mergedMasses masses fixed) ↔
    fixed.lookup name = none ∧ (name ∈ Dict.keys masses ∨ ∃ child, (child, name) ∈ fixed) := by
  rw [← mem_keys_addedMasses masses, ← Dict.lookup_isSome_iff, ← Dict.lookup_isSome_iff, lookup_mergedMasses,
    lookup_eq_none_iff]
  by_cases hname : name ∈ Dict.keys fixed <;> simp [hname]

end
/-! ### Masses below a link -/

section
variable [AddCommGroup M] {masses : List (String × M)} {fixed fixed' : List (String × String)} {s : String}

/-- The links that have a mass. -/
def massive (masses : List (String × M)) : Finset String := (Dict.keys masses).toFinset

abbrev parentIn (fixed : List (String × String)) (n : String) : Option String := fixed.lookup n

/-- The link hangs by two fixed joints or more below another one. -/
def Buried (fixed : List (String × String)) (n s : String) : Prop :=
  ∃ p q, fixed.lookup n = some p ∧ fixed.lookup p = some q ∧ Under (parentIn fixed) q s

open Classical in
/-- The mass of a link and of all that hangs from it by fixed joints. -/
noncomputable def subtreeMass (masses : List (String × M)) (fixed : List (String × String)) (s : String) : M :=
  ∑ n ∈ massive masses with Under (parentIn fixed) n s, massOf masses n

open Classical in
noncomputable def buriedMass (masses : List (String × M)) (fixed : List (String × String)) (s : String) : M :=
  ∑ n ∈ massive masses with Buried fixed n s, massOf masses n

/-- The mass of a link and of those that hang from it by one fixed joint. -/
def attachedMass (masses : List (String × M)) (fixed : List (String × String)) (s : String) : M :=
  massOf masses s + ∑ n ∈ massive masses with fixed.lookup n = some s, massOf masses n

theorem massOf_eq_zero {n : String} (h : n ∉ massive masses) : massOf masses n = 0 := by
  rw [massive, List.mem_toFinset, ← Dict.lookup_isSome_iff, Bool.not_eq_true, Option.isSome_eq_false_iff,
    Option.isNone_iff_eq_none] at h
  rw [massOf, h]
  rfl

variable (fixed s) in
theorem under_iff (n : String) : Under (parentIn fixed) n s ↔ n = s ∨ fixed.lookup n = some s ∨ Buried fixed n s := by
  constructor
  · intro h
    rcases h.eq_or_above with rfl | ⟨p, hp, hrest⟩
    · exact Or.inl rfl
    rcases hrest.eq_or_above with rfl | ⟨q, hq, hrest⟩
    · exact Or.inr (Or.inl hp)
    · exact Or.inr (Or.inr ⟨p, q, hp, hq, hrest⟩)
  · rintro (rfl | h | ⟨p, q, hp, hq, hrest⟩)
    · exact .refl
    · exact .single h
    · exact .head hp (.head hq hrest)

/-- Below a link that hangs from none, each mass is its own, that of a child, or buried. -/
theorem subtreeMass_eq (hs : fixed.lookup s = none) :
    subtreeMass masses fixed s = attachedMass masses fixed s + buriedMass masses fixed s := by
  classical
  have hself : massOf masses s = ∑ n ∈ massive masses, if n = s then massOf masses n else 0 := by
    rw [Finset.sum_ite_eq' (massive masses) s]
    split
    · rfl
    · rename_i hnone
      exact massOf_eq_zero hnone
  rw [subtreeMass, attachedMass, buriedMass, Finset.sum_filter, Finset.sum_filter, Finset.sum_filter, hself,
    ← Finset.sum_add_distrib, ← Finset.sum_add_distrib]
  refine Finset.sum_congr rfl fun n _ => ?_
  have hiff := under_iff fixed s n
  by_cases hn : n = s
  · -- The link itself hangs from none.
    have hchild : ¬fixed.lookup n = some s := by
      rw [hn, hs]
      exact Option.some_ne_none s ∘ Eq.symm
    have hburied : ¬Buried fixed n s := by
      rintro ⟨p, q, hp, -⟩
      rw [hn, hs] at hp
      cases hp
    rw [if_pos (hiff.mpr (Or.inl hn)), if_pos hn, if_neg hchild, if_neg hburied, add_zero, add_zero]
  · by_cases hchild : fixed.lookup n = some s
    · have hburied : ¬Buried fixed n s := by
        rintro ⟨p, q, hp, hq, -⟩
        obtain rfl := Option.some.inj (hchild.symm.trans hp)
        rw [hs] at hq
        cases hq
      rw [if_pos (hiff.mpr (Or.inr (Or.inl hchild))), if_neg hn, if_pos hchild, if_neg hburied, add_zero, zero_add]
    · rw [if_neg hn, if_neg hchild, zero_add, zero_add]
      exact if_congr (by tauto) rfl rfl

theorem massOf_addedMasses (hfixed : (Dict.keys fixed).Nodup) :
    massOf (addedMasses masses fixed) s = attachedMass masses fixed s := by
  have hfold : ∀ merged : List (String × M), massOf (fixed.foldl (addChildMass masses) merged) s =
        massOf merged s + ((fixed.filter (·.2 = s)).map fun entry => massOf masses entry.1).sum := by
    clear hfixed
    induction fixed with
    | nil => simp
    | cons entry rest ih =>
      intro merged
      rw [List.foldl_cons, ih, addChildMass, massOf_set]
      by_cases hentry : entry.2 = s
      · rw [if_pos hentry.symm, List.filter_cons_of_pos (by simpa using hentry), List.map_cons, List.sum_cons, hentry, add_assoc]
      · rw [if_neg (Ne.symm hentry), List.filter_cons_of_neg (by simpa using hentry)]
  rw [addedMasses, hfold, attachedMass]
  congr 1
  have hnodup : ((fixed.filter (·.2 = s)).map (·.1)).Nodup := hfixed.sublist (List.filter_sublist.map _)
  have hsum : ((fixed.filter (·.2 = s)).map fun entry => massOf masses entry.1) =
      ((fixed.filter (·.2 = s)).map (·.1)).map (massOf masses) := by
    rw [List.map_map]
    rfl
  rw [hsum, ← List.sum_toFinset _ hnodup]
  refine (Finset.sum_subset (fun n hn => ?_) fun n hn hnone => ?_).symm
  · rw [Finset.mem_filter, Dict.lookup_eq_some_iff hfixed] at hn
    exact List.mem_toFinset.mpr (List.mem_map.mpr ⟨(n, s), List.mem_filter.mpr ⟨hn.2, decide_eq_true rfl⟩, rfl⟩)
  · refine massOf_eq_zero fun hmem => hnone ?_
    obtain ⟨entry, hentry, rfl⟩ := List.mem_map.mp (List.mem_toFinset.mp hn)
    obtain ⟨hentry, hparent⟩ := List.mem_filter.mp hentry
    rw [Finset.mem_filter, Dict.lookup_eq_some_iff hfixed]
    exact ⟨hmem, (of_decide_eq_true hparent : entry.2 = s) ▸ hentry⟩

theorem massOf_mergedMasses (hfixed : (Dict.keys fixed).Nodup) (hs : fixed.lookup s = none) :
    massOf (mergedMasses masses fixed) s = attachedMass masses fixed s := by
  rw [← massOf_addedMasses hfixed, massOf, massOf, lookup_mergedMasses, if_neg (lookup_eq_none_iff.mp hs)]

/-- The merged masses add up to the authored ones where nothing is buried. -/
theorem sum_mergedMasses (hmasses : (Dict.keys masses).Nodup) (hfixed : (Dict.keys fixed).Nodup)
    (hground : Grounded (parentIn fixed)) (hburied : ∀ s, fixed.lookup s = none → buriedMass masses fixed s = 0) :
    ((mergedMasses masses fixed).map (·.2)).sum = (masses.map (·.2)).sum := by
  have htop : ∀ s ∈ (Dict.keys (mergedMasses masses fixed)).toFinset, fixed.lookup s = none := fun s hs =>
    (mem_keys_mergedMasses.mp (List.mem_toFinset.mp hs)).1
  have hmaps : ∀ n ∈ massive masses, hground.top n ∈ (Dict.keys (mergedMasses masses fixed)).toFinset := fun n hn => by
    refine List.mem_toFinset.mpr (mem_keys_mergedMasses.mpr ⟨hground.parent_top n, ?_⟩)
    rcases Relation.ReflTransGen.cases_tail (hground.under_top n) with heq | ⟨child, -, hstep⟩
    · rw [heq]
      exact Or.inl (List.mem_toFinset.mp hn)
    · exact Or.inr ⟨child, (Dict.lookup_eq_some_iff hfixed).mp hstep⟩
  calc ((mergedMasses masses fixed).map (·.2)).sum
      = ∑ s ∈ (Dict.keys (mergedMasses masses fixed)).toFinset, massOf (mergedMasses masses fixed) s :=
        Dict.sum_values (nodup_mergedMasses hmasses)
    _ = ∑ s ∈ (Dict.keys (mergedMasses masses fixed)).toFinset, subtreeMass masses fixed s := by
        refine Finset.sum_congr rfl fun s hs => ?_
        rw [massOf_mergedMasses hfixed (htop s hs), subtreeMass_eq (htop s hs), hburied s (htop s hs), add_zero]
    _ = ∑ n ∈ massive masses, massOf masses n := hground.sum_tops hmaps htop
    _ = (masses.map (·.2)).sum := (Dict.sum_values hmasses).symm

/-- The order of the fixed joints does not show in the merged masses. -/
theorem lookup_mergedMasses_perm (hfixed : (Dict.keys fixed).Nodup) (hperm : fixed'.Perm fixed) (n : String) :
    (mergedMasses masses fixed').lookup n = (mergedMasses masses fixed).lookup n := by
  have hkeys : (Dict.keys fixed').Perm (Dict.keys fixed) := hperm.map _
  have hfixed' : (Dict.keys fixed').Nodup := hkeys.nodup_iff.mpr hfixed
  have hlookup : ∀ m, fixed'.lookup m = fixed.lookup m := fun m => Option.ext fun p => by
    rw [Dict.lookup_eq_some_iff hfixed', Dict.lookup_eq_some_iff hfixed, hperm.mem_iff]
  have hsome : ((mergedMasses masses fixed').lookup n).isSome ↔ ((mergedMasses masses fixed).lookup n).isSome := by
    simp only [Dict.lookup_isSome_iff, mem_keys_mergedMasses, hlookup, hperm.mem_iff]
  cases h : (mergedMasses masses fixed).lookup n with
  | none =>
    rw [h] at hsome
    exact Option.not_isSome_iff_eq_none.mp fun h' => absurd (hsome.mp h') Bool.false_ne_true
  | some m =>
    rw [h] at hsome
    obtain ⟨m', hm'⟩ := Option.isSome_iff_exists.mp (hsome.mpr rfl)
    have hmem : n ∈ Dict.keys (mergedMasses masses fixed) := Dict.lookup_isSome_iff.mp (by rw [h]; rfl)
    have htop : fixed.lookup n = none := (mem_keys_mergedMasses.mp hmem).1
    have hmass : massOf (mergedMasses masses fixed') n = massOf (mergedMasses masses fixed) n := by
      rw [massOf_mergedMasses hfixed' (hlookup n ▸ htop), massOf_mergedMasses hfixed htop]
      simp only [attachedMass, hlookup]
    rw [massOf, massOf, hm', h] at hmass
    rw [hm']
    exact congrArg some hmass

end

/-! ### Files -/

theorem linkMasses_nodup {float : String → Option M} {links : List LinkElement} {masses : List (String × M)}
    (h : linkMasses float links = .ok masses) : (Dict.keys masses).Nodup := by
  suffices ∀ (links : List LinkElement) (start : List (String × M)), (Dict.keys start).Nodup →
      links.foldlM (addLinkMass float) start = .ok masses → (Dict.keys masses).Nodup from
    this links [] List.nodup_nil h
  intro links
  induction links with
  | nil =>
    rintro start hstart h
    cases h
    exact hstart
  | cons link rest ih =>
    intro start hstart h
    rw [List.foldlM_cons] at h
    obtain ⟨next, hnext, hrest⟩ := bind_ok h
    refine ih next ?_ hrest
    unfold addLinkMass at hnext
    split at hnext
    · split at hnext
      · cases hnext
        exact hstart
      · split at hnext
        · cases hnext
          exact Dict.nodup_set hstart
        · cases hnext
    · cases hnext
      exact hstart

theorem fixedEdge_edge {j : JointElement} {e : String × String} (h : j.fixedEdge = some e) : j.edge = some e := by
  unfold JointElement.fixedEdge at h
  split at h
  · exact h
  · cases h

theorem fixedEdges_sublist (joints : List JointElement) :
    (joints.filterMap JointElement.fixedEdge).Sublist (joints.filterMap JointElement.edge) := by
  induction joints with
  | nil => exact .slnil
  | cons j rest ih =>
    cases hfixed : j.fixedEdge with
    | some e =>
      rw [List.filterMap_cons_some hfixed, List.filterMap_cons_some (fixedEdge_edge hfixed)]
      exact ih.cons_cons e
    | none =>
      rw [List.filterMap_cons_none hfixed]
      cases hedge : j.edge with
      | none => rwa [List.filterMap_cons_none hedge]
      | some e =>
        rw [List.filterMap_cons_some hedge]
        exact ih.cons e

/-- Where no child has two parents, the map is the list of the fixed joints. -/
theorem fixedParents_eq {joints : List JointElement} (h : ((joints.filterMap JointElement.fixedEdge).map (·.2)).Nodup) :
    fixedParents joints = (joints.filterMap JointElement.fixedEdge).map Prod.swap := by
  suffices ∀ start : List (String × String), (Dict.keys start ++ (joints.filterMap JointElement.fixedEdge).map (·.2)).Nodup →
      joints.foldl addFixedParent start = start ++ (joints.filterMap JointElement.fixedEdge).map Prod.swap from
    (this [] h).trans (List.nil_append _)
  clear h
  induction joints with
  | nil => exact fun start _ => (List.append_nil start).symm
  | cons j rest ih =>
    intro start hstart
    rw [List.foldl_cons, addFixedParent]
    cases hfixed : j.fixedEdge with
    | none =>
      rw [List.filterMap_cons_none hfixed] at hstart ⊢
      exact ih start hstart
    | some e =>
      obtain ⟨parent, child⟩ := e
      rw [List.filterMap_cons_some hfixed, List.map_cons] at hstart ⊢
      have hnew : child ∉ Dict.keys start := fun hmem =>
        (List.nodup_append.mp hstart).2.2 child hmem child List.mem_cons_self rfl
      dsimp only
      rw [Dict.set_of_not_mem hnew, ih, List.append_assoc]
      · rfl
      · rwa [Dict.keys, List.map_append, List.append_assoc]

section
variable {float : String → Option M} {u : Urdf} {root : String} {masses : List (String × M)} {fixed : List (String × String)}

theorem parse_ok (h : parseUrdfLinks float u = .ok (masses, fixed)) :
    linkMasses float u.links = .ok masses ∧ masses ≠ [] ∧ fixed = fixedParents u.joints := by
  obtain ⟨parsed, hparsed, h⟩ := bind_ok h
  obtain ⟨hsome, h⟩ := guard_ok.mp h
  cases h
  exact ⟨hparsed, hsome, rfl⟩

theorem rooted_fixedParents (htree : Rooted root u.edges) :
    fixedParents u.joints = (u.joints.filterMap JointElement.fixedEdge).map Prod.swap ∧
      (Dict.keys (fixedParents u.joints)).Nodup ∧ Grounded (parentIn (fixedParents u.joints)) := by
  have hnodup : ((u.joints.filterMap JointElement.fixedEdge).map (·.2)).Nodup :=
    htree.nodup.sublist ((fixedEdges_sublist u.joints).map _)
  have heq := fixedParents_eq hnodup
  have hkeys : (Dict.keys (fixedParents u.joints)).Nodup := by
    rw [heq, Dict.keys, List.map_map]
    exact hnodup
  refine ⟨heq, hkeys, Subrelation.wf (fun {p c} hstep => ?_) htree.wellFounded⟩
  rw [Dict.lookup_eq_some_iff hkeys, heq, List.mem_map] at hstep
  obtain ⟨e, he, heq⟩ := hstep
  obtain rfl : e = (p, c) := by
    rw [← Prod.swap_swap e, heq]
    rfl
  exact (fixedEdges_sublist u.joints).subset he

variable [AddCommGroup M]

/-- The result of the merge: each link that is left has the mass of all that was merged into it, nothing is lost, and the order of
    the joints does not matter. -/
structure Conserves (float : String → Option M) (u : Urdf) (masses : List (String × M)) (fixed : List (String × String)) : Prop where
  merged : ∀ merged away, loadUrdfMergedBodyMasses float u = .ok (merged, away) →
    (∀ s, fixed.lookup s = none → massOf merged s = subtreeMass masses fixed s) ∧
    (merged.map (·.2)).sum = (masses.map (·.2)).sum
  order : ∀ joints merged away, joints.Perm u.joints → loadUrdfMergedBodyMasses float u = .ok (merged, away) →
    ∃ merged', loadUrdfMergedBodyMasses float { u with joints := joints } = .ok (merged', away) ∧
      ∀ n, merged'.lookup n = merged.lookup n

theorem load_eq (h : parseUrdfLinks float u = .ok (masses, fixed)) :
    loadUrdfMergedBodyMasses float u = .ok (mergedMasses masses fixed, (Dict.keys fixed).mergeSort (· ≤ ·)) := by
  unfold loadUrdfMergedBodyMasses
  rw [h]
  rfl

/-- Another order of the joints gives the same masses, and the same links that are merged away. -/
theorem load_perm (htree : Rooted root u.edges) (h : parseUrdfLinks float u = .ok (masses, fixed)) {joints : List JointElement}
    (hperm : joints.Perm u.joints) :
    ∃ merged', loadUrdfMergedBodyMasses float { u with joints := joints } =
        .ok (merged', (Dict.keys fixed).mergeSort (· ≤ ·)) ∧ ∀ n, merged'.lookup n = (mergedMasses masses fixed).lookup n := by
  obtain ⟨hmasses, hsome, rfl⟩ := parse_ok h
  have htree' : Rooted root ({ u with joints := joints } : Urdf).edges := htree.perm (hperm.filterMap _)
  obtain ⟨heq, hkeys, -⟩ := rooted_fixedParents htree
  obtain ⟨heq', hkeys', -⟩ := rooted_fixedParents htree'
  have hfixed : (fixedParents joints).Perm (fixedParents u.joints) := by
    rw [heq, show fixedParents joints = _ from heq']
    exact (hperm.filterMap _).map _
  have hparse : parseUrdfLinks float { u with joints := joints } = .ok (masses, fixedParents joints) := by
    unfold parseUrdfLinks
    rw [hmasses]
    exact guard_ok.mpr ⟨hsome, rfl⟩
  have haway : (Dict.keys (fixedParents joints)).mergeSort (· ≤ ·) = (Dict.keys (fixedParents u.joints)).mergeSort (· ≤ ·) :=
    ((List.mergeSort_perm _ _).trans ((hfixed.map _).trans (List.mergeSort_perm _ _).symm)).eq_of_pairwise'
      (List.pairwise_mergeSort' (· ≤ ·) _) (List.pairwise_mergeSort' (· ≤ ·) _)
  exact ⟨_, (load_eq hparse).trans (by rw [haway]), lookup_mergedMasses_perm hkeys hfixed⟩

/-- The merge conserves the masses of a tree exactly where the masses that hang by two fixed joints or more below a link that is
    left add up to nothing. -/
theorem fixed_joint_merge (htree : Rooted root u.edges) (h : parseUrdfLinks float u = .ok (masses, fixed)) :
    Conserves float u masses fixed ↔ ∀ s, fixed.lookup s = none → buriedMass masses fixed s = 0 := by
  obtain ⟨hmasses, -, hfixed⟩ := parse_ok h
  obtain ⟨-, hkeys, hground⟩ := rooted_fixedParents htree
  rw [← hfixed] at hkeys hground
  constructor
  · intro hconserves s hs
    have hmass := (hconserves.merged _ _ (load_eq h)).1 s hs
    rw [massOf_mergedMasses hkeys hs, subtreeMass_eq hs] at hmass
    exact left_eq_add.mp hmass
  · intro hburied
    constructor
    · intro merged away hload
      rw [load_eq h] at hload
      cases hload
      refine ⟨fun s hs => ?_, sum_mergedMasses (linkMasses_nodup hmasses) hkeys hground hburied⟩
      rw [massOf_mergedMasses hkeys hs, subtreeMass_eq hs, hburied s hs, add_zero]
    · intro joints merged away hperm hload
      rw [load_eq h] at hload
      cases hload
      exact load_perm htree h hperm

end

/-! ### A camera on a head -/

/-- A torso with a head that is fixed to it, and a camera on the head. -/
def cameraOnHead (camera : String) : Urdf where
  links := [⟨some "torso", some "7"⟩, ⟨some "head", some "2"⟩, ⟨some "camera", some "1"⟩]
  joints := [⟨some "fixed", some (some "torso"), some (some "head")⟩, ⟨some camera, some (some "head"), some (some "camera")⟩]

/-- Reads a number of one digit. -/
def digit (text : String) : Option ℤ :=
  match text.toList with
  | [c] => if c.isDigit then some (c.toNat - '0'.toNat) else none
  | _ => none

theorem cameraOnHead_rooted (camera : String) : Rooted "torso" (cameraOnHead camera).edges := by
  have hedges : (cameraOnHead camera).edges = [("torso", "head"), ("head", "camera")] := rfl
  rw [hedges]
  have htorso : Relation.ReflTransGen (fun p c => (p, c) ∈ [("torso", "head"), ("head", "camera")]) "torso" "head" :=
    .single (by decide)
  refine ⟨by decide, by decide, fun e he => ?_⟩
  rw [List.mem_cons, List.mem_singleton] at he
  rcases he with rfl | rfl
  · exact htorso
  · exact htorso.tail (by decide)

/-- A camera that turns on the head is left, and the head is merged into the torso. -/
theorem fixed_joint_merge_head :
    Conserves digit (cameraOnHead "revolute") [("torso", 7), ("head", 2), ("camera", 1)] [("head", "torso")] := by
  refine (fixed_joint_merge (cameraOnHead_rooted "revolute") (by decide +kernel)).mpr fun s _ => ?_
  classical
  refine Finset.sum_eq_zero fun n hn => ?_
  obtain ⟨p, q, hp, hq, -⟩ := (Finset.mem_filter.mp hn).2
  rw [Dict.lookup_eq_some_iff (by decide), List.mem_singleton] at hp hq
  obtain ⟨-, rfl⟩ := Prod.mk.inj hp
  exact absurd (Prod.mk.inj hq).1 (by decide)

/-- The mass of a camera that is fixed to the head is lost with it. -/
theorem camera_mass_is_lost : Rooted "torso" (cameraOnHead "fixed").edges ∧
    ∃ masses fixed, parseUrdfLinks digit (cameraOnHead "fixed") = .ok (masses, fixed) ∧
      ¬Conserves digit (cameraOnHead "fixed") masses fixed := by
  have hparse : parseUrdfLinks digit (cameraOnHead "fixed") =
      .ok ([("torso", 7), ("head", 2), ("camera", 1)], [("head", "torso"), ("camera", "head")]) := by
    decide +kernel
  refine ⟨cameraOnHead_rooted "fixed", _, _, hparse, fun h => ?_⟩
  exact absurd (h.merged _ _ (load_eq hparse)).2 (by decide +kernel)

end HumanoidLab.Masses
