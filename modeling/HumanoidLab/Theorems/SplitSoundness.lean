import HumanoidLab.Datasets.Split
import Mathlib.Data.List.Perm.Subperm
import Mathlib.Tactic.Linarith

/-! The split of the episodes. A collection with one usable episode gives it to one side and leaves the other one empty, where the
    minimum is one or less; with a minimum of zero or less a small collection may give none to validation. The others are refused
    or split as they should be, and no draw depends on another collection. -/

namespace HumanoidLab.Psi0Dex3
open Fallible Rounding

variable {sampler : Sampler} {isupper : Char → Bool} {totals totals' : String → Option Nat} {cfg cfg' : SplitConfig}

/-! ### The size of the validation side -/

section
variable {u : Nat} {f : ℚ} {m : Int}

theorem roundHalfEven_pos_iff {x : ℚ} : 1 ≤ roundHalfEven x ↔ 1 / 2 < x := by
  have hfloor := Int.floor_le x
  have hfloor' := Int.lt_floor_add_one x
  have hhalf : (0.5 : ℚ) = 1 / 2 := by norm_num
  unfold roundHalfEven
  rw [hhalf]
  constructor
  · intro h
    by_contra hx
    have hzero : ⌊x⌋ ≤ 0 := Int.lt_add_one_iff.mp (Int.floor_lt.mpr (by push_cast; linarith))
    rcases hzero.lt_or_eq with hneg | heq
    · split_ifs at h <;> omega
    · rw [heq] at h
      push_cast at h
      rw [sub_zero] at h
      split_ifs at h
      · linarith
      · omega
  · intro hx
    have hzero : 0 ≤ ⌊x⌋ := Int.floor_nonneg.mpr (by linarith)
    rcases hzero.lt_or_eq with hpos | heq
    · split_ifs <;> omega
    · rw [← heq]
      push_cast
      rw [sub_zero]
      split_ifs <;> first | omega | linarith

theorem valCount_zero (f : ℚ) (m : Int) : valCount 0 f m < 0 ∨ 0 < valCount 0 f m := by
  unfold valCount
  split_ifs
  · exact Or.inr (by omega)
  · exact Or.inl (by dsimp only; omega)

/-- Nothing is left for training where the minimum is one, nothing is given to validation where it is less, and a higher one is
    not met. -/
theorem valCount_one (hf : 0 < f) : valCount 1 f m = if 1 ≤ m then 1 else 0 := by
  have hcount : 0 ≤ roundHalfEven (float64 (f * float64 ((1 : Nat) : ℚ))) := by
    have hnonneg : 0 ≤ float64 (f * float64 ((1 : Nat) : ℚ)) :=
      roundBinary_nonneg (mul_nonneg hf.le (roundBinary_nonneg (by norm_num)))
    have hmono := roundHalfEven_mono hnonneg
    rwa [← Int.cast_zero, roundHalfEven_intCast] at hmono
  unfold valCount
  rw [Nat.cast_one]
  split_ifs
  · omega
  · dsimp only
    omega

theorem valCount_le_minimum (hu : 2 ≤ u) (h : (u : Int) ≤ m) : valCount u f m < m := by
  unfold valCount
  rw [if_pos h]
  omega

theorem valCount_many (h : m < u) :
    m ≤ valCount u f m ∧ valCount u f m < u := by
  unfold valCount
  rw [if_neg (by omega)]
  dsimp only
  omega

theorem valCount_unbounded (hf : 0 < f) (hu : 2 ≤ u) (h : m ≤ 0) :
    0 ≤ valCount u f m ∧ valCount u f m < u ∧
      (1 ≤ valCount u f m ↔ 1 / 2 < float64 (f * float64 (u : ℚ))) := by
  have hcount : 0 ≤ roundHalfEven (float64 (f * float64 (u : ℚ))) := by
    have hnonneg : 0 ≤ float64 (f * float64 (u : ℚ)) :=
      roundBinary_nonneg (mul_nonneg hf.le (roundBinary_nonneg (by positivity)))
    have hmono := roundHalfEven_mono hnonneg
    rwa [← Int.cast_zero, roundHalfEven_intCast] at hmono
  rw [← roundHalfEven_pos_iff]
  unfold valCount
  rw [if_neg (by omega)]
  dsimp only
  omega

/-- The size can be drawn and meets the minimum, unless nothing is usable or a minimum of two or more is out of reach. -/
theorem valCount_drawable_iff (hf : 0 < f) :
    (0 ≤ valCount u f m ∧ valCount u f m ≤ u ∧ m ≤ valCount u f m) ↔
      ¬(u = 0 ∨ 2 ≤ m ∧ (u : Int) ≤ m) := by
  obtain rfl | rfl | hu : u = 0 ∨ u = 1 ∨ 2 ≤ u := by omega
  · have hzero := valCount_zero f m
    omega
  · have hone := valCount_one (m := m) hf
    split at hone <;> omega
  · rcases Int.lt_or_le m u with hlt | hle
    · rcases Int.lt_or_le 0 m with hpos | hneg
      · have hmany := valCount_many (f := f) hlt
        omega
      · have hcount := valCount_unbounded hf hu hneg
        omega
    · have hbelow := valCount_le_minimum (f := f) hu hle
      omega

/-- A drawn size leaves something to both sides exactly where there is enough for both. -/
theorem valCount_both_iff (hf : 0 < f) (hdraw : ¬(u = 0 ∨ 2 ≤ m ∧ (u : Int) ≤ m)) :
    (0 < valCount u f m ∧ valCount u f m < u) ↔
      (1 ≤ m ∧ m < u ∨ m ≤ 0 ∧ 2 ≤ u ∧ 1 / 2 < float64 (f * float64 (u : ℚ))) := by
  obtain rfl | rfl | hu : u = 0 ∨ u = 1 ∨ 2 ≤ u := by omega
  · exact absurd (Or.inl rfl) hdraw
  · have hone := valCount_one (m := m) hf
    split at hone <;> omega
  · rcases Int.lt_or_le 0 m with hpos | hneg
    · have hmany := valCount_many (u := u) (f := f) (m := m) (by omega)
      omega
    · obtain ⟨hlow, hhigh, hsome⟩ := valCount_unbounded hf hu hneg
      rw [← hsome]
      omega

end

/-! ### One draw -/

section
variable {seed : String} {usable train val : List Nat} {f : ℚ} {minimum : Int}

theorem sample_ok {k : Int} {ys : List Nat} (h : sampler.sample seed usable k = .ok ys) :
    0 ≤ k ∧ k ≤ usable.length ∧ ys.Subperm usable ∧ (ys.length : Int) = k := by
  by_cases hk : k < 0 ∨ (usable.length : Int) < k
  · rw [sampler.refuses seed usable k hk] at h
    cases h
  · have hlow : 0 ≤ k := by omega
    have hhigh : k ≤ usable.length := by omega
    obtain ⟨zs, hzs, hspec⟩ := sampler.draws seed usable k hlow hhigh
    rw [h] at hzs
    cases hzs
    exact ⟨hlow, hhigh, hspec⟩

/-- What is drawn and what is not make up the whole. -/
theorem filter_append_perm {drawn : List Nat} (hsub : drawn.Subperm usable) (hnodup : usable.Nodup) :
    (usable.filter (· ∉ drawn) ++ drawn).Perm usable := by
  have hdrawn : drawn.Nodup := by
    obtain ⟨l, hperm, hl⟩ := hsub
    exact hperm.nodup_iff.mp (hl.nodup hnodup)
  have hdisjoint : (usable.filter (· ∉ drawn)).Disjoint drawn := fun i hi hi' => by
    simpa using absurd hi' (of_decide_eq_true (List.mem_filter.mp hi).2)
  rw [List.perm_ext_iff_of_nodup ((hnodup.filter _).append hdrawn hdisjoint) hnodup]
  intro i
  rw [List.mem_append, List.mem_filter, decide_eq_true_eq]
  constructor
  · rintro (⟨hi, -⟩ | hi)
    · exact hi
    · exact hsub.subset hi
  · intro hi
    by_cases hd : i ∈ drawn
    · exact Or.inr hd
    · exact Or.inl ⟨hi, hd⟩

theorem mergeSort_of_perm {xs : List Nat} (hperm : xs.Perm usable) (hsorted : usable.Pairwise (· < ·)) : xs.mergeSort = usable := by
  have hle : usable.Pairwise (· ≤ ·) := hsorted.imp Nat.le_of_lt
  exact ((List.mergeSort_perm _ _).trans hperm).eq_of_pairwise' (List.pairwise_mergeSort' (· ≤ ·) xs) hle

/-- A draw of a size that can be drawn and meets the minimum. -/
theorem drawSplit_ok_iff (hsorted : usable.Pairwise (· < ·)) :
    (∃ r, drawSplit sampler seed usable f minimum = .ok r) ↔
      0 ≤ valCount usable.length f minimum ∧ valCount usable.length f minimum ≤ usable.length ∧
        minimum ≤ valCount usable.length f minimum := by
  have hnodup : usable.Nodup := hsorted.imp Nat.ne_of_lt
  constructor
  · rintro ⟨r, h⟩
    obtain ⟨drawn, hdrawn, h⟩ := bind_ok h
    obtain ⟨hlow, hhigh, -, hlen⟩ := sample_ok hdrawn
    obtain ⟨hmin, -⟩ := guard_ok.mp h
    rw [List.length_mergeSort] at hmin
    exact ⟨hlow, hhigh, by omega⟩
  · rintro ⟨hlow, hhigh, hmin⟩
    obtain ⟨drawn, hdrawn, hsub, hlen⟩ := sampler.draws seed usable _ hlow hhigh
    have hval : drawn.mergeSort.Subperm usable := (List.mergeSort_perm drawn _).subperm.trans hsub
    refine ⟨(usable.filter (· ∉ drawn.mergeSort), drawn.mergeSort), ?_⟩
    unfold drawSplit
    rw [hdrawn]
    refine guard_ok.mpr ⟨?_, guard_ok.mpr ⟨?_, guard_ok.mpr ⟨?_, rfl⟩⟩⟩
    · rw [List.length_mergeSort]
      omega
    · simp only [List.any_eq_true, decide_eq_true_eq, not_exists, not_and]
      exact fun i hi => of_decide_eq_true (List.mem_filter.mp hi).2
    · exact not_not_intro (mergeSort_of_perm (filter_append_perm hval hnodup) hsorted)

theorem drawSplit_ok (h : drawSplit sampler seed usable f minimum = .ok (train, val)) (hnodup : usable.Nodup) :
    (val.length : Int) = valCount usable.length f minimum ∧ minimum ≤ val.length ∧ train.Disjoint val ∧
      (train ++ val).Perm usable := by
  obtain ⟨drawn, hdrawn, h⟩ := bind_ok h
  obtain ⟨-, -, hsub, hlen⟩ := sample_ok hdrawn
  obtain ⟨hmin, h⟩ := guard_ok.mp h
  obtain ⟨hdisjoint, h⟩ := guard_ok.mp h
  obtain ⟨-, h⟩ := guard_ok.mp h
  cases h
  have hval : drawn.mergeSort.Subperm usable := (List.mergeSort_perm drawn _).subperm.trans hsub
  refine ⟨by rw [List.length_mergeSort, hlen], not_lt.mp hmin, fun i hi hi' => ?_, filter_append_perm hval hnodup⟩
  exact hdisjoint (List.any_eq_true.mpr ⟨i, hi, decide_eq_true hi'⟩)

end

/-! ### The manifest -/

/-- The draw of a collection. -/
def drawOf (sampler : Sampler) (totals : String → Option Nat) (cfg : SplitConfig) (name : String) :
    Except SplitError (List Nat × List Nat) := do
  let usable ← cfg.usableEpisodes totals name
  drawSplit sampler s!"{cfg.splitSeed}:{name}" usable cfg.valFraction.value cfg.minValPerCollection

theorem splitCollection_ok {c : CollectionContract} {e : CollectionSplit} (h : splitCollection sampler totals cfg c = .ok e) :
    drawOf sampler totals cfg c.name = .ok (e.train, e.val) := by
  obtain ⟨usable, husable, h⟩ := bind_ok h
  obtain ⟨⟨train, val⟩, hdraw, h⟩ := bind_ok h
  cases h
  rw [drawOf, husable]
  exact hdraw

theorem splitCollection_of_draw {c : CollectionContract} {r : List Nat × List Nat}
    (h : drawOf sampler totals cfg c.name = .ok r) : ∃ e, splitCollection sampler totals cfg c = .ok e ∧ (e.train, e.val) = r := by
  obtain ⟨usable, husable, h⟩ := bind_ok h
  refine ⟨⟨(totals c.name).getD 0, usable.length, c.excluded, c.exclusionReason, c.instruction, r.1, r.2⟩, ?_, rfl⟩
  unfold splitCollection
  rw [husable]
  show (drawSplit sampler _ usable _ _ >>= fun x => _) = _
  rw [h]
  rfl

theorem build_ok {m : SplitManifest} (h : buildSplit sampler isupper totals cfg = .ok m) :
    cfg.assertContract isupper = .ok () ∧ cfg.collections ≠ [] ∧ ∀ c ∈ cfg.collections, ∃ e,
      m.collections.lookup c.name = some e ∧ drawOf sampler totals cfg c.name = .ok (e.train, e.val) := by
  obtain ⟨⟨⟩, hcontract, h⟩ := bind_ok h
  obtain ⟨entries, hentries, h⟩ := bind_ok h
  obtain ⟨hsome, h⟩ := guard_ok.mp h
  cases h
  have hforall := mapM_ok hentries
  refine ⟨hcontract, fun hnil => ?_, fun c hc => ?_⟩
  · rw [hnil, List.forall₂_nil_left_iff] at hforall
    rw [hforall] at hsome
    exact hsome rfl
  · have hfst : (cfg.collections.zip entries).map Prod.fst = cfg.collections := List.map_fst_zip hforall.length_eq.le
    rcases Dict.lookup_sets (·.name) (cfg.collections.zip entries) [] c.name with ⟨⟨c', e⟩, hp, hname, hlookup⟩ | ⟨hnone, -⟩
    · refine ⟨e, hlookup, ?_⟩
      rw [← hname]
      exact splitCollection_ok (List.forall₂_zip hforall hp)
    · rw [← hfst] at hc
      obtain ⟨p, hp, rfl⟩ := List.mem_map.mp hc
      exact absurd rfl (hnone p hp)

/-- A configuration is built where each of its collections is drawn, and there is something to split. -/
theorem build_of_draws (hcontract : cfg.assertContract isupper = .ok ()) (hsome : cfg.collections ≠ [])
    (hdraws : ∀ c ∈ cfg.collections, ∃ r, drawOf sampler totals cfg c.name = .ok r ∧ 0 < r.1.length + r.2.length) :
    ∃ m, buildSplit sampler isupper totals cfg = .ok m := by
  obtain ⟨entries, hentries⟩ : ∃ entries, cfg.collections.mapM (splitCollection sampler totals cfg) = .ok entries := by
    refine mapM_returns fun c hc => ?_
    obtain ⟨r, hdraw, -⟩ := hdraws c hc
    obtain ⟨e, he, -⟩ := splitCollection_of_draw hdraw
    exact ⟨e, he⟩
  have hpos : (entries.map (·.train.length)).sum + (entries.map (·.val.length)).sum ≠ 0 := by
    have hforall := mapM_ok hentries
    obtain ⟨c, cs, hcs⟩ := List.exists_cons_of_ne_nil hsome
    rw [hcs] at hforall hdraws
    cases hforall with
    | cons he _ =>
      obtain ⟨r, hdraw, hlen⟩ := hdraws c List.mem_cons_self
      obtain rfl := Except.ok.inj ((splitCollection_ok he).symm.trans hdraw)
      simp only [List.map_cons, List.sum_cons]
      dsimp only at hlen
      omega
  unfold buildSplit
  rw [hcontract, hentries]
  exact ⟨_, guard_ok.mpr ⟨hpos, rfl⟩⟩

/-! ### When a split is sound -/

/-- What the entry of a collection is to say. -/
structure SoundSplit (c : CollectionContract) (total : Nat) (minimum : Int) (e : CollectionSplit) : Prop where
  disjoint : e.train.Disjoint e.val
  covers : ∀ i, i ∈ e.train ∨ i ∈ e.val ↔ i ∈ c.usableEpisodes total
  minimum : minimum ≤ e.val.length
  val : 0 < e.val.length
  train : 0 < e.train.length

/-- The build raises, or splits each collection. -/
def SplitsEach (sampler : Sampler) (isupper : Char → Bool) (totals : String → Option Nat) (cfg : SplitConfig) : Prop :=
  ∀ m, buildSplit sampler isupper totals cfg = .ok m → ∀ c ∈ cfg.collections, ∃ total e,
    totals c.name = some total ∧ m.collections.lookup c.name = some e ∧ SoundSplit c total cfg.minValPerCollection e

/-- A collection is split alike in another configuration, whatever other collections it has and however large they are. -/
def DrawsAlone (sampler : Sampler) (isupper : Char → Bool) (totals : String → Option Nat) (cfg : SplitConfig) : Prop :=
  ∀ totals' cfg' m m', buildSplit sampler isupper totals cfg = .ok m → buildSplit sampler isupper totals' cfg' = .ok m' →
    cfg'.splitSeed = cfg.splitSeed → cfg'.valFraction = cfg.valFraction → cfg'.minValPerCollection = cfg.minValPerCollection →
    ∀ c ∈ cfg.collections, c ∈ cfg'.collections → totals' c.name = totals c.name →
      cfg'.collections.filter (·.name = c.name) = cfg.collections.filter (·.name = c.name) →
      (m'.collections.lookup c.name).map (fun e => (e.train, e.val)) = (m.collections.lookup c.name).map fun e => (e.train, e.val)

/-- How many episodes of a collection the split uses. -/
def usableCount (totals : String → Option Nat) (cfg : SplitConfig) (c : CollectionContract) : Nat :=
  match cfg.usableEpisodes totals c.name with
  | .ok usable => usable.length
  | .error _ => 0

/-- A collection that is refused: nothing can be used of it, or not more than a minimum of two or more. -/
def Refused (totals : String → Option Nat) (cfg : SplitConfig) (c : CollectionContract) : Prop :=
  usableCount totals cfg c = 0 ∨ 2 ≤ cfg.minValPerCollection ∧ (usableCount totals cfg c : Int) ≤ cfg.minValPerCollection

/-- A collection that has enough for both sides. -/
def Sufficient (totals : String → Option Nat) (cfg : SplitConfig) (c : CollectionContract) : Prop :=
  1 ≤ cfg.minValPerCollection ∧ cfg.minValPerCollection < usableCount totals cfg c ∨
  cfg.minValPerCollection ≤ 0 ∧ 2 ≤ usableCount totals cfg c ∧
    1 / 2 < float64 (cfg.valFraction.value * float64 (usableCount totals cfg c : ℚ))

/-- Collections of one name exclude the same episodes. -/
def NamesAgree (totals : String → Option Nat) (cfg : SplitConfig) : Prop :=
  ∀ c ∈ cfg.collections, ∀ c' ∈ cfg.collections, c'.name = c.name → ∀ total, totals c.name = some total →
    c'.usableEpisodes total = c.usableEpisodes total

theorem usableEpisodes_sorted (c : CollectionContract) (total : Nat) : (c.usableEpisodes total).Pairwise (· < ·) :=
  List.Pairwise.filter _ List.pairwise_lt_range

theorem usableEpisodes_ok {name : String} {usable : List Nat} (h : cfg.usableEpisodes totals name = .ok usable) :
    ∃ c ∈ cfg.collections, c.name = name ∧ ∃ total, totals name = some total ∧ usable = c.usableEpisodes total := by
  obtain ⟨c, hc, h⟩ := bind_ok h
  unfold SplitConfig.collection at hc
  split at hc
  · rename_i hfind
    cases hc
    split at h
    · cases h
    · rename_i htotal
      cases h
      have hname := List.find?_some hfind
      exact ⟨c, List.mem_of_find?_eq_some hfind, of_decide_eq_true hname, _, htotal, rfl⟩
  · cases hc

theorem contract_fraction (h : cfg.assertContract isupper = .ok ()) : 0 < cfg.valFraction.value := by
  unfold SplitConfig.assertContract at h
  obtain ⟨-, h⟩ := guard_ok.mp h
  obtain ⟨-, h⟩ := guard_ok.mp h
  obtain ⟨-, h⟩ := guard_ok.mp h
  obtain ⟨-, h⟩ := guard_ok.mp h
  obtain ⟨-, h⟩ := guard_ok.mp h
  obtain ⟨hfraction, -⟩ := guard_ok.mp h
  rw [Bool.not_eq_true', Bool.not_eq_false, Bool.and_eq_true] at hfraction
  obtain ⟨hlow, hhigh⟩ := hfraction
  cases hf : cfg.valFraction with
  | nan => rw [hf] at hlow; cases hlow
  | infinite negative =>
    rw [hf] at hlow hhigh
    cases negative
    · cases hhigh
    · cases hlow
  | finite f =>
    rw [hf] at hlow
    exact of_decide_eq_true hlow

/-- A collection that is not refused is drawn. -/
theorem draw_ok_iff {c : CollectionContract} (hf : 0 < cfg.valFraction.value) :
    (∃ r, drawOf sampler totals cfg c.name = .ok r) ↔ ¬Refused totals cfg c := by
  unfold Refused usableCount
  cases husable : cfg.usableEpisodes totals c.name with
  | error e =>
    refine ⟨fun ⟨r, h⟩ => ?_, fun h => absurd (Or.inl rfl) h⟩
    rw [drawOf, husable] at h
    cases h
  | ok usable =>
    obtain ⟨c', -, -, total, -, rfl⟩ := usableEpisodes_ok husable
    rw [drawOf, husable]
    exact (drawSplit_ok_iff (usableEpisodes_sorted c' total)).trans (valCount_drawable_iff hf)

/-- The two sides of a draw: the usable episodes of the first collection of the name. -/
structure Drawn (totals : String → Option Nat) (cfg : SplitConfig) (c first : CollectionContract) (total : Nat)
    (r : List Nat × List Nat) : Prop where
  mem : first ∈ cfg.collections
  name : first.name = c.name
  known : totals c.name = some total
  disjoint : r.1.Disjoint r.2
  perm : (r.1 ++ r.2).Perm (first.usableEpisodes total)
  count : r.1.length + r.2.length = usableCount totals cfg c
  size : (r.2.length : Int) = valCount (usableCount totals cfg c) cfg.valFraction.value cfg.minValPerCollection
  minimum : cfg.minValPerCollection ≤ r.2.length

theorem draw_spec {c : CollectionContract} {r : List Nat × List Nat} (h : drawOf sampler totals cfg c.name = .ok r) :
    ∃ first total, Drawn totals cfg c first total r := by
  obtain ⟨usable, husable, h⟩ := bind_ok h
  obtain ⟨first, hfirst, hname, total, htotal, rfl⟩ := usableEpisodes_ok husable
  have hcount : usableCount totals cfg c = (first.usableEpisodes total).length := by
    rw [usableCount, husable]
  obtain ⟨hsize, hminimum, hdisjoint, hperm⟩ := drawSplit_ok h ((usableEpisodes_sorted first total).imp Nat.ne_of_lt)
  refine ⟨first, total, hfirst, hname, htotal, hdisjoint, hperm, ?_, ?_, hminimum⟩
  · rw [hcount, ← hperm.length_eq, List.length_append]
  · rw [hcount, hsize]

theorem Drawn.both_iff {c first : CollectionContract} {total : Nat} {r : List Nat × List Nat} (h : Drawn totals cfg c first total r)
    (hf : 0 < cfg.valFraction.value) (hdraw : ¬Refused totals cfg c) :
    (0 < r.2.length ∧ 0 < r.1.length) ↔ Sufficient totals cfg c := by
  rw [Sufficient, ← valCount_both_iff hf hdraw, ← h.size, ← h.count]
  omega

/-- The usable episodes of a collection are those of another one exactly where the same numbers are usable. -/
theorem usableEpisodes_eq_iff {c c' : CollectionContract} {total : Nat} :
    c'.usableEpisodes total = c.usableEpisodes total ↔ ∀ i, i ∈ c'.usableEpisodes total ↔ i ∈ c.usableEpisodes total := by
  refine ⟨fun h i => by rw [h], fun h => List.filter_congr fun i hi => ?_⟩
  have hiff := h i
  simp only [CollectionContract.usableEpisodes, List.mem_filter, hi, true_and] at hiff
  exact Bool.eq_iff_iff.mpr hiff

theorem collection_of_filter {name : String}
    (h : cfg'.collections.filter (·.name = name) = cfg.collections.filter (·.name = name)) :
    cfg'.collection name = cfg.collection name := by
  unfold SplitConfig.collection
  rw [← List.head?_filter, h, List.head?_filter]

/-- A draw depends on the collections of the name, their number of episodes and the settings of the split. -/
theorem draws_alone (sampler : Sampler) (isupper : Char → Bool) (totals : String → Option Nat) (cfg : SplitConfig) :
    DrawsAlone sampler isupper totals cfg := by
  intro totals' cfg' m m' h h' hseed hfraction hminimum c hc hc' htotal hfilter
  obtain ⟨-, -, hentries⟩ := build_ok h
  obtain ⟨-, -, hentries'⟩ := build_ok h'
  obtain ⟨e, hlookup, hdraw⟩ := hentries c hc
  obtain ⟨e', hlookup', hdraw'⟩ := hentries' c hc'
  have hsame : drawOf sampler totals' cfg' c.name = drawOf sampler totals cfg c.name := by
    unfold drawOf SplitConfig.usableEpisodes
    rw [collection_of_filter hfilter, htotal, hseed, hfraction, hminimum]
  rw [hsame, hdraw] at hdraw'
  rw [hlookup, hlookup']
  exact congrArg some (Except.ok.inj hdraw').symm

/-- Where no collection is refused, each is split soundly exactly where it has enough for both sides, and names agree. -/
theorem splitsEach_iff (hcontract : cfg.assertContract isupper = .ok ()) (hsome : cfg.collections ≠ [])
    (hdraws : ∀ c ∈ cfg.collections, ¬Refused totals cfg c) :
    SplitsEach sampler isupper totals cfg ↔ (∀ c ∈ cfg.collections, Sufficient totals cfg c) ∧ NamesAgree totals cfg := by
  have hf := contract_fraction hcontract
  have hdrawn : ∀ c ∈ cfg.collections, ∃ r, drawOf sampler totals cfg c.name = .ok r ∧ 0 < r.1.length + r.2.length := by
    intro c hc
    obtain ⟨r, hdraw⟩ := (draw_ok_iff hf).mpr (hdraws c hc)
    obtain ⟨first, total, hspec⟩ := draw_spec hdraw
    have hpos : usableCount totals cfg c ≠ 0 := fun hzero => hdraws c hc (Or.inl hzero)
    exact ⟨r, hdraw, by rw [hspec.count]; omega⟩
  constructor
  · intro hsplits
    obtain ⟨m, hm⟩ := build_of_draws hcontract hsome hdrawn
    obtain ⟨-, -, hentries⟩ := build_ok hm
    have hsound : ∀ c ∈ cfg.collections, ∃ total e first, Drawn totals cfg c first total (e.train, e.val) ∧
        drawOf sampler totals cfg c.name = .ok (e.train, e.val) ∧ SoundSplit c total cfg.minValPerCollection e := by
      intro c hc
      obtain ⟨e, hlookup, hdraw⟩ := hentries c hc
      obtain ⟨total, e', htotal, hlookup', hsound⟩ := hsplits m hm c hc
      obtain rfl := Option.some.inj (hlookup.symm.trans hlookup')
      obtain ⟨first, total', hspec⟩ := draw_spec hdraw
      obtain rfl := Option.some.inj (htotal.symm.trans hspec.known)
      exact ⟨total, e, first, hspec, hdraw, hsound⟩
    refine ⟨fun c hc => ?_, fun c hc c' hc' hname total htotal => ?_⟩
    · obtain ⟨total, e, first, hspec, -, hsound⟩ := hsound c hc
      exact (hspec.both_iff hf (hdraws c hc)).mp ⟨hsound.val, hsound.train⟩
    · -- Both collections are split as the draw of their name says.
      obtain ⟨n, e, first, hspec, hdraw, hcovers⟩ := hsound c hc
      obtain ⟨n', e', first', hspec', hdraw', hcovers'⟩ := hsound c' hc'
      rw [hname, hdraw] at hdraw'
      obtain ⟨htrain, hval⟩ := Prod.mk.inj (Except.ok.inj hdraw')
      obtain rfl := Option.some.inj (hspec.known.symm.trans htotal)
      obtain rfl := Option.some.inj (hspec'.known.symm.trans (hname ▸ htotal))
      refine usableEpisodes_eq_iff.mpr fun i => ?_
      rw [← hcovers.covers, ← hcovers'.covers, htrain, hval]
  · rintro ⟨hsufficient, hnames⟩ m hm c hc
    obtain ⟨-, -, hentries⟩ := build_ok hm
    obtain ⟨e, hlookup, hdraw⟩ := hentries c hc
    obtain ⟨first, total, hspec⟩ := draw_spec hdraw
    obtain ⟨hval, htrain⟩ := (hspec.both_iff hf (hdraws c hc)).mpr (hsufficient c hc)
    refine ⟨total, e, hspec.known, hlookup, hspec.disjoint, fun i => ?_, hspec.minimum, hval, htrain⟩
    rw [← hnames c hc first hspec.mem hspec.name total hspec.known, ← hspec.perm.mem_iff, List.mem_append]

/-- An accepted configuration is split as it should be exactly where the build is refused, for want of collections or because one
    has too few usable episodes, or every collection has enough for both sides and those of one name exclude the same. -/
theorem split_soundness (sampler : Sampler) (isupper : Char → Bool) (totals : String → Option Nat) (cfg : SplitConfig)
    (hcontract : cfg.assertContract isupper = .ok ()) :
    (SplitsEach sampler isupper totals cfg ∧ DrawsAlone sampler isupper totals cfg) ↔
      (cfg.collections = [] ∨ (∃ c ∈ cfg.collections, Refused totals cfg c) ∨
        (∀ c ∈ cfg.collections, Sufficient totals cfg c) ∧ NamesAgree totals cfg) := by
  rw [and_iff_left (draws_alone sampler isupper totals cfg)]
  by_cases hnone : cfg.collections = []
  · refine iff_of_true (fun m hm => ?_) (Or.inl hnone)
    exact absurd hnone (build_ok hm).2.1
  by_cases hrefused : ∃ c ∈ cfg.collections, Refused totals cfg c
  · refine iff_of_true (fun m hm => ?_) (Or.inr (Or.inl hrefused))
    obtain ⟨c, hc, hc'⟩ := hrefused
    obtain ⟨e, -, hdraw⟩ := (build_ok hm).2.2 c hc
    exact absurd hc' ((draw_ok_iff (contract_fraction hcontract)).mp ⟨_, hdraw⟩)
  · have hdraws : ∀ c ∈ cfg.collections, ¬Refused totals cfg c := fun c hc h => hrefused ⟨c, hc, h⟩
    rw [splitsEach_iff hcontract hnone hdraws]
    constructor
    · exact fun h => Or.inr (Or.inr h)
    · rintro (h | h | h)
      · exact absurd h hnone
      · exact absurd h hrefused
      · exact h

/-- Draws the first elements. -/
def leadingSampler : Sampler where
  sample _ xs k := if k < 0 ∨ (xs.length : Int) < k then .error .sampleSize else .ok (xs.take k.toNat)
  draws _ xs k hlow hhigh := by
    refine ⟨xs.take k.toNat, if_neg (by omega), (List.take_sublist _ _).subperm, ?_⟩
    rw [List.length_take]
    omega
  refuses _ _ _ h := if_pos h

def oneCollection (minimum : Int) : SplitConfig where
  path := "contract.yaml"
  sha256 := "0"
  name := "pack"
  rawRoot := "raw"
  sonicRoot := "sonic"
  trainRepo := "train"
  cameraTargetKey := "egocentric"
  cameraExcludedKeys := []
  sourceFps := 30
  sonicFps := 50
  datasetFps := 30
  resampleMethod := "nearest_timestamp"
  maxTimestampErrorS := .finite (1 / 100)
  tailTimestampErrorS := .finite (1 / 20)
  actionField := "action"
  bodyTokenField := "action.body_token"
  splitSeed := 7
  valFraction := .finite (1 / 2)
  minValPerCollection := minimum
  collections := [⟨"pick", [], "Pick.", none⟩]
  tasks := [("pick", "Pick.")]

/-- Two episodes under a minimum of one: one for each side. -/
theorem split_soundness_two :
    SplitsEach leadingSampler Char.isUpper (fun _ => some 2) (oneCollection 1) ∧
      DrawsAlone leadingSampler Char.isUpper (fun _ => some 2) (oneCollection 1) := by
  refine (split_soundness leadingSampler Char.isUpper (fun _ => some 2) (oneCollection 1) (by decide +kernel)).mpr ?_
  refine Or.inr (Or.inr ⟨?_, ?_⟩)
  · rintro c hc
    obtain rfl := List.mem_singleton.mp hc
    exact Or.inl (by decide)
  · rintro c hc c' hc' - total -
    obtain rfl := List.mem_singleton.mp hc
    obtain rfl := List.mem_singleton.mp hc'
    rfl

/-- The one usable episode of a collection is given to validation, and nothing is left for training. -/
theorem split_leaves_no_training :
    (oneCollection 1).assertContract Char.isUpper = .ok () ∧
      ¬SplitsEach leadingSampler Char.isUpper (fun _ => some 1) (oneCollection 1) := by
  refine ⟨by decide +kernel, fun h => ?_⟩
  have hbuild : (buildSplit leadingSampler Char.isUpper (fun _ => some 1) (oneCollection 1)).map
      (fun m => (m.collections.lookup "pick").map (·.train)) = .ok (some []) := by
    decide +kernel
  obtain ⟨m, hm, hentry⟩ := map_ok hbuild
  obtain ⟨total, e, -, hlookup, hsound⟩ := h m hm _ List.mem_cons_self
  rw [show m.collections.lookup "pick" = some e from hlookup, Option.map_some, Option.some.injEq] at hentry
  have htrain := hsound.train
  rw [hentry] at htrain
  exact absurd htrain (by decide)

end HumanoidLab.Psi0Dex3
