import HumanoidLab.Lib.Fallible
import HumanoidLab.Simulators.TrainingDynamics
import Mathlib.Algebra.GroupWithZero.Nat
import Mathlib.Data.List.Dedup

/-! The armature of a joint. The entries of a group no longer say which joints the group selects: a key of its mapping stands for
    itself, and sets joints of other groups that it matches. -/

namespace HumanoidLab.TrainingDynamics
open Fallible

variable {K : Type} [Zero K] {fullmatch : String → String → Bool} {groups : List (Group K)} {name : String} {a : K}

/-! ### What the groups say -/

def Group.selects (g : Group K) (fullmatch : String → String → Bool) (name : String) : Prop :=
  ∃ pattern ∈ g.patterns, fullmatch pattern name = true

/-- The armature that the rig gives a joint of the group: zero where the group has none. -/
def Group.gives (g : Group K) (fullmatch : String → String → Bool) (name : String) (a : K) : Prop :=
  match g.armature with
  | none => a = 0
  | some entries => ∃ entry ∈ entries, fullmatch entry.1 name = true ∧ entry.2 = a

/-- A group that selects the joint gives it the armature. -/
def Assigned (fullmatch : String → String → Bool) (groups : List (Group K)) (name : String) (a : K) : Prop :=
  ∃ g ∈ groups, g.selects fullmatch name ∧ g.gives fullmatch name a

/-- A key of a group that does not select the joint matches it. -/
def Strays (fullmatch : String → String → Bool) (groups : List (Group K)) (name : String) (a : K) : Prop :=
  ∃ g ∈ groups, ¬g.selects fullmatch name ∧ g.patterns ≠ [] ∧ ∃ entries, g.armature = some entries ∧
    ∃ entry ∈ entries, entry.1 ≠ everyJoint ∧ fullmatch entry.1 name = true ∧ entry.2 = a

/-- The groups that select the joint disagree. -/
def Conflict (fullmatch : String → String → Bool) (groups : List (Group K)) (name : String) : Prop :=
  ∃ a b, Assigned fullmatch groups name a ∧ Assigned fullmatch groups name b ∧ a ≠ b

/-! ### The entries -/

theorem mem_groupEntries {g : Group K} {entry : String × K} : entry ∈ groupEntries g ↔
    (g.armature = none ∧ entry.1 ∈ g.patterns ∧ entry.2 = 0) ∨
    ∃ entries, g.armature = some entries ∧ ∃ pattern ∈ g.patterns, ∃ sub ∈ entries, sub.2 = entry.2 ∧
      (sub.1 = everyJoint ∧ entry.1 = pattern ∨ sub.1 ≠ everyJoint ∧ entry.1 = sub.1) := by
  obtain ⟨p, v⟩ := entry
  unfold groupEntries
  cases g.armature with
  | none => simp [eq_comm]
  | some entries =>
    simp only [List.mem_flatMap, List.mem_map, reduceCtorEq, false_and, Option.some.injEq, false_or, exists_eq_left', Prod.exists]
    refine exists_congr fun pattern => and_congr_right fun _ => exists_congr fun k => exists_congr fun w => and_congr_right fun _ => ?_
    by_cases hk : k = everyJoint
    · rw [if_pos hk, Prod.mk.injEq]
      exact ⟨fun ⟨h, h'⟩ => ⟨h', Or.inl ⟨hk, h.symm⟩⟩, fun ⟨h', h⟩ => h.elim (fun h => ⟨h.2.symm, h'⟩) fun h => absurd hk h.1⟩
    · rw [if_neg hk, Prod.mk.injEq]
      exact ⟨fun ⟨h, h'⟩ => ⟨h', Or.inr ⟨hk, h.symm⟩⟩, fun ⟨h', h⟩ => h.elim (fun h => absurd h.1 hk) fun h => ⟨h.2.symm, h'⟩⟩

/-- The entries that a joint matches are those of the groups that select it, and the keys that stray. -/
theorem mem_matching_iff (hevery : fullmatch everyJoint name = true) :
    a ∈ matching fullmatch (groups.flatMap groupEntries) name ↔
      Assigned fullmatch groups name a ∨ Strays fullmatch groups name a := by
  simp only [matching, List.mem_map, List.mem_filter, List.mem_flatMap, mem_groupEntries]
  constructor
  · rintro ⟨entry, ⟨⟨g, hg, hentry⟩, hmatch⟩, rfl⟩
    by_cases hselects : g.selects fullmatch name
    · refine Or.inl ⟨g, hg, hselects, ?_⟩
      unfold Group.gives
      rcases hentry with ⟨hnone, -, hzero⟩ | ⟨entries, hsome, pattern, -, sub, hsub, hvalue, hkey⟩
      · rw [hnone]
        exact hzero
      · rw [hsome]
        rcases hkey with ⟨hkey, -⟩ | ⟨-, hkey⟩
        · exact ⟨sub, hsub, hkey ▸ hevery, hvalue⟩
        · exact ⟨sub, hsub, hkey ▸ hmatch, hvalue⟩
    · rcases hentry with ⟨-, hpattern, -⟩ | ⟨entries, hsome, pattern, hpattern, sub, hsub, hvalue, hkey⟩
      · exact absurd ⟨entry.1, hpattern, hmatch⟩ hselects
      · rcases hkey with ⟨-, hkey⟩ | ⟨hother, hkey⟩
        · exact absurd ⟨pattern, hpattern, hkey ▸ hmatch⟩ hselects
        · exact Or.inr ⟨g, hg, hselects, List.ne_nil_of_mem hpattern, entries, hsome, sub, hsub, hother, hkey ▸ hmatch, hvalue⟩
  · rintro (⟨g, hg, ⟨pattern, hpattern, hmatch⟩, hgives⟩ | ⟨g, hg, -, hne, entries, hsome, sub, hsub, hother, hmatch, rfl⟩)
    · unfold Group.gives at hgives
      split at hgives
      · rename_i hnone
        exact ⟨(pattern, a), ⟨⟨g, hg, Or.inl ⟨hnone, hpattern, hgives⟩⟩, hmatch⟩, rfl⟩
      · rename_i entries hsome
        obtain ⟨sub, hsub, hsubMatch, rfl⟩ := hgives
        by_cases hkey : sub.1 = everyJoint
        · exact ⟨(pattern, sub.2), ⟨⟨g, hg, Or.inr ⟨entries, hsome, pattern, hpattern, sub, hsub, rfl, Or.inl ⟨hkey, rfl⟩⟩⟩, hmatch⟩, rfl⟩
        · exact ⟨sub, ⟨⟨g, hg, Or.inr ⟨entries, hsome, pattern, hpattern, sub, hsub, rfl, Or.inr ⟨hkey, rfl⟩⟩⟩, hsubMatch⟩, rfl⟩
    · obtain ⟨pattern, hpattern⟩ := List.exists_mem_of_ne_nil _ hne
      exact ⟨sub, ⟨⟨g, hg, Or.inr ⟨entries, hsome, pattern, hpattern, sub, hsub, rfl, Or.inr ⟨hother, rfl⟩⟩⟩, hmatch⟩, rfl⟩

/-! ### The resolution -/

section
variable [DecidableEq K] {entries : List (String × K)} {names : List String}

omit [Zero K] in
theorem one_lt_dedup_iff {as : List K} : 1 < as.dedup.length ↔ ∃ a ∈ as, ∃ b ∈ as, a ≠ b := by
  rw [← List.card_toFinset, Finset.one_lt_card]
  simp only [List.mem_toFinset]

/-- A joint that matches different armatures is refused. -/
theorem resolve_error (h : ∃ n ∈ names, 1 < (matching fullmatch entries n).dedup.length) :
    ∃ e, resolveArmature fullmatch entries names = .error e := by
  induction names with
  | nil =>
    obtain ⟨n, hn, -⟩ := h
    cases hn
  | cons n rest ih =>
    unfold resolveArmature
    by_cases hn : 1 < (matching fullmatch entries n).dedup.length
    · exact ⟨_, if_pos hn⟩
    · obtain ⟨m, hm, hconflict⟩ := h
      rcases List.mem_cons.mp hm with rfl | hm
      · exact absurd hconflict hn
      · obtain ⟨e, he⟩ := ih ⟨m, hm, hconflict⟩
        dsimp only
        rw [if_neg hn, he]
        exact ⟨e, rfl⟩

/-- What is returned where no joint matches different armatures. -/
structure Returned (fullmatch : String → String → Bool) (entries : List (String × K)) (names : List String) (values : List K)
    (unset : List String) : Prop where
  agree : ∀ n ∈ names, ∀ a ∈ matching fullmatch entries n, ∀ b ∈ matching fullmatch entries n, a = b
  values : List.Forall₂ (fun n v => v ∈ matching fullmatch entries n ∨ matching fullmatch entries n = [] ∧ v = 0) names values
  unset : ∀ n, n ∈ unset ↔ n ∈ names ∧ matching fullmatch entries n = []

theorem resolve_ok (h : ∀ n ∈ names, ¬1 < (matching fullmatch entries n).dedup.length) :
    ∃ values unset, resolveArmature fullmatch entries names = .ok (values, unset) ∧
      Returned fullmatch entries names values unset := by
  induction names with
  | nil => exact ⟨[], [], rfl, fun n hn => absurd hn List.not_mem_nil, .nil, fun n => by simp⟩
  | cons n rest ih =>
    obtain ⟨values, unset, heq, hspec⟩ := ih fun m hm => h m (List.mem_cons_of_mem _ hm)
    have hn := h n List.mem_cons_self
    have hagree : ∀ m ∈ n :: rest, ∀ a ∈ matching fullmatch entries m, ∀ b ∈ matching fullmatch entries m, a = b := by
      refine List.forall_mem_cons.mpr ⟨fun a ha b hb => ?_, hspec.agree⟩
      by_contra hne
      exact hn (one_lt_dedup_iff.mpr ⟨a, ha, b, hb, hne⟩)
    unfold resolveArmature
    dsimp only
    rw [if_neg hn, heq]
    cases hmatched : matching fullmatch entries n with
    | nil =>
      refine ⟨0 :: values, n :: unset, rfl, hagree, .cons (Or.inr ⟨hmatched, rfl⟩) hspec.values, fun m => ?_⟩
      rw [List.mem_cons, List.mem_cons, hspec.unset]
      constructor
      · rintro (rfl | ⟨hm, hnone⟩)
        · exact ⟨Or.inl rfl, hmatched⟩
        · exact ⟨Or.inr hm, hnone⟩
      · rintro ⟨rfl | hm, hnone⟩
        · exact Or.inl rfl
        · exact Or.inr ⟨hm, hnone⟩
    | cons a as =>
      refine ⟨a :: values, unset, rfl, hagree, .cons (Or.inl (hmatched ▸ List.mem_cons_self)) hspec.values, fun m => ?_⟩
      rw [List.mem_cons, hspec.unset]
      constructor
      · exact fun ⟨hm, hnone⟩ => ⟨Or.inr hm, hnone⟩
      · rintro ⟨rfl | hm, hnone⟩
        · rw [hmatched] at hnone
          cases hnone
        · exact ⟨hm, hnone⟩

/-- What the resolution is to do: raise where the groups that select a joint disagree, and else give each joint the armature of the
    group that selects it, and report those that none does. -/
structure Resolves (fullmatch : String → String → Bool) (groups : List (Group K)) (names : List String)
    (result : Except DynamicsError (List K × List String)) : Prop where
  conflict : (∃ n ∈ names, Conflict fullmatch groups n) → ∃ e, result = .error e
  resolved : (∀ n ∈ names, ¬Conflict fullmatch groups n) → ∃ values unset, result = .ok (values, unset) ∧
    List.Forall₂ (fun n v => Assigned fullmatch groups n v ∨ (∀ a, ¬Assigned fullmatch groups n a) ∧ v = 0) names values ∧
    ∀ n, n ∈ unset ↔ n ∈ names ∧ ∀ a, ¬Assigned fullmatch groups n a

omit [DecidableEq K] in
theorem load_ok {body : List (Node K)} [Mul K] {constants : List (String × K)}
    (h : loadTrainingJointArmature body = .ok (entries, constants)) (hgroups : loadGroups body = .ok (groups, constants)) :
    entries = groups.flatMap groupEntries := by
  obtain ⟨⟨groups', constants'⟩, hload, h⟩ := bind_ok h
  rw [hgroups] at hload
  cases hload
  obtain ⟨-, h⟩ := guard_ok.mp h
  cases h
  rfl

/-- The armature is resolved as the groups say exactly where those that select a joint disagree, or each key that matches a joint of
    another group has the armature of the joint's own. -/
theorem armature_resolution [Mul K] {body : List (Node K)} {constants : List (String × K)}
    (hevery : ∀ n ∈ names, fullmatch everyJoint n = true) (hload : loadTrainingJointArmature body = .ok (entries, constants))
    (hgroups : loadGroups body = .ok (groups, constants)) :
    Resolves fullmatch groups names (resolveArmature fullmatch entries names) ↔
      (∃ n ∈ names, Conflict fullmatch groups n) ∨
        ∀ n ∈ names, ∀ a, Strays fullmatch groups n a → Assigned fullmatch groups n a := by
  obtain rfl := load_ok hload hgroups
  have hmem : ∀ n ∈ names, ∀ a, a ∈ matching fullmatch (groups.flatMap groupEntries) n ↔
      Assigned fullmatch groups n a ∨ Strays fullmatch groups n a := fun n hn a => mem_matching_iff (hevery n hn)
  have hconflict : (∃ n ∈ names, Conflict fullmatch groups n) →
      ∃ e, resolveArmature fullmatch (groups.flatMap groupEntries) names = .error e := by
    rintro ⟨n, hn, a, b, ha, hb, hne⟩
    exact resolve_error ⟨n, hn, one_lt_dedup_iff.mpr ⟨a, (hmem n hn a).mpr (Or.inl ha), b, (hmem n hn b).mpr (Or.inl hb), hne⟩⟩
  constructor
  · intro h
    by_cases hnone : ∃ n ∈ names, Conflict fullmatch groups n
    · exact Or.inl hnone
    · simp only [not_exists, not_and] at hnone
      obtain ⟨values, unset, heq, -, hunset⟩ := h.resolved hnone
      have hok : ∀ n ∈ names, ¬1 < (matching fullmatch (groups.flatMap groupEntries) n).dedup.length := by
        intro n hn hlt
        obtain ⟨e, he⟩ := resolve_error ⟨n, hn, hlt⟩
        rw [heq] at he
        cases he
      obtain ⟨values', unset', heq', hspec⟩ := resolve_ok hok
      rw [heq] at heq'
      cases heq'
      refine Or.inr fun n hn a hstray => ?_
      -- The joint is not unset, so that some group selects it, and the stray key agrees with it.
      have hmatch := (hmem n hn a).mpr (Or.inr hstray)
      have hset : ¬∀ b, ¬Assigned fullmatch groups n b := by
        intro hall
        rw [((hspec.unset n).mp ((hunset n).mpr ⟨hn, hall⟩)).2] at hmatch
        cases hmatch
      rw [not_forall_not] at hset
      obtain ⟨b, hb⟩ := hset
      rwa [hspec.agree n hn a hmatch b ((hmem n hn b).mpr (Or.inl hb))]
  · intro h
    refine ⟨hconflict, fun hnone => ?_⟩
    have hstrays := h.resolve_left fun ⟨n, hn, hc⟩ => hnone n hn hc
    have hassigned : ∀ n ∈ names, ∀ a, a ∈ matching fullmatch (groups.flatMap groupEntries) n ↔ Assigned fullmatch groups n a :=
      fun n hn a => (hmem n hn a).trans ⟨fun h => h.elim id (hstrays n hn a), Or.inl⟩
    have hempty : ∀ n ∈ names, matching fullmatch (groups.flatMap groupEntries) n = [] ↔ ∀ a, ¬Assigned fullmatch groups n a := by
      intro n hn
      simp only [List.eq_nil_iff_forall_not_mem, hassigned n hn]
    have hok : ∀ n ∈ names, ¬1 < (matching fullmatch (groups.flatMap groupEntries) n).dedup.length := by
      intro n hn hlt
      obtain ⟨a, ha, b, hb, hne⟩ := one_lt_dedup_iff.mp hlt
      exact hnone n hn ⟨a, b, (hassigned n hn a).mp ha, (hassigned n hn b).mp hb, hne⟩
    obtain ⟨values, unset, heq, hspec⟩ := resolve_ok hok
    refine ⟨values, unset, heq, ?_, fun n => ?_⟩
    · refine (List.forall₂_iff_get.mp hspec.values).elim fun hlen hget => List.forall₂_iff_get.mpr ⟨hlen, fun i h₁ h₂ => ?_⟩
      have hn := List.get_mem names ⟨i, h₁⟩
      exact (hget i h₁ h₂).imp (hassigned _ hn _).mp fun ⟨hnil, hzero⟩ => ⟨(hempty _ hn).mp hnil, hzero⟩
    · rw [hspec.unset]
      exact and_congr_right fun hn => hempty n hn

end
/-! ### One group -/

/-- The actuator of a group that selects one joint, with an armature by key. -/
def actuator (joint : String) (armature : List (String × ℕ)) : Node ℕ :=
  .call (.name "ImplicitActuatorCfg") []
    [.keyword (some "joint_names_expr") (.sequence [.string joint]),
     .keyword (some "armature") (.dict (armature.map fun key => .string key.1) (armature.map fun key => .number key.2))]

/-- A configuration of groups by name. -/
def actuatorsModule (groups : List (String × Node ℕ)) : List (Node ℕ) :=
  [.assign [.name trainingArticulation] (.call (.name "ArticulationCfg") [] [.keyword (some "actuators")
    (.dict (groups.map fun group => .string group.1) (groups.map (·.2)))])]

/-- The only group selects the knee. -/
def legsModule (armature : List (String × ℕ)) : List (Node ℕ) := actuatorsModule [("legs", actuator "knee" armature)]

/-- The matches of patterns that are plain names, or that of every joint. -/
def plainMatch (pattern name : String) : Bool := pattern = everyJoint || pattern = name

/-- One group selects the knee and another one the elbow. -/
def limbsModule : List (Node ℕ) :=
  actuatorsModule [("legs", actuator "knee" [("knee", 2)]), ("arms", actuator "elbow" [("elbow", 3)])]

/-- Each key sets the joint of its group, and the wrist is reported. -/
theorem armature_resolution_knee :
    Resolves plainMatch [⟨["knee"], some [("knee", 2)]⟩, ⟨["elbow"], some [("elbow", 3)]⟩] ["knee", "elbow", "wrist"]
      (resolveArmature plainMatch [("knee", 2), ("elbow", 3)] ["knee", "elbow", "wrist"]) := by
  have hload : loadTrainingJointArmature limbsModule = .ok ([("knee", 2), ("elbow", 3)], []) := by decide +kernel
  refine (armature_resolution (by decide) hload (by decide +kernel)).mpr (Or.inr ?_)
  rintro n - a ⟨g, hg, hselects, -, entries, hsome, sub, hsub, -, hmatch, -⟩
  simp only [List.mem_cons, List.not_mem_nil, or_false] at hg
  rcases hg with rfl | rfl <;> obtain rfl := Option.some.inj hsome <;> obtain rfl := List.mem_singleton.mp hsub
  · exact absurd ⟨"knee", List.mem_cons_self, hmatch⟩ hselects
  · exact absurd ⟨"elbow", List.mem_cons_self, hmatch⟩ hselects

/-- A key of the elbow in the group of the knee sets the elbow, which no group selects. -/
theorem stray_key_sets_elbow : ∃ groups entries constants,
    loadGroups (legsModule [("knee", 2), ("elbow", 3)]) = .ok (groups, constants) ∧
    loadTrainingJointArmature (legsModule [("knee", 2), ("elbow", 3)]) = .ok (entries, constants) ∧
    ¬Resolves plainMatch groups ["knee", "elbow"] (resolveArmature plainMatch entries ["knee", "elbow"]) := by
  refine ⟨[⟨["knee"], some [("knee", 2), ("elbow", 3)]⟩], [("knee", 2), ("elbow", 3)], [], by decide +kernel,
    by decide +kernel, fun h => ?_⟩
  have hresult : resolveArmature plainMatch [("knee", 2), ("elbow", 3)] ["knee", "elbow"] = .ok ([2, 3], []) := by
    decide +kernel
  have hknee : ∀ {n a}, Assigned plainMatch [⟨["knee"], some [("knee", 2), ("elbow", 3)]⟩] n a → n = "knee" ∧ a = 2 := by
    rintro n a ⟨g, hg, ⟨pattern, hpattern, hmatch⟩, hgives⟩
    obtain rfl := List.mem_singleton.mp hg
    obtain ⟨entry, hentry, hkey, hvalue⟩ := hgives
    obtain rfl := List.mem_singleton.mp hpattern
    obtain rfl : "knee" = n := by simpa [plainMatch, everyJoint] using hmatch
    simp only [List.mem_cons, List.not_mem_nil, or_false] at hentry
    rcases hentry with rfl | rfl
    · exact ⟨rfl, hvalue.symm⟩
    · exact absurd hkey (by decide)
  have hnone : ∀ n ∈ ["knee", "elbow"], ¬Conflict plainMatch [⟨["knee"], some [("knee", 2), ("elbow", 3)]⟩] n := by
    rintro n - ⟨a, b, ha, hb, hne⟩
    exact hne ((hknee ha).2.trans (hknee hb).2.symm)
  obtain ⟨values, unset, heq, -, hunset⟩ := h.resolved hnone
  rw [hresult] at heq
  cases heq
  have hmem := (hunset "elbow").mpr ⟨by decide, fun a ha => absurd (hknee ha).1 (by decide)⟩
  cases hmem

end HumanoidLab.TrainingDynamics
