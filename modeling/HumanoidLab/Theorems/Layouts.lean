import HumanoidLab.Simulators.Control
import Mathlib.Algebra.Field.Rat
import Mathlib.Algebra.Order.Ring.Rat

/-! What the start of a controller resolves: every declared joint is one joint of the asset, and the layouts
    of the body and of the hands, when they are bound, divide the joints of the asset. -/

namespace HumanoidLab
open Fallible

namespace JointLayout

variable {names available : List String} {what : String} {l : JointLayout} {i : Nat}

theorem lookup_ok {name : String} (h : lookup available what name = .ok i) : available[i]? = some name := by
  unfold lookup at h
  split at h
  · cases h
  · rename_i x index hx
    cases h
    have hmem : (x, i) ∈ available.zipIdx.filter (·.1 = name) := by rw [hx]; exact List.mem_singleton_self _
    obtain ⟨hmem, hname⟩ := List.mem_filter.mp hmem
    rw [← of_decide_eq_true hname]
    exact List.mem_zipIdx_iff_getElem?.mp hmem
  · cases h

/-- The joints of the asset at `is` bear the names `as`, in order. -/
abbrev Bears (available as : List String) (is : List Nat) : Prop := List.Forall₂ (fun n i => available[i]? = some n) as is

theorem Bears.name {as : List String} {is : List Nat} (h : Bears available as is) (hi : i ∈ is) :
    ∃ n ∈ as, available[i]? = some n := by
  induction h with
  | nil => cases hi
  | cons ha _ ih =>
    rcases List.mem_cons.mp hi with rfl | hi
    · exact ⟨_, List.mem_cons_self, ha⟩
    · obtain ⟨n, hn, hni⟩ := ih hi
      exact ⟨n, List.mem_cons_of_mem _ hn, hni⟩

theorem Bears.nodup {as : List String} {is : List Nat} (h : Bears available as is) (hn : as.Nodup) : is.Nodup := by
  induction h with
  | nil => exact List.nodup_nil
  | @cons a i as is ha h ih =>
    obtain ⟨hna, hn⟩ := List.nodup_cons.mp hn
    refine List.nodup_cons.mpr ⟨fun hi => hna ?_, ih hn⟩
    obtain ⟨b, hb, hbi⟩ := Bears.name h hi
    rwa [Option.some.inj (ha.symm.trans hbi)]

/-- A layout that is resolved has the declared names, at distinct joints of the asset that bear them. -/
theorem resolve_ok (h : resolve names available what = .ok l) : l.names = names ∧ l.indices.Nodup ∧
    Bears available names l.indices := by
  unfold resolve at h
  split at h
  · rename_i hn
    obtain ⟨is, his, h⟩ := bind_ok h
    cases h
    have hb : Bears available names is := (mapM_ok his).imp fun _ _ => lookup_ok
    exact ⟨rfl, hb.nodup hn, hb⟩
  · cases h

end JointLayout

section
variable {K : Type} [Zero K] [LE K] {asset : Asset} {interface : Interface K} {b : Binding K}

theorem resolveHand_ok {names available : List String} {side : Side} {l : Option JointLayout}
    (h : resolveHand names available side = .ok l) : (names = [] ∧ l = none) ∨
    (names ≠ [] ∧ ∃ layout, l = some layout ∧ layout.names = names ∧ layout.indices.Nodup ∧
      JointLayout.Bears available names layout.indices) := by
  unfold resolveHand at h
  split at h
  · cases h
    exact Or.inl ⟨‹_›, rfl⟩
  · cases hl : JointLayout.resolve names available (side.text ++ " hand") with
    | error e => rw [hl] at h; cases h
    | ok layout =>
      rw [hl] at h
      cases h
      exact Or.inr ⟨‹_›, layout, rfl, JointLayout.resolve_ok hl⟩

theorem require_ok {c : Prop} [Decidable c] {text : String} {u : Unit} (h : require c text = .ok u) : c := by
  unfold require at h
  split at h
  · assumption
  · cases h

theorem limited_hand {side : Side} {l : JointLayout} {available : List String} {ids : List Nat}
    (hnames : l.names = interface.handJointNames side) (hb : JointLayout.Bears available (interface.handJointNames side) l.indices)
    (hn : l.indices.Nodup) (hs : l.indices ⊆ ids) : Binding.Limited l (interface.handEffortLimits side) ids := by
  refine ⟨?_, hs, hn, ?_, interface.hand_nonneg side⟩
  · rw [hnames]
    exact hb.length_eq
  · rw [interface.hand_length]
    exact hb.length_eq

theorem startController_resolved (h : startController asset interface = .ok b) : b.Resolved := by
  unfold startController at h
  obtain ⟨body, hbody, h⟩ := bind_ok h
  obtain ⟨left, hleft, h⟩ := bind_ok h
  obtain ⟨right, hright, h⟩ := bind_ok h
  obtain ⟨_, hb, h⟩ := bind_ok h
  obtain ⟨_, hh, h⟩ := bind_ok h
  obtain ⟨hsub, hcover⟩ := require_ok hb
  have hhands := require_ok hh
  obtain ⟨hnames, hnodup, hbears⟩ := JointLayout.resolve_ok hbody
  cases h
  refine ⟨⟨?_, hsub, hnodup, ?_, interface.body_nonneg⟩, hcover, ?_⟩
  · rw [hnames]
    exact hbears.length_eq
  · rw [interface.body_length]
    exact hbears.length_eq
  · by_cases hk : interface.bindsHands asset = true
    · have hkind : interface.handKind ≠ "" := by
        simp only [Interface.bindsHands, Bool.and_eq_true, decide_eq_true_eq] at hk
        exact hk.1
      simp only [hk, if_true] at hleft hright
      have hne := interface.hand_joints hkind
      obtain ⟨-, l, rfl, hlnames, hlnodup, hlbears⟩ := (resolveHand_ok hleft).resolve_left fun h => hne .left h.1
      obtain ⟨-, r, rfl, hrnames, hrnodup, hrbears⟩ := (resolveHand_ok hright).resolve_left fun h => hne .right h.1
      obtain ⟨hsub, hcover⟩ := hhands hk
      simp only [Option.elim, List.append_subset] at hsub
      refine Or.inr ⟨Side.rec l r, interface.handEffortLimits, ?_, fun _ => if_pos hk, ?_, ?_, ?_⟩
      · intro side
        cases side <;> rfl
      · intro side
        cases side with
        | left => exact ⟨hlnames ▸ hne .left, limited_hand hlnames hlbears hlnodup hsub.1⟩
        | right => exact ⟨hrnames ▸ hne .right, limited_hand hrnames hrbears hrnodup hsub.2⟩
      · -- A joint of both hands would bear a name of both.
        intro i hl hr
        obtain ⟨n, hn, hni⟩ := hlbears.name hl
        obtain ⟨m, hm, hmi⟩ := hrbears.name hr
        exact interface.hand_disjoint n hn (Option.some.inj (hmi.symm.trans hni) ▸ hm)
      · exact fun i hi => List.mem_append.mp (hcover hi)
    · simp only [if_neg hk] at hleft hright
      obtain ⟨-, rfl⟩ := (resolveHand_ok hleft).resolve_right fun h => h.1 rfl
      obtain ⟨-, rfl⟩ := (resolveHand_ok hright).resolve_right fun h => h.1 rfl
      refine Or.inl fun side => ?_
      cases side <;> rfl

end

/-! ### A robot of three joints -/

def smallAsset : Asset := ⟨["waist_yaw_joint", "left_hand_thumb_0_joint", "right_hand_thumb_0_joint"], "dex3", ["_hand_"]⟩

def smallInterface : Interface ℚ where
  bodyJointNames := ["waist_yaw_joint"]
  bodyEffortLimits := [88]
  handKind := "dex3"
  handJointNames side := [side.text ++ "_hand_thumb_0_joint"]
  handEffortLimits _ := [2]
  body_length := rfl
  hand_length _ := rfl
  body_nonneg := by simp
  hand_nonneg _ := by simp
  hand_joints _ _ := by simp
  hand_disjoint := by decide

def smallBinding : Binding ℚ where
  asset := smallAsset
  body := ⟨["waist_yaw_joint"], [0]⟩
  hands := fun
    | .left => some ⟨["left_hand_thumb_0_joint"], [1]⟩
    | .right => some ⟨["right_hand_thumb_0_joint"], [2]⟩
  bodyLimits := [88]
  handLimits _ := some [2]

theorem small_start : startController smallAsset smallInterface = .ok smallBinding := by
  rfl

theorem physics_dt_positive : 0 < (1 / 200 : ℚ) := by norm_num

theorem max_seconds_positive : 0 < (10 : ℚ) := by norm_num

/-- The robot under control, held by the support. -/
def smallControl : Control ℚ where
  toBinding := smallBinding
  resolved := startController_resolved small_start
  physicsDt := 1 / 200
  dt_positive := physics_dt_positive
  support := some ⟨10, max_seconds_positive⟩

/-- A robot at rest. -/
def smallPlant : Plant ℚ := ⟨fun _ => 0, fun _ => 0, fun _ => .fin 0⟩

/-- A command for the joint of the body alone, at a gain of 1000. -/
def smallCommand (sequence : Nat) (q : ℚ) (validUntilTick : Int) : CompleteRobotCommand ℚ :=
  ⟨0, ⟨bodyCommandSchema, sequence, ["waist_yaw_joint"], [q], [0], [0], [1000], [0], validUntilTick⟩, none, none⟩

end HumanoidLab
