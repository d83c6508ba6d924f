import HumanoidLab.Datasets.Timeline
import HumanoidLab.Lib.Fallible
import Mathlib.Data.List.GetD
import Mathlib.Tactic.FieldSimp
import Mathlib.Tactic.Linarith
import Mathlib.Tactic.Positivity

/-! Resampling in exact arithmetic: the uniform timeline covers the source and no more, a resampled row lies between its
    neighbours, and the completed reference leaves the joints that have no source where they stand. -/

namespace HumanoidLab
open Fallible

/-! ### The uniform timeline -/

/-- The even timeline of a source: from its first stamp, up to its last one with the tolerance, and no sample fewer. -/
structure Covers (timestamps target : List ℚ) (fps : ℚ) : Prop where
  start : target.head? = timestamps.head?
  even : ∀ (i : Nat) a b, target[i]? = some a → target[i + 1]? = some b → b - a = 1 / fps
  within : ∀ last, timestamps.getLast? = some last → ∀ x ∈ target, x ≤ last + 1e-9 / fps
  whole : ∀ first last, timestamps.head? = some first → timestamps.getLast? = some last →
    last + 1e-9 / fps < first + target.length / fps

theorem increasing_exact {timestamps : List ℚ} (hsorted : timestamps.Pairwise (· < ·)) : increasing timestamps = true := by
  rw [increasing_iff]
  exact (List.isChain_iff_pairwise.mpr hsorted).imp fun a b hab => decide_eq_true hab

theorem head_le_getLast {timestamps : List ℚ} (hsorted : timestamps.Pairwise (· < ·)) (hne : timestamps ≠ []) :
    timestamps.head hne ≤ timestamps.getLast hne := by
  rw [List.head_eq_getElem, List.getLast_eq_getElem]
  rcases Nat.eq_zero_or_pos (timestamps.length - 1) with hzero | hpos
  · simp only [hzero, le_refl]
  · exact (List.pairwise_iff_getElem.mp hsorted 0 (timestamps.length - 1) _ _ hpos).le

theorem uniformTimeline_covers {timestamps : List ℚ} {fps : ℚ} (hne : timestamps ≠ []) (hsorted : timestamps.Pairwise (· < ·))
    (hfps : 0 < fps) : ∃ target, uniformTimeline timestamps fps = .ok target ∧ Covers timestamps target fps := by
  have hhead := List.head?_eq_some_head hne
  have hlast := List.getLast?_eq_some_getLast hne
  have hle := head_le_getLast hsorted hne
  generalize timestamps.head hne = first at hhead hle
  generalize timestamps.getLast hne = last at hlast hle
  obtain ⟨n, hn⟩ : ∃ n : Nat, ⌊(last - first) * fps + 1e-9⌋ = n := by
    refine Int.eq_ofNat_of_zero_le (Int.floor_nonneg.mpr ?_)
    have hspan : 0 ≤ (last - first) * fps := mul_nonneg (sub_nonneg.mpr hle) hfps.le
    linarith
  have hcount : (⌊(last - first) * fps + 1e-9⌋ + 1).toNat = n + 1 := by omega
  have hlow : (n : ℚ) ≤ (last - first) * fps + 1e-9 := by
    have := Int.floor_le ((last - first) * fps + 1e-9)
    rwa [hn] at this
  have hhigh : (last - first) * fps + 1e-9 < n + 1 := by
    have := Int.lt_floor_add_one ((last - first) * fps + 1e-9)
    rwa [hn] at this
  refine ⟨(List.range (n + 1)).map fun (i : Nat) => first + i / fps, ?_, ?_, ?_, ?_, ?_⟩
  · unfold uniformTimeline
    rw [hhead, hlast]
    simp only [increasing_exact hsorted, hcount, Bool.not_true, Bool.false_eq_true, if_false]
  · rw [hhead, List.head?_map, List.range_succ_eq_map]
    simp
  · intro i a b ha hb
    rw [List.getElem?_map, Option.map_eq_some_iff] at ha hb
    obtain ⟨j, hj, rfl⟩ := ha
    obtain ⟨k, hk, rfl⟩ := hb
    obtain ⟨-, rfl⟩ := List.getElem?_eq_some_iff.mp hj
    obtain ⟨-, rfl⟩ := List.getElem?_eq_some_iff.mp hk
    rw [List.getElem_range, List.getElem_range]
    push_cast
    ring
  · intro l hl x hx
    obtain rfl : last = l := Option.some.inj (hlast.symm.trans hl)
    obtain ⟨i, hi, rfl⟩ := List.mem_map.mp hx
    have hin : (i : ℚ) ≤ n := by exact_mod_cast Nat.le_of_lt_succ (List.mem_range.mp hi)
    have hstep : (i : ℚ) / fps ≤ ((last - first) * fps + 1e-9) / fps := div_le_div_of_nonneg_right (hin.trans hlow) hfps.le
    rw [add_div, mul_div_cancel_right₀ _ hfps.ne'] at hstep
    linarith
  · intro f l hf hl
    obtain rfl : first = f := Option.some.inj (hhead.symm.trans hf)
    obtain rfl : last = l := Option.some.inj (hlast.symm.trans hl)
    rw [List.length_map, List.length_range]
    have hstep : ((last - first) * fps + 1e-9) / fps < ((n + 1 : Nat) : ℚ) / fps := by
      push_cast
      exact div_lt_div_of_pos_right hhigh hfps
    rw [add_div, mul_div_cancel_right₀ _ hfps.ne'] at hstep
    linarith

/-! ### Interpolation -/

section
variable {xs ys : List ℚ} {x : ℚ}

theorem findIdx_after (hsorted : xs.Pairwise (· < ·)) {i : Nat} (hlen : i < xs.length) (hi : i + 1 < xs.length) (hle : xs[i] ≤ x)
    (hlt : x < xs[i + 1]) : xs.findIdx (x < ·) = i + 1 := by
  refine (List.findIdx_eq hi).mpr ⟨decide_eq_true hlt, fun j hj => decide_eq_false (not_lt.mpr ?_)⟩
  rcases (Nat.lt_succ_iff.mp hj).eq_or_lt with rfl | hji
  · exact hle
  · exact (List.pairwise_iff_getElem.mp hsorted j i _ _ hji).le.trans hle

theorem findIdx_end (hsorted : xs.Pairwise (· < ·)) (hne : xs ≠ []) (hle : xs.getLast hne ≤ x) : xs.findIdx (x < ·) = xs.length := by
  refine List.findIdx_eq_length.mpr fun y hy => decide_eq_false (not_lt.mpr ?_)
  obtain ⟨i, hi, rfl⟩ := List.getElem_of_mem hy
  rw [List.getLast_eq_getElem] at hle
  rcases (Nat.le_sub_one_of_lt hi).eq_or_lt with heq | hlt
  · simpa only [heq] using hle
  · exact (List.pairwise_iff_getElem.mp hsorted i _ hi _ hlt).le.trans hle

theorem interp_end (hsorted : xs.Pairwise (· < ·)) (hne : xs ≠ []) (hle : xs.getLast hne ≤ x) :
    interp xs ys x = ys.getD (xs.length - 1) 0 := by
  have hlen := List.length_pos_iff.mpr hne
  unfold interp
  dsimp only
  rw [findIdx_end hsorted hne hle, if_neg (by omega), if_pos rfl]

theorem interp_start (hne : xs ≠ []) (hlt : x < xs.head hne) : interp xs ys x = ys.getD 0 0 := by
  have hfirst : xs.findIdx (x < ·) = 0 := by
    cases xs with
    | nil => exact absurd rfl hne
    | cons a rest => exact List.findIdx_cons.trans (by simp [show x < a from hlt])
  unfold interp
  dsimp only
  rw [if_pos hfirst]

theorem interp_inside (hsorted : xs.Pairwise (· < ·)) {i : Nat} (hlen : i < xs.length) (hi : i + 1 < xs.length) (hle : xs[i] ≤ x)
    (hlt : x < xs[i + 1]) :
    interp xs ys x = (ys.getD (i + 1) 0 - ys.getD i 0) / (xs[i + 1] - xs[i]) * (x - xs[i]) + ys.getD i 0 := by
  unfold interp
  dsimp only
  rw [findIdx_after hsorted hlen hi hle hlt, if_neg (Nat.succ_ne_zero i), if_neg hi.ne, Nat.add_sub_cancel,
    List.getD_eq_getElem xs 0 hi, List.getD_eq_getElem xs 0 hlen]

/-- At a stamp of the source, the value is the one of the source. -/
theorem interp_at (hsorted : xs.Pairwise (· < ·)) {i : Nat} (hi : i < xs.length) : interp xs ys xs[i] = ys.getD i 0 := by
  rcases Nat.lt_or_ge (i + 1) xs.length with hmore | hend
  · have hstep := List.pairwise_iff_getElem.mp hsorted i (i + 1) hi hmore (Nat.lt_succ_self i)
    rw [interp_inside hsorted hi hmore le_rfl hstep, sub_self, mul_zero, zero_add]
  · have hlast : i = xs.length - 1 := by omega
    have hne := List.length_pos_iff.mp (Nat.zero_lt_of_lt hi)
    have hle : xs.getLast hne ≤ xs[i] := by
      rw [List.getLast_eq_getElem]
      simp only [hlast, le_refl]
    rw [interp_end hsorted hne hle, ← hlast]

/-- Between two stamps, the value lies between those of the source. -/
theorem interp_between (ys : List ℚ) (hsorted : xs.Pairwise (· < ·)) {i : Nat} (hlen : i < xs.length) (hi : i + 1 < xs.length)
    (hlow : xs[i] < x) (hhigh : x < xs[i + 1]) :
    min (ys.getD i 0) (ys.getD (i + 1) 0) ≤ interp xs ys x ∧ interp xs ys x ≤ max (ys.getD i 0) (ys.getD (i + 1) 0) := by
  rw [interp_inside hsorted hlen hi hlow.le hhigh]
  generalize ys.getD i 0 = a
  generalize ys.getD (i + 1) 0 = b
  have hspan : 0 < xs[i + 1] - xs[i] := by linarith
  obtain ⟨w, hw⟩ : ∃ w, w = (x - xs[i]) / (xs[i + 1] - xs[i]) := ⟨_, rfl⟩
  have hw0 : 0 ≤ w := hw ▸ div_nonneg (by linarith) hspan.le
  have hw1 : w ≤ 1 := by
    rw [hw, div_le_one hspan]
    linarith
  have hvalue : (b - a) / (xs[i + 1] - xs[i]) * (x - xs[i]) + a = (1 - w) * a + w * b := by
    rw [hw]
    field_simp
    ring
  rw [hvalue]
  rcases le_total a b with hab | hab
  · rw [min_eq_left hab, max_eq_right hab]
    constructor <;> nlinarith
  · rw [min_eq_right hab, max_eq_left hab]
    constructor <;> nlinarith

end

/-! ### Resampled rows -/

/-- A row that was resampled at a target: the source row at its stamp, between the two around it, and the nearest one beyond. -/
structure Resampled (timestamps : List ℚ) (rows : List (List ℚ)) (columns : Nat) (x : ℚ) (row : List ℚ) : Prop where
  width : row.length = columns
  exact : ∀ i : Nat, timestamps[i]? = some x → rows[i]? = some row
  between : ∀ (i : Nat) a b, timestamps[i]? = some a → timestamps[i + 1]? = some b → a < x → x < b → ∀ c < columns,
    min ((rows.getD i []).getD c 0) ((rows.getD (i + 1) []).getD c 0) ≤ row.getD c 0 ∧
      row.getD c 0 ≤ max ((rows.getD i []).getD c 0) ((rows.getD (i + 1) []).getD c 0)
  before : (∀ t ∈ timestamps, x < t) → rows.head? = some row
  after : (∀ t ∈ timestamps, t < x) → rows.getLast? = some row

section
variable {cast : ℚ → ℚ} {timestamps : List ℚ} {values : Array2} {x : ℚ}

theorem column_getD (a : Array2) (c i : Nat) : (a.column c).getD i 0 = (a.rows.getD i []).getD c 0 := by
  unfold Array2.column
  rw [List.getD_eq_getElem?_getD, List.getElem?_map, List.getD_eq_getElem?_getD (l := a.rows)]
  cases a.rows[i]? <;> rfl

/-- A row of the source is what the cast gives of its own entries. -/
theorem cast_row (hvalues : ∀ row ∈ values.rows, ∀ v ∈ row, cast v = v) {i : Nat} (hi : i < values.rows.length) :
    ((List.range values.columns).map fun c => cast ((values.column c).getD i 0)) = values.rows[i] := by
  have hwidth := values.width _ (List.getElem_mem hi)
  refine List.ext_getElem (by simp [hwidth]) fun c hc hc' => ?_
  rw [List.getElem_map, List.getElem_range, column_getD, List.getD_eq_getElem _ _ hi, List.getD_eq_getElem _ _ hc']
  exact hvalues _ (List.getElem_mem hi) _ (List.getElem_mem hc')

theorem cast_between {a b v : ℚ} (hcast : Monotone cast) (ha : cast a = a) (hb : cast b = b)
    (h : min a b ≤ v ∧ v ≤ max a b) : min a b ≤ cast v ∧ cast v ≤ max a b := by
  have hlow := hcast h.1
  have hhigh := hcast h.2
  rw [hcast.map_min, ha, hb] at hlow
  rw [hcast.map_max, ha, hb] at hhigh
  exact ⟨hlow, hhigh⟩

theorem resampled_row (hsorted : timestamps.Pairwise (· < ·)) (hne : timestamps ≠ [])
    (hrows : values.rows.length = timestamps.length) (hcast : Monotone cast)
    (hvalues : ∀ row ∈ values.rows, ∀ v ∈ row, cast v = v) :
    Resampled timestamps values.rows values.columns x
      ((List.range values.columns).map fun c => cast (interp timestamps (values.column c) x)) where
  width := by simp
  exact i hi := by
    obtain ⟨hlt, rfl⟩ := List.getElem?_eq_some_iff.mp hi
    simp only [interp_at hsorted hlt]
    rw [cast_row hvalues (hrows ▸ hlt)]
    exact List.getElem?_eq_getElem _
  between i a b ha hb hlow hhigh c hc := by
    obtain ⟨hlen, rfl⟩ := List.getElem?_eq_some_iff.mp ha
    obtain ⟨hlt, rfl⟩ := List.getElem?_eq_some_iff.mp hb
    have hkeep : ∀ j < timestamps.length, cast ((values.rows.getD j []).getD c 0) = (values.rows.getD j []).getD c 0 := by
      intro j hj
      rw [← hrows] at hj
      have hwidth := values.width _ (List.getElem_mem hj)
      rw [List.getD_eq_getElem _ _ hj, List.getD_eq_getElem _ _ (hwidth ▸ hc)]
      exact hvalues _ (List.getElem_mem hj) _ (List.getElem_mem _)
    have hbetween := interp_between (values.column c) hsorted hlen hlt hlow hhigh
    rw [column_getD, column_getD] at hbetween
    have hentry : ((List.range values.columns).map fun c => cast (interp timestamps (values.column c) x)).getD c 0 =
        cast (interp timestamps (values.column c) x) := by
      rw [List.getD_eq_getElem _ _ (by simpa using hc), List.getElem_map, List.getElem_range]
    rw [hentry]
    exact cast_between hcast (hkeep i hlen) (hkeep (i + 1) hlt) hbetween
  before h := by
    have hpos : 0 < values.rows.length := hrows ▸ List.length_pos_iff.mpr hne
    simp only [interp_start hne (h _ (List.head_mem hne))]
    rw [cast_row hvalues hpos, List.head?_eq_getElem?]
    exact List.getElem?_eq_getElem _
  after h := by
    have hpos : 0 < values.rows.length := hrows ▸ List.length_pos_iff.mpr hne
    simp only [interp_end hsorted hne (h _ (List.getLast_mem hne)).le]
    have hlast : values.rows.length - 1 = timestamps.length - 1 := by omega
    rw [cast_row hvalues (i := timestamps.length - 1) (by omega), List.getLast?_eq_getElem?, hlast]
    exact List.getElem?_eq_getElem _

end

/-! ### The completed reference -/

section
variable {float32 : ℚ → ℚ} {timestamps : List ℚ} {arms leftHand rightHand : SourceChannels} {standing : StandingPose}
  {e : CanonicalEpisode ℚ}

theorem foldl_set_other {updates : List (Nat × ℚ)} {j : Nat} (hj : ∀ p ∈ updates, p.1 ≠ j) (row : List ℚ) :
    (updates.foldl (fun row p => row.set p.1 p.2) row)[j]? = row[j]? := by
  induction updates generalizing row with
  | nil => rfl
  | cons p rest ih =>
    rw [List.foldl_cons, ih fun q hq => hj q (List.mem_cons_of_mem _ hq)]
    exact List.getElem?_set_ne (hj p List.mem_cons_self)

/-- Of updates at different places each is kept. -/
theorem foldl_set_at {updates : List (Nat × ℚ)} (hnodup : (updates.map Prod.fst).Nodup) {row : List ℚ} {j : Nat} {x : ℚ}
    (hmem : (j, x) ∈ updates) (hlt : j < row.length) : (updates.foldl (fun row p => row.set p.1 p.2) row)[j]? = some x := by
  induction updates generalizing row with
  | nil => cases hmem
  | cons p rest ih =>
    rw [List.map_cons, List.nodup_cons] at hnodup
    rw [List.foldl_cons]
    rcases List.mem_cons.mp hmem with rfl | hmem
    · have hrest : ∀ q ∈ rest, q.1 ≠ j := fun q hq heq => hnodup.1 (List.mem_map.mpr ⟨q, hq, heq⟩)
      rw [foldl_set_other hrest, List.getElem?_set_self hlt]
    · exact ih hnodup.2 hmem (by rwa [List.length_set])

theorem setArms_of_not_mem {row values : List ℚ} {j : Nat} (hj : j ∉ armIds) : (setArms row values)[j]? = row[j]? := by
  have hother : ∀ p ∈ armIds.zip values, p.1 ≠ j := fun p hp heq => hj (heq ▸ (List.of_mem_zip hp).1)
  exact foldl_set_other hother row

theorem setArms_length {row values : List ℚ} : (setArms row values).length = row.length := by
  unfold setArms
  generalize armIds.zip values = updates
  induction updates generalizing row with
  | nil => rfl
  | cons p rest ih => rw [List.foldl_cons, ih, List.length_set]

/-- Each arm joint takes its value. -/
theorem setArms_at {row values : List ℚ} (hids : ∀ i ∈ armIds, i < row.length) (hvalues : values.length = armIds.length) {k j : Nat}
    {x : ℚ} (hj : armIds[k]? = some j) (hx : values[k]? = some x) : (setArms row values)[j]? = some x := by
  have hnodup : ((armIds.zip values).map Prod.fst).Nodup := by
    rw [List.map_fst_zip hvalues.ge]
    decide
  exact foldl_set_at hnodup (List.mem_iff_getElem?.mpr ⟨k, List.getElem?_zip_eq_some.mpr ⟨hj, hx⟩⟩) (hids j (List.mem_of_getElem? hj))

/-- A velocity is the difference of two rows, or zero. -/
theorem mem_finiteDifference {positions : List (List ℚ)} {fps : ℚ} {row : List ℚ} (h : row ∈ finiteDifference positions fps) :
    ∃ a ∈ positions, ∃ b ∈ positions, row = List.zipWith (fun a b => (b - a) * fps) a b ∨ row = a.map fun _ => 0 := by
  have hstep : ∀ r ∈ List.zipWith (List.zipWith fun a b => (b - a) * fps) positions positions.tail,
      ∃ a ∈ positions, ∃ b ∈ positions, r = List.zipWith (fun a b => (b - a) * fps) a b := by
    intro r hr
    rw [← List.map_uncurry_zip_eq_zipWith, List.mem_map] at hr
    obtain ⟨⟨a, b⟩, hab, rfl⟩ := hr
    obtain ⟨ha, hb⟩ := List.of_mem_zip hab
    exact ⟨a, ha, b, List.mem_of_mem_tail hb, rfl⟩
  unfold finiteDifference at h
  dsimp only at h
  cases hlast : (List.zipWith (List.zipWith fun a b => (b - a) * fps) positions positions.tail).getLast? with
  | none =>
    rw [hlast] at h
    obtain ⟨a, ha, rfl⟩ := List.mem_map.mp h
    exact ⟨a, ha, a, ha, .inr rfl⟩
  | some last =>
    rw [hlast] at h
    have hr : row ∈ List.zipWith (List.zipWith fun a b => (b - a) * fps) positions positions.tail := by
      rcases List.mem_append.mp h with hrow | hrow
      · exact hrow
      · rw [List.mem_singleton.mp hrow]
        exact List.mem_of_getLast? hlast
    obtain ⟨a, ha, b, hb, heq⟩ := hstep row hr
    exact ⟨a, ha, b, hb, .inl heq⟩

/-- What the completion puts together. -/
theorem compose_ok (h : composeUnitreeStaticCompletion float32 timestamps arms leftHand rightHand standing = .ok e) :
    arms.values.columns = armNames.length ∧ (∀ i ∈ armIds, i < standing.jointPos.length) ∧
      uniformTimeline timestamps processedFps = .ok e.timestamps ∧
      ∃ resampled : List (List ℚ), linearResample arms.cast timestamps arms.values e.timestamps = .ok resampled ∧
        e.jointPos = (resampled.map (setArms standing.jointPos)).map (·.map float32) ∧
        e.jointVel = (finiteDifference (resampled.map (setArms standing.jointPos)) processedFps).map (·.map float32) ∧
        e.bodyPos = List.replicate e.timestamps.length (standing.bodyPos.map float32) ∧
        e.bodyQuatWxyz = List.replicate e.timestamps.length (standing.bodyQuatWxyz.map float32) := by
  unfold composeUnitreeStaticCompletion at h
  obtain ⟨_, hwidth, h⟩ := bind_ok h
  obtain ⟨target, htarget, h⟩ := bind_ok h
  obtain ⟨_, hstanding, h⟩ := bind_ok h
  obtain ⟨resampled, hresampled, h⟩ := bind_ok h
  obtain ⟨left, -, h⟩ := bind_ok h
  obtain ⟨right, -, h⟩ := bind_ok h
  obtain ⟨_, -, h⟩ := bind_ok h
  cases h
  refine ⟨?_, fun i hi => ?_, htarget, resampled, hresampled, rfl, rfl, rfl, rfl⟩
  · unfold requireArms at hwidth
    split at hwidth
    · assumption
    · cases hwidth
  · unfold requireJoints at hstanding
    split at hstanding
    · rename_i hall
      exact of_decide_eq_true (List.all_eq_true.mp hall i hi)
    · cases hstanding

theorem not_armIds {name : String} (hname : name ∈ sonicReferenceJointOrder) (harm : name ∉ armNames) :
    sonicReferenceJointOrder.idxOf name ∉ armIds := by
  revert name
  decide

theorem standing_joints (h : ∀ i ∈ armIds, i < standing.jointPos.length) {name : String} (hname : name ∈ sonicReferenceJointOrder) :
    sonicReferenceJointOrder.idxOf name < standing.jointPos.length := by
  have hlast : 28 < standing.jointPos.length := h 28 (by decide)
  have hlt := List.idxOf_lt_length_iff.mpr hname
  exact hlt.trans_le hlast

/-- A joint without a source stands where the pose has it, at rest, in every row. -/
theorem completion_constant (h : composeUnitreeStaticCompletion float32 timestamps arms leftHand rightHand standing = .ok e)
    {name : String} (hname : name ∈ sonicReferenceJointOrder) (harm : name ∉ armNames) :
    ∃ v, standing.jointPos[sonicReferenceJointOrder.idxOf name]? = some v ∧
      (∀ row ∈ e.jointPos, row[sonicReferenceJointOrder.idxOf name]? = some (float32 v)) ∧
      ∀ row ∈ e.jointVel, row[sonicReferenceJointOrder.idxOf name]? = some (float32 0) := by
  obtain ⟨-, hids, -, resampled, -, hpos, hvel, -, -⟩ := compose_ok h
  have hj := not_armIds hname harm
  have hlt := standing_joints hids hname
  generalize sonicReferenceJointOrder.idxOf name = j at hj hlt
  have hrow : ∀ row ∈ resampled.map (setArms standing.jointPos), row[j]? = some standing.jointPos[j] := by
    intro row hr
    obtain ⟨values, -, rfl⟩ := List.mem_map.mp hr
    rw [setArms_of_not_mem hj]
    exact List.getElem?_eq_getElem _
  refine ⟨standing.jointPos[j], List.getElem?_eq_getElem _, fun row hr => ?_, fun row hr => ?_⟩
  · rw [hpos] at hr
    obtain ⟨r, hmem, rfl⟩ := List.mem_map.mp hr
    rw [List.getElem?_map, hrow r hmem]
    rfl
  · rw [hvel] at hr
    obtain ⟨r, hmem, rfl⟩ := List.mem_map.mp hr
    obtain ⟨a, ha, b, hb, rfl | rfl⟩ := mem_finiteDifference hmem
    · rw [List.getElem?_map, List.getElem?_zipWith, hrow a ha, hrow b hb]
      simp
    · rw [List.getElem?_map, List.getElem?_map, hrow a ha]
      rfl

theorem linearResample_ok {cast : ℚ → ℚ} {values : Array2} {target : List ℚ} {rows : List (List ℚ)}
    (h : linearResample cast timestamps values target = .ok rows) :
    rows.length = target.length ∧ ∀ row ∈ rows, row.length = values.columns := by
  unfold linearResample at h
  repeat' split at h
  all_goals cases h
  refine ⟨List.length_map _, fun row hrow => ?_⟩
  obtain ⟨x, -, rfl⟩ := List.mem_map.mp hrow
  rw [List.length_map, List.length_range]

theorem finiteDifference_length (positions : List (List ℚ)) (fps : ℚ) : (finiteDifference positions fps).length = positions.length := by
  unfold finiteDifference
  dsimp only
  rcases positions with _ | ⟨a, _ | ⟨b, rest⟩⟩
  · rfl
  · rfl
  · cases hlast : (List.zipWith (List.zipWith fun a b => (b - a) * fps) (a :: b :: rest) (a :: b :: rest).tail).getLast? with
    | none => exact absurd (List.getLast?_eq_none_iff.mp hlast) (by simp)
    | some last => simp

/-- The completed reference has a row for each stamp of the uniform timeline, with the arms that were resampled at it; every other
    joint stands where the pose has it, at rest, and so does the root. -/
structure Completed (float32 : ℚ → ℚ) (timestamps : List ℚ) (arms : SourceChannels) (standing : StandingPose) (e : CanonicalEpisode ℚ) :
    Prop where
  timeline : uniformTimeline timestamps processedFps = .ok e.timestamps
  frames : e.jointPos.length = e.timestamps.length ∧ e.jointVel.length = e.timestamps.length
  constant : ∀ name ∈ sonicReferenceJointOrder, name ∉ armNames →
    ∃ v, standing.jointPos[sonicReferenceJointOrder.idxOf name]? = some v ∧
      (∀ row ∈ e.jointPos, row[sonicReferenceJointOrder.idxOf name]? = some (float32 v)) ∧
      ∀ row ∈ e.jointVel, row[sonicReferenceJointOrder.idxOf name]? = some (float32 0)
  arms : ∃ resampled, linearResample arms.cast timestamps arms.values e.timestamps = .ok resampled ∧
    List.Forall₂ (fun values row => ∀ (k : Nat) name, armNames[k]? = some name →
      ∃ x, values[k]? = some x ∧ row[sonicReferenceJointOrder.idxOf name]? = some (float32 x)) resampled e.jointPos
  root : e.bodyPos = List.replicate e.timestamps.length (standing.bodyPos.map float32) ∧
    e.bodyQuatWxyz = List.replicate e.timestamps.length (standing.bodyQuatWxyz.map float32)

theorem compose_completed (h : composeUnitreeStaticCompletion float32 timestamps arms leftHand rightHand standing = .ok e) :
    Completed float32 timestamps arms standing e := by
  obtain ⟨hwidth, hids, htimeline, resampled, hresampled, hpos, hvel, hroot, hquat⟩ := compose_ok h
  obtain ⟨hlength, hwidths⟩ := linearResample_ok hresampled
  refine ⟨htimeline, ⟨by simp [hpos, hlength], by simp [hvel, finiteDifference_length, hlength]⟩,
    fun name hname harm => completion_constant h hname harm, ⟨resampled, hresampled, ?_⟩, hroot, hquat⟩
  rw [hpos, List.map_map, List.forall₂_map_right_iff, List.forall₂_same]
  intro values hvalues k name hname
  have hlen : values.length = armNames.length := (hwidths values hvalues).trans hwidth
  have hk : k < values.length := hlen ▸ (List.getElem?_eq_some_iff.mp hname).1
  have hid : armIds[k]? = some (sonicReferenceJointOrder.idxOf name) := by
    rw [armIds, List.getElem?_map, hname]
    rfl
  have hvalue : values[k]? = some values[k] := List.getElem?_eq_getElem hk
  refine ⟨values[k], hvalue, ?_⟩
  rw [Function.comp_apply, List.getElem?_map,
    setArms_at hids (hlen.trans (List.length_map _).symm) hid hvalue, Option.map_some]

/-- Arrays of the widths and lengths that the completion asks for. -/
structure Fits (timestamps : List ℚ) (arms leftHand rightHand : SourceChannels) (standing : StandingPose) : Prop where
  rows : ∀ c ∈ [arms, leftHand, rightHand], c.values.rows.length = timestamps.length
  columns : arms.values.columns = armNames.length ∧ leftHand.values.columns = dex3Dim ∧ rightHand.values.columns = dex3Dim
  pose : standing.jointPos.length = bodyDim ∧ standing.bodyPos.length = 3 ∧ standing.bodyQuatWxyz.length = 4

theorem uniformTimeline_increasing {target : List ℚ} (h : uniformTimeline timestamps processedFps = .ok target) :
    increasing target = true := by
  unfold uniformTimeline at h
  repeat' split at h
  all_goals cases h
  refine increasing_exact (List.pairwise_map.mpr (List.pairwise_lt_range.imp fun {i j} hij => ?_))
  have hcast : (i : ℚ) < j := by exact_mod_cast hij
  have hstep : (i : ℚ) / processedFps < j / processedFps := div_lt_div_of_pos_right hcast (by decide +kernel)
  linarith

theorem hasShape_of {rows : List (List ℚ)} {frames width : Nat} (hframes : rows.length = frames)
    (hwidth : ∀ row ∈ rows, row.length = width) : hasShape rows frames width = true := by
  simpa [hasShape, hframes] using hwidth

/-- The completion returns where its arrays fit. -/
theorem compose_returns (hne : timestamps ≠ []) (hsorted : timestamps.Pairwise (· < ·))
    (hfits : Fits timestamps arms leftHand rightHand standing) :
    ∃ e, composeUnitreeStaticCompletion float32 timestamps arms leftHand rightHand standing = .ok e := by
  obtain ⟨hrows, ⟨harms, hleft, hright⟩, hpose, hpos, hquat⟩ := hfits
  obtain ⟨target, htarget, hcovers⟩ := uniformTimeline_covers hne hsorted (show (0 : ℚ) < processedFps by decide +kernel)
  have hresample : ∀ c ∈ [arms, leftHand, rightHand], c.values.columns ≠ 0 →
      ∃ rows, linearResample c.cast timestamps c.values target = .ok rows := by
    intro c hc hcolumns
    exact ⟨_, by rw [linearResample, if_neg (not_not.mpr (hrows c hc)), if_neg hcolumns, if_neg hne]⟩
  obtain ⟨resampled, hresampled⟩ := hresample arms (by simp) (by rw [harms]; decide)
  obtain ⟨left, hleftRows⟩ := hresample leftHand (by simp) (by rw [hleft]; decide)
  obtain ⟨right, hrightRows⟩ := hresample rightHand (by simp) (by rw [hright]; decide)
  have hrequired : requireJoints standing = .ok () := by
    refine if_pos (List.all_eq_true.mpr fun i hi => decide_eq_true ?_)
    rw [hpose]
    revert i
    decide
  obtain ⟨hlength, -⟩ := linearResample_ok hresampled
  have hbody : ∀ row ∈ resampled.map (setArms standing.jointPos), row.length = bodyDim := by
    intro row hrow
    obtain ⟨values, -, rfl⟩ := List.mem_map.mp hrow
    rw [setArms_length, hpose]
  have hvelocity : ∀ row ∈ finiteDifference (resampled.map (setArms standing.jointPos)) processedFps, row.length = bodyDim := by
    intro row hrow
    obtain ⟨a, ha, b, hb, rfl | rfl⟩ := mem_finiteDifference hrow
    · rw [List.length_zipWith, hbody a ha, hbody b hb, min_self]
    · rw [List.length_map, hbody a ha]
  have hnonempty : target ≠ [] := by
    intro hnil
    have hhead := hcovers.start
    rw [hnil, List.head?_eq_some_head hne] at hhead
    cases hhead
  obtain ⟨e, he⟩ : ∃ e : CanonicalEpisode ℚ, e = {
      timestamps := target
      jointPos := (resampled.map (setArms standing.jointPos)).map (·.map float32)
      jointVel := (finiteDifference (resampled.map (setArms standing.jointPos)) processedFps).map (·.map float32)
      bodyQuatWxyz := List.replicate target.length (standing.bodyQuatWxyz.map float32)
      bodyPos := List.replicate target.length (standing.bodyPos.map float32)
      leftHandJoints := left
      rightHandJoints := right } := ⟨_, rfl⟩
  have hvalid : e.validate = .ok () := by
    refine CanonicalEpisode.validate_ok.mpr ⟨fun f hf => ⟨?_, finiteRows_all (fun _ => rfl) _⟩, he ▸ hnonempty, ?_, ?_⟩
    · have hmapped : ∀ {rows : List (List ℚ)}, (∀ row ∈ rows, row.length = bodyDim) →
          ∀ row ∈ rows.map (·.map float32), row.length = bodyDim := by
        intro rows hrows row hrow
        obtain ⟨r, hr, rfl⟩ := List.mem_map.mp hrow
        rw [List.length_map, hrows r hr]
      subst he
      simp only [CanonicalEpisode.expected, List.mem_cons, List.not_mem_nil, or_false] at hf
      rcases hf with rfl | rfl | rfl | rfl | rfl | rfl
      · exact hasShape_of (by simp [hlength]) (hmapped hbody)
      · exact hasShape_of (by simp [finiteDifference_length, hlength]) (hmapped hvelocity)
      · exact hasShape_of List.length_replicate fun row hrow => by rw [List.eq_of_mem_replicate hrow, List.length_map, hquat]
      · exact hasShape_of List.length_replicate fun row hrow => by rw [List.eq_of_mem_replicate hrow, List.length_map, hpos]
      · exact hasShape_of (linearResample_ok hleftRows).1 fun row hrow => ((linearResample_ok hleftRows).2 row hrow).trans hleft
      · exact hasShape_of (linearResample_ok hrightRows).1 fun row hrow => ((linearResample_ok hrightRows).2 row hrow).trans hright
    · exact List.all_eq_true.mpr fun _ _ => rfl
    · subst he
      exact uniformTimeline_increasing htarget
  refine ⟨e, ?_⟩
  unfold composeUnitreeStaticCompletion
  have harms' : requireArms arms.values = .ok () := if_pos harms
  simp only [harms', htarget, hrequired, hresampled, hleftRows, hrightRows, bind, Except.bind]
  rw [← he, hvalid]
  rfl

end

theorem resampling (timestamps : List ℚ) (hne : timestamps ≠ []) (hsorted : timestamps.Pairwise (· < ·)) :
    (∀ fps, 0 < fps → ∃ target, uniformTimeline timestamps fps = .ok target ∧ Covers timestamps target fps) ∧
    (∀ (cast : ℚ → ℚ) (values : Array2) (target : List ℚ), Monotone cast → (∀ row ∈ values.rows, ∀ v ∈ row, cast v = v) →
      values.rows.length = timestamps.length → values.columns ≠ 0 →
      ∃ rows, linearResample cast timestamps values target = .ok rows ∧
        List.Forall₂ (Resampled timestamps values.rows values.columns) target rows) ∧
    ∀ (float32 : ℚ → ℚ) (arms leftHand rightHand : SourceChannels) (standing : StandingPose),
      (Fits timestamps arms leftHand rightHand standing →
        ∃ e, composeUnitreeStaticCompletion float32 timestamps arms leftHand rightHand standing = .ok e) ∧
      ∀ e, composeUnitreeStaticCompletion float32 timestamps arms leftHand rightHand standing = .ok e →
        Completed float32 timestamps arms standing e := by
  refine ⟨fun fps hfps => uniformTimeline_covers hne hsorted hfps, fun cast values target hcast hvalues hrows hcolumns => ?_,
    fun float32 arms leftHand rightHand standing => ⟨compose_returns hne hsorted, fun e h => compose_completed h⟩⟩
  refine ⟨_, by rw [linearResample, if_neg (not_not.mpr hrows), if_neg hcolumns, if_neg hne], ?_⟩
  rw [List.forall₂_map_right_iff, List.forall₂_same]
  exact fun x _ => resampled_row hsorted hne hrows hcast hvalues

def threeRows : Array2 where
  columns := 1
  rows := [[0], [1], [3]]
  width := by decide

/-- The arms rise, and the hands stay. -/
def risingArms : SourceChannels := ⟨⟨14, [List.replicate 14 0, List.replicate 14 1, List.replicate 14 3], by decide⟩, id⟩

def openHand : SourceChannels := ⟨⟨7, List.replicate 3 (List.replicate 7 0), by decide⟩, id⟩

def uprightPose : StandingPose := ⟨(List.range 29).map fun (i : Nat) => (i : ℚ) / 32, [0, 0, 3 / 4], [1, 0, 0, 0]⟩

theorem resampling_three : (∃ target, uniformTimeline [0, 1 / 30, 1 / 15] processedFps = .ok target ∧
      Covers [0, 1 / 30, 1 / 15] target processedFps) ∧
    (∃ rows, linearResample (fun x => x) [0, 1 / 30, 1 / 15] threeRows [1 / 60] = .ok rows ∧
      List.Forall₂ (Resampled [0, 1 / 30, 1 / 15] threeRows.rows 1) [1 / 60] rows) ∧
    ∃ e, composeUnitreeStaticCompletion id [0, 1 / 30, 1 / 15] risingArms openHand openHand uprightPose = .ok e ∧
      Completed id [0, 1 / 30, 1 / 15] risingArms uprightPose e := by
  obtain ⟨huniform, hresample, hcomplete⟩ := resampling [0, 1 / 30, 1 / 15] (by simp) (by norm_num)
  obtain ⟨hreturns, hcompleted⟩ := hcomplete id risingArms openHand openHand uprightPose
  have hfits : Fits [0, 1 / 30, 1 / 15] risingArms openHand openHand uprightPose := by
    refine ⟨fun c hc => ?_, ⟨rfl, rfl, rfl⟩, rfl, rfl, rfl⟩
    simp only [List.mem_cons, List.not_mem_nil, or_false] at hc
    rcases hc with rfl | rfl | rfl <;> rfl
  obtain ⟨e, he⟩ := hreturns hfits
  exact ⟨huniform processedFps (by decide +kernel),
    hresample (fun x => x) threeRows [1 / 60] monotone_id (fun _ _ _ _ => rfl) rfl (by decide), e, he, hcompleted e he⟩

end HumanoidLab
