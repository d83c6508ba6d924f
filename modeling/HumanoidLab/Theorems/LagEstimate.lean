import HumanoidLab.Datasets.Fidelity
import HumanoidLab.Lib.Correlation
import HumanoidLab.Lib.Moments
import Mathlib.Data.Prod.Lex

/-! The lag of a response, over the exact reals. The reported lag correlates best, and of several such lags it is the last one, which
    is not the one of least magnitude where a positive lag is tied. -/

namespace HumanoidLab.Sonic
open Correlation

/-- A lag within the limit is scored with a mean correlation. -/
def Scored (reference response : List (List ℝ)) (maxLag : ℕ) (lag : ℤ) (c : ℝ) : Prop :=
  |lag| ≤ maxLag ∧ lagScore reference response lag = some c

/-- No lag that is scored correlates better. -/
def Wins (reference response : List (List ℝ)) (maxLag : ℕ) (lag : ℤ) : Prop :=
  ∃ c, Scored reference response maxLag lag c ∧ ∀ l c', Scored reference response maxLag l c' → c' ≤ c

/-! ### The greatest score -/

section
variable {reference response : List (List ℝ)} {maxLag : ℕ} {lag m : ℤ} {c : ℝ}

theorem mem_lagScores : (c, lag) ∈ lagScores reference response maxLag ↔ Scored reference response maxLag lag c := by
  simp only [lagScores, List.mem_filterMap, List.mem_map, List.mem_range, Option.map_eq_some_iff, Prod.mk.injEq]
  constructor
  · rintro ⟨_, ⟨i, hi, rfl⟩, c', hscore, rfl, rfl⟩
    exact ⟨abs_le.mpr ⟨by omega, by omega⟩, hscore⟩
  · rintro ⟨hlag, hscore⟩
    obtain ⟨hlow, hhigh⟩ := abs_le.mp hlag
    exact ⟨lag, ⟨(lag + maxLag).toNat, by omega, by omega⟩, c, hscore, rfl, rfl⟩

theorem scoreLess_iff {a b : ℝ × ℤ} : scoreLess a b = true ↔ toLex a < toLex b := by
  rw [Prod.Lex.toLex_lt_toLex]
  simp only [scoreLess, Arithmetic.lt, Bool.or_eq_true, Bool.and_eq_true, Bool.not_eq_true', decide_eq_true_eq,
    decide_eq_false_iff_not, not_lt]
  constructor
  · rintro (h | ⟨hle, hlag⟩)
    · exact Or.inl h
    · exact hle.lt_or_eq.imp_right fun h => ⟨h, hlag⟩
  · exact Or.imp_right fun h => ⟨h.1.le, h.2⟩

theorem greatestScore_spec {scores : List (ℝ × ℤ)} {best : ℝ × ℤ} (h : greatestScore scores = some best) :
    best ∈ scores ∧ ∀ s ∈ scores, toLex s ≤ toLex best := by
  cases scores with
  | nil => cases h
  | cons score scores =>
    cases h
    constructor
    · refine Moments.foldl_mem (fun a b => ?_) score scores
      split
      · exact Or.inr rfl
      · exact Or.inl rfl
    · intro s hs
      refine Moments.foldl_keeps (p := fun best => toLex s ≤ toLex best) (fun a b h => ?_) (fun a b h => ?_) score scores
        ⟨s, hs, le_refl _⟩
      · split
        · rename_i hless
          exact h.trans (scoreLess_iff.mp hless).le
        · exact h
      · split
        · exact h
        · rename_i hnot
          exact h.trans (not_lt.mp fun hless => hnot (scoreLess_iff.mpr hless))

/-- The reported lag is scored, and every score is less than its, or the same at an earlier lag. -/
theorem temporalAlignment_spec (hscored : ∃ lag c, Scored reference response maxLag lag c) :
    ∃ c, Scored reference response maxLag (temporalAlignment reference response maxLag).bestLagFrames c ∧
      ∀ l c', Scored reference response maxLag l c' →
        toLex (c', l) ≤ toLex (c, (temporalAlignment reference response maxLag).bestLagFrames) := by
  obtain ⟨lag, c, h⟩ := hscored
  have hmem := mem_lagScores.mpr h
  unfold temporalAlignment
  cases hbest : greatestScore (lagScores reference response maxLag) with
  | none =>
    cases hscores : lagScores reference response maxLag with
    | nil =>
      rw [hscores] at hmem
      cases hmem
    | cons s scores =>
      rw [hscores] at hbest
      cases hbest
  | some best =>
    obtain ⟨hin, hgreatest⟩ := greatestScore_spec hbest
    exact ⟨best.1, mem_lagScores.mp hin, fun l c' h' => hgreatest _ (mem_lagScores.mpr h')⟩

theorem Scored.unique {c' : ℝ} (h : Scored reference response maxLag lag c) (h' : Scored reference response maxLag lag c') :
    c = c' := Option.some.inj (h.2.symm.trans h'.2)

/-- The reported lag is the last of those that win. -/
theorem wins_iff (hscored : ∃ lag c, Scored reference response maxLag lag c) :
    Wins reference response maxLag (temporalAlignment reference response maxLag).bestLagFrames ∧
      ∀ l, Wins reference response maxLag l → l ≤ (temporalAlignment reference response maxLag).bestLagFrames := by
  obtain ⟨c, hbest, hgreatest⟩ := temporalAlignment_spec hscored
  refine ⟨⟨c, hbest, fun l c' h' => ?_⟩, fun l hl => ?_⟩
  · rcases Prod.Lex.toLex_le_toLex.mp (hgreatest l c' h') with hlt | ⟨heq, -⟩
    · exact hlt.le
    · exact heq.le
  · obtain ⟨c', hl, hwins⟩ := hl
    rcases Prod.Lex.toLex_le_toLex.mp (hgreatest l c' hl) with hlt | ⟨-, hle⟩
    · exact ((hwins _ c hbest).not_gt hlt).elim
    · exact hle

end

/-! ### Correlations -/

section
open Arithmetic

theorem total_real (xs : List ℝ) : total xs = xs.sum := by
  have hzero : (ofRat 0 : ℝ) = 0 := Rat.cast_zero
  rw [total, hzero, List.sum_eq_foldl]

theorem norm_real (xs : List ℝ) : norm xs = √(energy xs) := by
  rw [norm, total_real, energy_eq]
  rfl

theorem average_real (xs : List ℝ) : average xs = xs.sum / xs.length := by
  have hlen : (ofRat (xs.length : ℚ) : ℝ) = xs.length := Rat.cast_natCast _
  rw [average, total_real, hlen]

theorem moves_iff {x : ℝ} : lt (ofRat 0.05) x = true ↔ 1 / 20 < x := by
  have hbound : ((0.05 : ℚ) : ℝ) = 1 / 20 := by norm_num
  rw [← hbound]
  exact decide_eq_true_iff

/-- A joint that moves has energy. -/
theorem moves_energy {xs : List ℝ} (hmoves : lt (ofRat 0.05) (peakToPeak xs) = true) : 1 / 10000 ≤ energy (centred xs) := by
  have hptp := moves_iff.mp hmoves
  cases xs with
  | nil =>
    have hnone : peakToPeak ([] : List ℝ) = 0 := sub_self _
    rw [hnone] at hptp
    norm_num at hptp
  | cons x xs =>
    have hchoice : ∀ (p : ℝ → ℝ → Bool) (a b : ℝ), (if p a b then b else a) = a ∨ (if p a b then b else a) = b := by
      intro p a b
      split
      · exact Or.inr rfl
      · exact Or.inl rfl
    have hhigh := Moments.foldl_mem (hchoice lt) x (x :: xs)
    have hlow := Moments.foldl_mem (hchoice fun a b => lt b a) x (x :: xs)
    have hhead : ∀ {y : ℝ}, y ∈ x :: x :: xs → y ∈ x :: xs := fun hy => (List.mem_cons.mp hy).elim (· ▸ List.mem_cons_self) id
    have hspread := spread_le_energy (average (x :: xs)) (hhead hlow) (hhead hhigh)
    have hsquare : (1 / 20 : ℝ) * (1 / 20) ≤ peakToPeak (x :: xs) * peakToPeak (x :: xs) :=
      mul_self_le_mul_self (by norm_num) hptp.le
    have hsub : peakToPeak (x :: xs) * peakToPeak (x :: xs) ≤ 4 * energy (centred (x :: xs)) := hspread
    linarith

/-- A joint that moves correlates with itself perfectly. -/
theorem jointCorrelation_self {xs : List ℝ} (hmoves : lt (ofRat 0.05) (peakToPeak xs) = true) :
    jointCorrelation xs xs = some 1 := by
  have henergy := moves_energy hmoves
  have hdenom : norm (centred xs) * norm (centred xs) = energy (centred xs) := by
    rw [norm_real, Real.mul_self_sqrt (energy_nonneg _)]
  have hvalid : lt (ofRat 1e-9) (norm (centred xs) * norm (centred xs)) = true := by
    rw [hdenom]
    have hsmall : ((1e-9 : ℚ) : ℝ) < 1 / 10000 := by norm_num
    exact decide_eq_true (hsmall.trans_le henergy)
  unfold jointCorrelation
  dsimp only
  have hne : energy (centred xs) ≠ 0 := ne_of_gt (by linarith)
  rw [if_pos hvalid, hdenom, total_real]
  exact congrArg some (div_self hne)

theorem jointCorrelation_le {xs ys : List ℝ} {c : ℝ} (hlen : xs.length = ys.length) (h : jointCorrelation xs ys = some c) :
    c ≤ 1 := by
  unfold jointCorrelation at h
  dsimp only at h
  split at h
  · rename_i hvalid
    cases h
    have hdenom : ((1e-9 : ℚ) : ℝ) < norm (centred xs) * norm (centred ys) := of_decide_eq_true hvalid
    have hpos : 0 < norm (centred xs) * norm (centred ys) := lt_trans (by norm_num) hdenom
    refine (div_le_one hpos).mpr ?_
    rw [total_real, norm_real, norm_real]
    exact products_le (by rw [centred, centred, List.length_map, List.length_map, hlen])
  · cases h

theorem average_le_one {xs : List ℝ} (h : ∀ x ∈ xs, x ≤ 1) : average xs ≤ 1 := by
  rw [average_real]
  refine div_le_one_of_le₀ ?_ (Nat.cast_nonneg _)
  have hsum := List.sum_le_card_nsmul xs 1 h
  rwa [nsmul_one] at hsum

theorem average_eq_one {xs : List ℝ} (hne : xs ≠ []) (h : ∀ x ∈ xs, x = 1) : average xs = 1 := by
  have hlen : (xs.length : ℝ) ≠ 0 := Nat.cast_ne_zero.mpr fun hlen => hne (List.length_eq_zero_iff.mp hlen)
  rw [average_real, List.eq_replicate_of_mem h, List.sum_replicate, List.length_replicate, nsmul_one, div_self hlen]

variable {reference response trajectory : List (List ℝ)} {maxLag : ℕ} {lag : ℤ} {c : ℝ}

/-- A lag is scored where at least three frames overlap, and by at most one. -/
theorem lagScore_some (h : lagScore reference response lag = some c) :
    3 ≤ (overlap reference response lag).1.length ∧
      (overlap reference response lag).2.length = (overlap reference response lag).1.length ∧ c ≤ 1 := by
  unfold lagScore at h
  generalize overlap reference response lag = o at h ⊢
  obtain ⟨first, second⟩ := o
  dsimp only at h ⊢
  split at h
  · cases h
  rename_i hlen
  rw [not_or, not_lt, not_not] at hlen
  refine ⟨hlen.1, hlen.2, ?_⟩
  split at h
  · cases h
  cases h
  split
  · exact (le_of_eq Rat.cast_zero).trans zero_le_one
  · refine average_le_one fun x hx => ?_
    obtain ⟨j, -, hj⟩ := List.mem_filterMap.mp hx
    exact jointCorrelation_le (by rw [joint, joint, List.length_map, List.length_map, hlen.2]) hj

theorem lagScore_frames (h : lagScore reference response lag = some c) (hlag : 0 ≤ lag) : 3 + lag ≤ response.length := by
  obtain ⟨hlen, hsame, -⟩ := lagScore_some h
  have hdrop : (overlap reference response lag).2 = response.drop lag.toNat := by rw [overlap, if_pos hlag]
  rw [← hsame, hdrop, List.length_drop] at hlen
  omega

theorem overlap_zero (trajectory : List (List ℝ)) : overlap trajectory trajectory 0 = (trajectory, trajectory) := by
  unfold overlap
  rw [if_pos le_rfl]
  dsimp only
  split
  · rfl
  · rw [sliceTo, if_pos (by omega)]
    simp

/-- A trajectory correlates perfectly with itself. -/
theorem lagScore_self (hlen : 3 ≤ trajectory.length) (hmoves : moving trajectory ≠ []) :
    lagScore trajectory trajectory 0 = some 1 := by
  have hvalid : ∀ j ∈ moving trajectory, jointCorrelation (joint trajectory j) (joint trajectory j) = some (1 : ℝ) := fun j hj =>
    jointCorrelation_self (List.mem_filter.mp hj).2
  have hall : ((moving trajectory).filterMap fun j => jointCorrelation (joint trajectory j) (joint trajectory j)) =
      (moving trajectory).map fun _ => (1 : ℝ) := by
    rw [← List.filterMap_eq_map]
    exact List.filterMap_congr hvalid
  have hne : (moving trajectory).map (fun _ => (1 : ℝ)) ≠ [] := fun h => hmoves (List.map_eq_nil_iff.mp h)
  unfold lagScore
  rw [overlap_zero]
  dsimp only
  rw [if_neg (by omega), if_neg (by rwa [List.isEmpty_iff]), hall, if_neg (by rwa [List.isEmpty_iff])]
  refine congrArg some (average_eq_one hne fun x hx => ?_)
  obtain ⟨-, -, rfl⟩ := List.mem_map.mp hx
  rfl

end

/-! ### The estimate -/

section
variable {reference response : List (List ℝ)} {maxLag : ℕ}

/-- Where a lag is scored, the reported lag is the best of those that are, and of least magnitude among the best, exactly where no
    positive lag is tied with one of less magnitude for the best. A trajectory does not lag behind itself exactly where no positive lag
    is perfect. -/
theorem lag_estimate (reference response : List (List ℝ)) (maxLag : ℕ) :
    ((∃ lag c, Scored reference response maxLag lag c) →
      ((Wins reference response maxLag (temporalAlignment reference response maxLag).bestLagFrames ∧
          ∀ l, Wins reference response maxLag l → |(temporalAlignment reference response maxLag).bestLagFrames| ≤ |l|) ↔
        ∀ m, 0 < m → Wins reference response maxLag m → ∀ l, Wins reference response maxLag l → m ≤ |l|)) ∧
    ∀ trajectory : List (List ℝ), 3 ≤ trajectory.length →
      (∃ j < width trajectory, 1 / 20 < peakToPeak (joint trajectory j)) →
      ((temporalAlignment trajectory trajectory maxLag).bestLagFrames = 0 ↔
        ∀ m, 0 < m → ¬Scored trajectory trajectory maxLag m 1) := by
  constructor
  · intro hscored
    obtain ⟨hwins, hlast⟩ := wins_iff hscored
    constructor
    · rintro ⟨-, hleast⟩ m hm hmwins l hl
      have hreported := hlast m hmwins
      have habs := hleast l hl
      rw [abs_of_nonneg (hm.le.trans hreported)] at habs
      exact hreported.trans habs
    · intro htied
      refine ⟨hwins, fun l hl => ?_⟩
      -- A winner is not after the reported lag, so it is nearer to zero only where the reported lag is positive.
      have hle := hlast l hl
      rcases lt_or_ge 0 (temporalAlignment reference response maxLag).bestLagFrames with hpos | hneg
      · rw [abs_of_pos hpos]
        exact htied _ hpos hwins l hl
      · rw [abs_of_nonpos hneg, abs_of_nonpos (hle.trans hneg)]
        exact neg_le_neg hle
  · rintro trajectory hlen ⟨j, hj, hmoves⟩
    have hmoving : moving trajectory ≠ [] :=
      List.ne_nil_of_mem (List.mem_filter.mpr ⟨List.mem_range.mpr hj, moves_iff.mpr hmoves⟩)
    have hzero : Scored trajectory trajectory maxLag 0 1 := ⟨by rw [abs_zero]; exact Int.natCast_nonneg _, lagScore_self hlen hmoving⟩
    have hbest : ∀ l c, Scored trajectory trajectory maxLag l c → c ≤ 1 := fun l c h => (lagScore_some h.2).2.2
    have hwin : ∀ l, Wins trajectory trajectory maxLag l ↔ Scored trajectory trajectory maxLag l 1 := by
      intro l
      constructor
      · rintro ⟨c, hc, hgreatest⟩
        rwa [le_antisymm (hgreatest 0 1 hzero) (hbest l c hc)]
      · exact fun h => ⟨1, h, hbest⟩
    obtain ⟨hwins, hlast⟩ := wins_iff ⟨0, 1, hzero⟩
    constructor
    · intro hreported m hm hperfect
      have hle := hlast m ((hwin m).mpr hperfect)
      rw [hreported] at hle
      exact not_lt.mpr hle hm
    · intro hnone
      have hge := hlast 0 ((hwin 0).mpr hzero)
      exact le_antisymm (not_lt.mp fun hpos => hnone _ hpos ((hwin _).mp hwins)) hge

/-- A joint that bends and goes back, and one that moves on at a constant rate. -/
def bendSample : List (List ℝ) := [[0], [0], [1], [0], [0]]

def rampSample : List (List ℝ) := [[0], [1], [(2 : ℕ)], [(3 : ℕ)]]

theorem moving_of_range {frames : List (List ℝ)} (hwidth : width frames = 1) (hmoves : 1 / 20 < peakToPeak (joint frames 0)) :
    moving frames = [0] := by
  unfold moving
  rw [hwidth]
  exact List.filter_cons_of_pos (moves_iff.mpr hmoves)

/-- The score of an overlap of one joint that moves as much in either part. -/
theorem lagScore_joint (first second : List (List ℝ)) (e : ℝ) (hoverlap : overlap reference response lag = (first, second))
    (hlen : 3 ≤ first.length) (hsame : second.length = first.length) (hwidth : width first = 1)
    (hmoves : 1 / 20 < peakToPeak (joint first 0)) (hfirst : energy (centred (joint first 0)) = e)
    (hsecond : energy (centred (joint second 0)) = e) (hvalid : 1 / 10000 ≤ e) :
    lagScore reference response lag =
      some ((List.zipWith (· * ·) (centred (joint first 0)) (centred (joint second 0))).sum / e) := by
  have hdenom : norm (centred (joint first 0)) * norm (centred (joint second 0)) = e := by
    rw [norm_real, norm_real, hfirst, hsecond, Real.mul_self_sqrt (by linarith)]
  have hlarge : Arithmetic.lt (Arithmetic.ofRat 1e-9) e = true := by
    have hsmall : ((1e-9 : ℚ) : ℝ) < 1 / 10000 := by norm_num
    exact decide_eq_true (hsmall.trans_le hvalid)
  have hcorrelation : jointCorrelation (joint first 0) (joint second 0) =
      some ((List.zipWith (· * ·) (centred (joint first 0)) (centred (joint second 0))).sum / e) := by
    unfold jointCorrelation
    dsimp only
    rw [hdenom, if_pos hlarge, total_real]
  have hone : [0].filterMap (fun j => jointCorrelation (joint first j) (joint second j)) =
      [(List.zipWith (· * ·) (centred (joint first 0)) (centred (joint second 0))).sum / e] := List.filterMap_cons_some hcorrelation
  unfold lagScore
  rw [hoverlap]
  dsimp only
  rw [if_neg (by omega), moving_of_range hwidth hmoves, hone]
  simp [average_real]

/-- The lags of the bend by one and by two frames. -/
theorem lagScore_bend : lagScore bendSample bendSample 1 = some (-(1 / 3)) ∧ lagScore bendSample bendSample 2 = some (-(1 / 2)) := by
  constructor
  · rw [lagScore_joint [[0], [0], [1], [0]] [[0], [1], [0], [0]] (3 / 4) rfl]
    all_goals norm_num [peakToPeak, joint, centred, average_real, energy, products, width, Arithmetic.lt, Arithmetic.ofRat]
  · rw [lagScore_joint [[0], [0], [1]] [[1], [0], [0]] (2 / 3) rfl]
    all_goals norm_num [peakToPeak, joint, centred, average_real, energy, products, width, Arithmetic.lt, Arithmetic.ofRat]

/-- The bend is scored at five lags, and best without a lag. -/
theorem lag_estimate_bend : (temporalAlignment bendSample bendSample).bestLagFrames = 0 ∧
    (Wins bendSample bendSample 15 0 ∧ ∀ l, Wins bendSample bendSample 15 l → (0 : ℤ) ≤ |l|) ∧
    Scored bendSample bendSample 15 1 (-(1 / 3)) ∧ Scored bendSample bendSample 15 2 (-(1 / 2)) := by
  have hmoves : 1 / 20 < peakToPeak (joint bendSample 0) := by
    norm_num [peakToPeak, joint, bendSample, Arithmetic.lt, Arithmetic.ofRat]
  have hzero : Scored bendSample bendSample 15 0 1 := by
    refine ⟨by decide, lagScore_self (by decide) ?_⟩
    rw [moving_of_range rfl hmoves]
    exact List.cons_ne_nil _ _
  obtain ⟨hone, htwo⟩ := lagScore_bend
  have hpositive : ∀ m, 0 < m → ¬Scored bendSample bendSample 15 m 1 := by
    rintro m hm ⟨-, hperfect⟩
    have hframes := lagScore_frames hperfect hm.le
    rw [show bendSample.length = 5 from rfl] at hframes
    obtain rfl | rfl : m = 1 ∨ m = 2 := by omega
    · have hthird := Option.some.inj (hone.symm.trans hperfect)
      norm_num at hthird
    · have hhalf := Option.some.inj (htwo.symm.trans hperfect)
      norm_num at hhalf
  have hreported : (temporalAlignment bendSample bendSample).bestLagFrames = 0 :=
    ((lag_estimate bendSample bendSample 15).2 bendSample (by decide) ⟨0, Nat.zero_lt_one, hmoves⟩).mpr hpositive
  have hbest := ((lag_estimate bendSample bendSample 15).1 ⟨0, 1, hzero⟩).mpr fun m hm hwins => ?_
  · rw [hreported, abs_zero] at hbest
    exact ⟨hreported, hbest, ⟨by decide, hone⟩, by decide, htwo⟩
  · obtain ⟨c, hc, hgreatest⟩ := hwins
    have hle : c ≤ 1 := (lagScore_some hc.2).2.2
    exact absurd (le_antisymm hle (hgreatest 0 1 hzero) ▸ hc) (hpositive m hm)

/-- A ramp is reported to lag behind itself, although it correlates as well without a lag. -/
theorem ramp_lags_behind_itself : (temporalAlignment rampSample rampSample).bestLagFrames = 1 ∧
    Wins rampSample rampSample 15 0 := by
  have hmoves : 1 / 20 < peakToPeak (joint rampSample 0) := by
    norm_num [peakToPeak, joint, rampSample, Arithmetic.lt, Arithmetic.ofRat]
  have hzero : lagScore rampSample rampSample 0 = some 1 := by
    refine lagScore_self (by decide) ?_
    rw [moving_of_range rfl hmoves]
    exact List.cons_ne_nil _ _
  -- A step later the same ramp begins one higher.
  have hone : lagScore rampSample rampSample 1 = some 1 := by
    have hoverlap : overlap rampSample rampSample 1 = ([[0], [1], [2]], [[1], [2], [3]]) := rfl
    have hshort : 1 / 20 < peakToPeak (joint ([[0], [1], [2]] : List (List ℝ)) 0) := by
      norm_num [peakToPeak, joint, Arithmetic.lt, Arithmetic.ofRat]
    have hcentred : centred (joint ([[1], [2], [3]] : List (List ℝ)) 0) = centred (joint [[0], [1], [2]] 0) := by
      norm_num [centred, average_real, joint]
    have hcorrelation : jointCorrelation (joint ([[0], [1], [2]] : List (List ℝ)) 0) (joint [[1], [2], [3]] 0) = some 1 := by
      rw [← jointCorrelation_self (moves_iff.mpr hshort), jointCorrelation, jointCorrelation, hcentred]
    have hvalid : [0].filterMap (fun j => jointCorrelation (joint ([[0], [1], [2]] : List (List ℝ)) j)
        (joint [[1], [2], [3]] j)) = [1] := List.filterMap_cons_some hcorrelation
    unfold lagScore
    rw [hoverlap]
    dsimp only
    rw [moving_of_range rfl hshort, hvalid]
    exact congrArg some (average_eq_one (List.cons_ne_nil _ _) fun x hx => by simpa using hx)
  have hbest : ∀ l c, Scored rampSample rampSample 15 l c → c ≤ 1 := fun l c h => (lagScore_some h.2).2.2
  have hscored : Scored rampSample rampSample 15 1 1 := ⟨by decide, hone⟩
  obtain ⟨⟨c, hreported, -⟩, hlast⟩ := wins_iff ⟨1, 1, hscored⟩
  have hge := hlast 1 ⟨1, ⟨by decide, hone⟩, hbest⟩
  have hle := lagScore_frames hreported.2 (by omega)
  rw [show rampSample.length = 4 from rfl] at hle
  exact ⟨by omega, 1, ⟨by decide, hzero⟩, hbest⟩

end
end HumanoidLab.Sonic
