import HumanoidLab.Lib.Rounding
import Mathlib.Data.Int.Log
import Mathlib.Data.Rat.Floor
import Mathlib.Tactic.Linarith
import Mathlib.Tactic.Positivity
import Mathlib.Tactic.FieldSimp
import Mathlib.Tactic.Ring

/-! Binary floating point: rounding to the nearest number of `precision` significant bits, a tie to the even one, with a
    least exponent. There is no greatest one: results are not too large for their format. -/

namespace Rounding

section
variable {K : Type} [Field K] [LinearOrder K] [IsStrictOrderedRing K] [FloorRing K] {x y : K}

theorem roundHalfEven_intCast (n : Int) : roundHalfEven (n : K) = n := by
  unfold roundHalfEven
  rw [Int.floor_intCast, sub_self, if_pos (by norm_num)]

omit [IsStrictOrderedRing K] in
theorem floor_le_roundHalfEven (x : K) : ⌊x⌋ ≤ roundHalfEven x := by
  unfold roundHalfEven
  split_ifs <;> omega

omit [IsStrictOrderedRing K] in
theorem roundHalfEven_le_floor_add_one (x : K) : roundHalfEven x ≤ ⌊x⌋ + 1 := by
  unfold roundHalfEven
  split_ifs <;> omega

theorem roundHalfEven_mono (h : x ≤ y) : roundHalfEven x ≤ roundHalfEven y := by
  rcases (Int.floor_mono h).lt_or_eq with hlt | heq
  · exact (roundHalfEven_le_floor_add_one x).trans (hlt.trans_le (floor_le_roundHalfEven y))
  · -- The two lie between the same integers.
    have hsub : x - ⌊x⌋ ≤ y - ⌊y⌋ := by
      rw [heq]
      exact sub_le_sub_right h _
    unfold roundHalfEven
    rw [heq] at hsub ⊢
    split_ifs with h1 h2 h3 h4 h5 h6 <;> first | omega | (exfalso; linarith)

theorem abs_roundHalfEven_sub_le (x : K) : |(roundHalfEven x : K) - x| ≤ 1 / 2 := by
  have hlow := Int.floor_le x
  have hhigh := Int.lt_floor_add_one x
  have hhalf : (0.5 : K) = 1 / 2 := by norm_num
  unfold roundHalfEven
  rw [hhalf, abs_le]
  split_ifs <;> push_cast <;> constructor <;> linarith

end

/-- The distance of the numbers of the format around `x`. -/
def quantum (precision : Nat) (least : Int) (x : ℚ) : ℚ := 2 ^ max (Int.log 2 |x| + 1 - precision) least

def roundBinary (precision : Nat) (least : Int) (x : ℚ) : ℚ :=
  if 0 ≤ x then roundHalfEven (x / quantum precision least x) * quantum precision least x
  else -(roundHalfEven (-x / quantum precision least x) * quantum precision least x)

variable {p : Nat} {e : Int} {x y : ℚ}

theorem quantum_pos (p : Nat) (e : Int) (x : ℚ) : 0 < quantum p e x := by
  exact zpow_pos (by norm_num) _

theorem quantum_neg (p : Nat) (e : Int) (x : ℚ) : quantum p e (-x) = quantum p e x := by
  unfold quantum
  rw [abs_neg]

@[simp] theorem roundBinary_zero : roundBinary p e 0 = 0 := by
  unfold roundBinary
  rw [if_pos le_rfl, zero_div, show (0 : ℚ) = ((0 : Int) : ℚ) from rfl, roundHalfEven_intCast]
  simp

theorem roundBinary_neg (x : ℚ) : roundBinary p e (-x) = -roundBinary p e x := by
  rcases lt_trichotomy x 0 with h | rfl | h
  · unfold roundBinary
    rw [if_pos (by linarith), if_neg (by linarith), quantum_neg, neg_neg]
  · simp
  · unfold roundBinary
    rw [if_neg (by linarith), if_pos h.le, quantum_neg, neg_neg]

theorem roundBinary_nonneg (h : 0 ≤ x) : 0 ≤ roundBinary p e x := by
  unfold roundBinary
  rw [if_pos h]
  have hq := quantum_pos p e x
  have hround : (0 : Int) ≤ roundHalfEven (x / quantum p e x) := by
    rw [← roundHalfEven_intCast (K := ℚ) 0]
    exact roundHalfEven_mono (by rw [Int.cast_zero]; positivity)
  have hround : (0 : ℚ) ≤ roundHalfEven (x / quantum p e x) := by exact_mod_cast hround
  positivity

/-- A whole number of quanta bounds the rounding when it bounds the number. -/
theorem roundBinary_le_mul {n : Int} (hx : 0 ≤ x) (h : x ≤ n * quantum p e x) : roundBinary p e x ≤ n * quantum p e x := by
  have hq := quantum_pos p e x
  unfold roundBinary
  rw [if_pos hx]
  refine mul_le_mul_of_nonneg_right ?_ hq.le
  have hle : x / quantum p e x ≤ (n : ℚ) := (div_le_iff₀ hq).mpr h
  have hround := roundHalfEven_mono hle
  rw [roundHalfEven_intCast] at hround
  exact_mod_cast hround

theorem mul_le_roundBinary {n : Int} (hx : 0 ≤ x) (h : n * quantum p e x ≤ x) : n * quantum p e x ≤ roundBinary p e x := by
  have hq := quantum_pos p e x
  unfold roundBinary
  rw [if_pos hx]
  refine mul_le_mul_of_nonneg_right ?_ hq.le
  have hle : (n : ℚ) ≤ x / quantum p e x := (le_div_iff₀ hq).mpr h
  have hround := roundHalfEven_mono hle
  rw [roundHalfEven_intCast] at hround
  exact_mod_cast hround

theorem two_zpow_mul {a b : Int} (h : b ≤ a) : ((2 ^ (a - b).toNat : Int) : ℚ) * 2 ^ b = 2 ^ a := by
  have hcast : ((2 ^ (a - b).toNat : Int) : ℚ) = 2 ^ (a - b) := by
    rw [Int.cast_pow, Int.cast_ofNat, ← zpow_natCast, Int.toNat_of_nonneg (by omega)]
  rw [hcast, ← zpow_add₀ (by norm_num), sub_add_cancel]

theorem roundBinary_mono_of_nonneg (hp : 0 < p) (hx : 0 ≤ x) (h : x ≤ y) : roundBinary p e x ≤ roundBinary p e y := by
  rcases hx.eq_or_lt with rfl | hx
  · rw [roundBinary_zero]
    exact roundBinary_nonneg h
  have hy : 0 < y := hx.trans_le h
  have hlog : Int.log 2 |x| ≤ Int.log 2 |y| := by
    rw [abs_of_pos hx, abs_of_pos hy]
    exact Int.log_mono_right hx h
  rcases (max_le_max_right e (sub_le_sub_right (add_le_add_left hlog 1) (p : Int))).eq_or_lt with heq | hlt
  · have hq : quantum p e x = quantum p e y := congrArg (fun z : Int => (2 : ℚ) ^ z) heq
    unfold roundBinary
    rw [if_pos hx.le, if_pos hy.le, hq]
    refine mul_le_mul_of_nonneg_right ?_ (quantum_pos p e y).le
    exact_mod_cast roundHalfEven_mono (div_le_div_of_nonneg_right h (quantum_pos p e y).le)
  · -- A power of two lies between them, and it is a whole number of quanta of both.
    rw [abs_of_pos hx, abs_of_pos hy] at hlt
    have hbelow : x ≤ (2 : ℚ) ^ Int.log 2 y := by
      refine (Int.lt_zpow_succ_log_self Nat.one_lt_two x).le.trans ?_
      rw [Nat.cast_ofNat]
      exact zpow_le_zpow_right₀ (by norm_num) (by omega)
    have habove : (2 : ℚ) ^ Int.log 2 y ≤ y := by
      have := Int.zpow_log_le_self Nat.one_lt_two hy
      rwa [Nat.cast_ofNat] at this
    have hmulx : ((2 ^ (Int.log 2 y - max (Int.log 2 |x| + 1 - p) e).toNat : Int) : ℚ) * quantum p e x = 2 ^ Int.log 2 y :=
      two_zpow_mul (by rw [abs_of_pos hx]; omega)
    have hmuly : ((2 ^ (Int.log 2 y - max (Int.log 2 |y| + 1 - p) e).toNat : Int) : ℚ) * quantum p e y = 2 ^ Int.log 2 y :=
      two_zpow_mul (by rw [abs_of_pos hy]; omega)
    calc roundBinary p e x ≤ 2 ^ Int.log 2 y := by
          rw [← hmulx]
          exact roundBinary_le_mul hx.le (hmulx ▸ hbelow)
      _ ≤ roundBinary p e y := by
          rw [← hmuly]
          exact mul_le_roundBinary hy.le (hmuly ▸ habove)

theorem roundBinary_mono (hp : 0 < p) (h : x ≤ y) : roundBinary p e x ≤ roundBinary p e y := by
  rcases le_total 0 x with hx | hx
  · exact roundBinary_mono_of_nonneg hp hx h
  · rcases le_total 0 y with hy | hy
    · have hneg : 0 ≤ roundBinary p e (-x) := roundBinary_nonneg (by linarith)
      rw [roundBinary_neg] at hneg
      exact (by linarith : roundBinary p e x ≤ 0).trans (roundBinary_nonneg hy)
    · have hneg := roundBinary_mono_of_nonneg (e := e) hp (x := -y) (y := -x) (by linarith) (by linarith)
      rw [roundBinary_neg, roundBinary_neg] at hneg
      linarith

theorem abs_roundBinary (x : ℚ) : |roundBinary p e x| = roundBinary p e |x| := by
  rcases le_total 0 x with hx | hx
  · rw [abs_of_nonneg hx, abs_of_nonneg (roundBinary_nonneg hx)]
  · have hneg : 0 ≤ roundBinary p e (-x) := roundBinary_nonneg (by linarith)
    rw [abs_of_nonpos hx, roundBinary_neg] at *
    exact abs_of_nonpos (by linarith)

/-- A number is rounded by half a quantum at most. -/
theorem abs_roundBinary_sub_le (x : ℚ) : |roundBinary p e x - x| ≤ quantum p e x / 2 := by
  have hq := quantum_pos p e x
  have hscaled : ∀ y : ℚ, |roundHalfEven (y / quantum p e x) * quantum p e x - y| ≤ quantum p e x / 2 := by
    intro y
    have hround := abs_roundHalfEven_sub_le (y / quantum p e x)
    have hmul : (roundHalfEven (y / quantum p e x) : ℚ) * quantum p e x - y =
        (roundHalfEven (y / quantum p e x) - y / quantum p e x) * quantum p e x := by
      rw [sub_mul, div_mul_cancel₀ y hq.ne']
    rw [hmul, abs_mul, abs_of_pos hq]
    calc _ ≤ 1 / 2 * quantum p e x := mul_le_mul_of_nonneg_right hround hq.le
      _ = quantum p e x / 2 := by ring
  unfold roundBinary
  split
  · exact hscaled x
  · rw [show ∀ a : ℚ, -a - x = -(a - -x) by intro a; ring, abs_neg]
    exact hscaled (-x)

theorem quantum_le {k : Int} (hx : x ≠ 0) (hlt : |x| < 2 ^ k) (hk : e ≤ k - p) : quantum p e x ≤ 2 ^ (k - p : Int) := by
  have hlog : Int.log 2 |x| < k := (Int.lt_zpow_iff_log_lt Nat.one_lt_two (abs_pos.mpr hx)).mp (by rwa [Nat.cast_ofNat])
  exact zpow_le_zpow_right₀ (by norm_num) (by omega)

theorem roundBinary_of_quanta {n : Int} (hx : 0 ≤ x) (h : x = n * quantum p e x) : roundBinary p e x = x :=
  le_antisymm ((roundBinary_le_mul hx h.le).trans h.ge) (h.le.trans (mul_le_roundBinary hx h.ge))

/-- A number of the format is rounded to itself. -/
theorem roundBinary_of_mul (hp : 0 < p) {n k : Int} (hn : 0 ≤ n) (hle : n ≤ 2 ^ p) (hk : e ≤ k) :
    roundBinary p e (n * 2 ^ k) = n * 2 ^ k := by
  rcases hn.eq_or_lt with rfl | hn
  · simp
  have hx : (0 : ℚ) < n * 2 ^ k := mul_pos (by exact_mod_cast hn) (zpow_pos (by norm_num) k)
  by_cases hexp : max (Int.log 2 ((n : ℚ) * 2 ^ k) + 1 - p) e ≤ k
  · refine roundBinary_of_quanta (n := n * 2 ^ (k - max (Int.log 2 ((n : ℚ) * 2 ^ k) + 1 - p) e).toNat) hx.le ?_
    unfold quantum
    rw [abs_of_pos hx, Int.cast_mul, mul_assoc, two_zpow_mul hexp]
  · -- The number is the power of two above `n` significant bits.
    have hlow : (2 : ℚ) ^ Int.log 2 ((n : ℚ) * 2 ^ k) ≤ n * 2 ^ k := by
      have := Int.zpow_log_le_self Nat.one_lt_two hx
      rwa [Nat.cast_ofNat] at this
    have hhigh : (n : ℚ) * 2 ^ k ≤ 2 ^ Int.log 2 ((n : ℚ) * 2 ^ k) := by
      calc (n : ℚ) * 2 ^ k ≤ 2 ^ (p : Int) * 2 ^ k := by
            refine mul_le_mul_of_nonneg_right ?_ (zpow_pos (by norm_num) k).le
            rw [zpow_natCast]
            exact_mod_cast hle
        _ = 2 ^ ((p : Int) + k) := (zpow_add₀ (by norm_num) _ _).symm
        _ ≤ 2 ^ Int.log 2 ((n : ℚ) * 2 ^ k) := zpow_le_zpow_right₀ (by norm_num) (by omega)
    have heq : (n : ℚ) * 2 ^ k = 2 ^ Int.log 2 ((n : ℚ) * 2 ^ k) := le_antisymm hhigh hlow
    refine roundBinary_of_quanta
      (n := 2 ^ (Int.log 2 ((n : ℚ) * 2 ^ k) - max (Int.log 2 ((n : ℚ) * 2 ^ k) + 1 - p) e).toNat) hx.le ?_
    unfold quantum
    rw [abs_of_pos hx, two_zpow_mul (by omega)]
    exact heq

/-- A rounding is a number of the format. -/
theorem roundBinary_roundBinary (hp : 0 < p) (x : ℚ) : roundBinary p e (roundBinary p e x) = roundBinary p e x := by
  have hnonneg : ∀ x : ℚ, 0 ≤ x → roundBinary p e (roundBinary p e x) = roundBinary p e x := by
    intro x hx
    have hround : roundBinary p e x = roundHalfEven (x / quantum p e x) * quantum p e x := by
      unfold roundBinary
      rw [if_pos hx]
    have hq := quantum_pos p e x
    have hlow : 0 ≤ roundHalfEven (x / quantum p e x) := by
      rw [← roundHalfEven_intCast (K := ℚ) 0]
      exact roundHalfEven_mono (by rw [Int.cast_zero]; positivity)
    have hhigh : roundHalfEven (x / quantum p e x) ≤ 2 ^ p := by
      rw [← roundHalfEven_intCast (K := ℚ) (2 ^ p)]
      refine roundHalfEven_mono ((div_le_iff₀ hq).mpr ?_)
      rcases hx.eq_or_lt with rfl | hx
      · positivity
      · have hlt := (Int.lt_zpow_succ_log_self Nat.one_lt_two x).le
        rw [Nat.cast_ofNat] at hlt
        refine hlt.trans ?_
        unfold quantum
        rw [abs_of_pos hx, Int.cast_pow, Int.cast_ofNat, ← zpow_natCast, ← zpow_add₀ (by norm_num)]
        exact zpow_le_zpow_right₀ (by norm_num) (by omega)
    rw [hround]
    exact roundBinary_of_mul hp hlow hhigh (le_max_right _ _)
  rcases le_total 0 x with hx | hx
  · exact hnonneg x hx
  · have hneg := hnonneg (-x) (by linarith)
    rw [roundBinary_neg, roundBinary_neg] at hneg
    linarith

end Rounding
