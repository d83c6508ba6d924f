import HumanoidLab.Lib.Floating

/-! Numbers of a binary format that are read back from what lies near them: half of a step that is small enough (Matula). -/

namespace Rounding

variable {p : Nat} {e : Int} {x y : ℚ}


/-- What lies within half a quantum of a whole number of quanta is rounded to it. -/
theorem roundBinary_of_near {n : Int} (hy : 0 ≤ y) (hx : x = n * quantum p e y) (h : |y - x| < quantum p e y / 2) :
    roundBinary p e y = x := by
  have hq := quantum_pos p e y
  have hscaled : |y / quantum p e y - n| < 1 / 2 := by
    have hmul : y / quantum p e y - n = (y - x) / quantum p e y := by
      rw [hx, sub_div, mul_div_cancel_right₀ _ hq.ne']
    rw [hmul, abs_div, abs_of_pos hq, div_lt_iff₀ hq]
    linarith
  have hround := abs_roundHalfEven_sub_le (y / quantum p e y)
  have hapart : |(roundHalfEven (y / quantum p e y) - n : ℚ)| < 1 := by
    calc |(roundHalfEven (y / quantum p e y) - n : ℚ)|
        ≤ |(roundHalfEven (y / quantum p e y) - y / quantum p e y : ℚ)| + |y / quantum p e y - n| := abs_sub_le _ _ _
      _ < 1 := by linarith
  have hsame : roundHalfEven (y / quantum p e y) = n := by
    have hint : |roundHalfEven (y / quantum p e y) - n| < 1 := by exact_mod_cast hapart
    exact sub_eq_zero.mp (Int.abs_lt_one_iff.mp hint)
  unfold roundBinary
  rw [if_pos hy, hsame, ← hx]

/-- The exponent of the quantum. -/
def quantumExponent (p : Nat) (e : Int) (x : ℚ) : Int := max (Int.log 2 |x| + 1 - p) e

theorem quantum_eq (x : ℚ) : quantum p e x = 2 ^ quantumExponent p e x := rfl

/-- A number of the format is a whole number of its quanta. -/
theorem quanta_of_round (hx : 0 ≤ x) (h : roundBinary p e x = x) : ∃ n : Int, x = n * quantum p e x := by
  unfold roundBinary at h
  rw [if_pos hx] at h
  exact ⟨_, h.symm⟩

/-- A number of the format is a whole number of the quanta of what lies lower. -/
theorem quanta_of_le (hx : 0 ≤ x) (h : roundBinary p e x = x) {k : Int} (hk : k ≤ quantumExponent p e x) : ∃ n : Int, x = n * 2 ^ k := by
  obtain ⟨n, hn⟩ := quanta_of_round hx h
  refine ⟨n * 2 ^ (quantumExponent p e x - k).toNat, ?_⟩
  rw [Int.cast_mul, mul_assoc, two_zpow_mul hk]
  exact hn

/-- What lies less than one quantum above a whole number of quanta is no further whole number of them. -/
theorem le_of_quanta {q : ℚ} (hq : 0 < q) {m n : Int} (h : (n : ℚ) * q < m * q + q) : (n : ℚ) * q ≤ m * q := by
  rw [← add_one_mul] at h
  have hlt : (n : ℚ) < m + 1 := lt_of_mul_lt_mul_right h hq.le
  have hle : n ≤ m := Int.lt_add_one_iff.mp (by exact_mod_cast hlt)
  exact mul_le_mul_of_nonneg_right (by exact_mod_cast hle) hq.le

theorem zpow_log_le (hx : 0 < x) : (2 : ℚ) ^ Int.log 2 x ≤ x := by
  simpa using Int.zpow_log_le_self Nat.one_lt_two hx

theorem lt_zpow_log (x : ℚ) : x < (2 : ℚ) ^ (Int.log 2 x + 1) := by
  simpa using Int.lt_zpow_succ_log_self Nat.one_lt_two x

/-- A number of the format is not below its quantum. -/
theorem quantumExponent_le_log (hx : 0 < x) (h : roundBinary p e x = x) : quantumExponent p e x ≤ Int.log 2 x := by
  obtain ⟨n, hn⟩ := quanta_of_round hx.le h
  have hq := quantum_pos p e x
  have hpos : 0 < n := by
    have hscaled : (0 : ℚ) * quantum p e x < n * quantum p e x := by rw [zero_mul, ← hn]; exact hx
    exact_mod_cast lt_of_mul_lt_mul_right hscaled hq.le
  have hone : quantum p e x ≤ x := by
    calc quantum p e x = 1 * quantum p e x := (one_mul _).symm
      _ ≤ n * quantum p e x := mul_le_mul_of_nonneg_right (by exact_mod_cast hpos) hq.le
      _ = x := hn.symm
  have hlt := (zpow_lt_zpow_iff_right₀ (by norm_num : (1 : ℚ) < 2)).mp (hone.trans_lt (lt_zpow_log x))
  exact Int.lt_add_one_iff.mp hlt

/-- A number of the format is read from what is nearer to it than half of a step that is less than `x / 2 ^ p`. -/
theorem roundBinary_of_close (hp : 0 < p) (hx : 0 < x) (h : roundBinary p e x = x) {u : ℚ} (hu : 0 < u) (hstep : u * 2 ^ p < x)
    (hclose : |y - x| ≤ u / 2) : roundBinary p e y = x := by
  obtain ⟨hlow, hhigh⟩ := abs_le.mp hclose
  have htwo : (2 : ℚ) ≤ 2 ^ p := le_self_pow₀ (by norm_num) hp.ne'
  have hux : u * 2 < x := lt_of_le_of_lt (mul_le_mul_of_nonneg_left htwo hu.le) hstep
  have hy : 0 < y := by linarith
  obtain ⟨n, hn⟩ := quanta_of_round hx.le h
  rw [quantum_eq] at hn
  set q : ℚ := 2 ^ quantumExponent p e x with hqdef
  have hq : 0 < q := zpow_pos (by norm_num) _
  have hexp : quantumExponent p e x = max (Int.log 2 x + 1 - p) e := by rw [quantumExponent, abs_of_pos hx]
  have hgrid := quantumExponent_le_log hx h
  have hpower : ∀ k, quantumExponent p e x ≤ k → ∃ m : Int, (2 : ℚ) ^ k = m * q := fun k hk => ⟨_, (two_zpow_mul hk).symm⟩
  have huq : u < q := by
    refine lt_of_mul_lt_mul_right ?_ (by positivity : (0 : ℚ) ≤ 2 ^ p)
    refine (hstep.trans (lt_zpow_log x)).trans_le ?_
    rw [hqdef, ← zpow_natCast, ← zpow_add₀ (by norm_num)]
    exact zpow_le_zpow_right₀ (by norm_num) (by omega)
  -- The number and what is near it lie below the same power of two.
  have hlog : Int.log 2 y ≤ Int.log 2 x := by
    obtain ⟨m, hm⟩ := hpower (Int.log 2 x + 1) (by omega)
    have hbelow : x + q ≤ 2 ^ (Int.log 2 x + 1) := by
      have hle := le_of_quanta (m := m - 1) (n := n) hq (by push_cast; rw [← hn]; linarith [lt_zpow_log x])
      push_cast at hle
      rw [← hn, sub_one_mul, ← hm] at hle
      linarith
    exact Int.lt_add_one_iff.mp ((Int.lt_zpow_iff_log_lt Nat.one_lt_two hy).mp (by push_cast; linarith))
  have hle : quantumExponent p e y ≤ quantumExponent p e x := by
    rw [hexp, quantumExponent, abs_of_pos hy]
    omega
  have hfine : u < 2 ^ quantumExponent p e y := by
    rcases le_or_gt ((2 : ℚ) ^ Int.log 2 x) y with habove | hbelow
    · have hsame : Int.log 2 x ≤ Int.log 2 y := (Int.zpow_le_iff_le_log Nat.one_lt_two hy).mp (by push_cast; exact habove)
      refine huq.trans_le (zpow_le_zpow_right₀ (by norm_num) ?_)
      rw [hexp, quantumExponent, abs_of_pos hy]
      omega
    · -- Only a power of two has something below its power of two so near to it.
      obtain ⟨m, hm⟩ := hpower (Int.log 2 x) hgrid
      have hpow : x ≤ 2 ^ Int.log 2 x := by
        rw [hm, hn]
        exact le_of_quanta hq (by rw [← hn, ← hm]; linarith)
      have hhalf : (2 : ℚ) ^ (Int.log 2 x - 1) ≤ y := by
        have hdouble : (2 : ℚ) ^ (Int.log 2 x - 1) * 2 = 2 ^ Int.log 2 x := by
          rw [← zpow_add_one₀ (by norm_num), sub_add_cancel]
        linarith [zpow_log_le hx]
      have hlog' : Int.log 2 x - 1 ≤ Int.log 2 y := (Int.zpow_le_iff_le_log Nat.one_lt_two hy).mp (by push_cast; exact hhalf)
      have hsmall : u < 2 ^ (Int.log 2 x - p) := by
        refine lt_of_mul_lt_mul_right ?_ (by positivity : (0 : ℚ) ≤ 2 ^ p)
        rw [← zpow_natCast, ← zpow_add₀ (by norm_num), sub_add_cancel, zpow_natCast]
        exact hstep.trans_le hpow
      refine hsmall.trans_le (zpow_le_zpow_right₀ (by norm_num) ?_)
      rw [quantumExponent, abs_of_pos hy]
      omega
  obtain ⟨m, hm⟩ := quanta_of_le hx.le h hle
  exact roundBinary_of_near hy.le hm (by rw [quantum_eq]; linarith)

end Rounding
