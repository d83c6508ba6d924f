import Mathlib.Algebra.Order.BigOperators.Group.List
import Mathlib.Analysis.Real.Sqrt
import Mathlib.Tactic.Linarith

/-! The correlation of two lists of reals: their products are bounded by their energies, which are positive where entries differ. -/

namespace Correlation

/-- The sum of the products of the entries. -/
def products (as bs : List ℝ) : ℝ := (List.zipWith (· * ·) as bs).sum

def energy (as : List ℝ) : ℝ := products as as

theorem energy_eq (as : List ℝ) : energy as = (as.map fun a => a * a).sum := by
  rw [energy, products, List.zipWith_self]

theorem products_eq_sum {as bs : List ℝ} (h : as.length = bs.length) :
    products as bs = ∑ i ∈ Finset.range as.length, as.getD i 0 * bs.getD i 0 := by
  induction as generalizing bs with
  | nil => rfl
  | cons a as ih =>
    cases bs with
    | nil => cases h
    | cons b bs =>
      have hrest := ih (Nat.succ.inj h)
      simp only [products, List.zipWith_cons_cons, List.sum_cons, List.length_cons] at hrest ⊢
      rw [Finset.sum_range_succ', hrest, add_comm]
      rfl

theorem energy_eq_sum (as : List ℝ) : energy as = ∑ i ∈ Finset.range as.length, as.getD i 0 ^ 2 := by
  rw [energy, products_eq_sum rfl]
  exact Finset.sum_congr rfl fun i _ => (sq _).symm

/-- The inequality of Cauchy and Schwarz. -/
theorem products_le {as bs : List ℝ} (h : as.length = bs.length) : products as bs ≤ √(energy as) * √(energy bs) := by
  rw [products_eq_sum h, energy_eq_sum as, energy_eq_sum bs, ← h]
  exact Real.sum_mul_le_sqrt_mul_sqrt _ _ _

theorem energy_nonneg (as : List ℝ) : 0 ≤ energy as := by
  rw [energy_eq_sum]
  exact Finset.sum_nonneg fun i _ => sq_nonneg _

/-- Entries that are apart keep the energy up, whatever they are measured from. -/
theorem spread_le_energy {xs : List ℝ} {x y : ℝ} (m : ℝ) (hx : x ∈ xs) (hy : y ∈ xs) :
    (y - x) * (y - x) ≤ 4 * energy (xs.map (· - m)) := by
  rw [energy_eq, List.map_map]
  have hentry : ∀ z ∈ xs, (z - m) * (z - m) ≤ (xs.map ((fun a => a * a) ∘ (· - m))).sum := by
    intro z hz
    refine List.single_le_sum (fun a ha => ?_) _ (List.mem_map_of_mem hz)
    obtain ⟨b, -, rfl⟩ := List.mem_map.mp ha
    exact mul_self_nonneg (b - m)
  have hsum : 0 ≤ (x - m + (y - m)) * (x - m + (y - m)) := mul_self_nonneg _
  linarith [hentry x hx, hentry y hy]

end Correlation
