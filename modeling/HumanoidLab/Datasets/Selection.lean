import HumanoidLab.Datasets.Validate
import HumanoidLab.Lib.Nearest

/-! The nearest sample of a timeline, by the bisection of `nearest_indices` in `datasets/psi0_dex3/convert.py` and by the search
    of `_nearest` in `datasets/psi0_dex3/validate.py`, over a subtraction: that of float64 gives the two functions as they run,
    the exact one what they are to compute. -/

namespace HumanoidLab.Psi0Dex3
open Nearest

section
variable (sub : ℚ → ℚ → ℚ)

/-- `b - a > 0`. -/
def FloatEntry.belowBy : FloatEntry → FloatEntry → Bool
  | finite a, finite b => 0 < sub b a
  | finite _, infinite negative => !negative
  | infinite negative, finite _ => negative
  | infinite true, infinite false => true
  | _, _ => false

/-- `np.diff(source) > 0` throughout. -/
def strictlyIncreasingBy (source : List FloatEntry) : Bool := (source.zip source.tail).all fun (a, b) => a.belowBy sub b

def nearestIndexBy (source : List ℚ) (target : ℚ) : Int :=
  let position : Int := min (max (source.findIdx (target ≤ ·)) 1) (source.length - 1)
  let left := source.getD (wrapIndex source.length (position - 1)) 0
  let right := source.getD (wrapIndex source.length position) 0
  if |sub target left| ≤ |sub right target| then position - 1 else position

def nearestIndicesBy (source target : List FloatEntry) : Except ConversionError (List Int) :=
  if source = [] then .error .sourceEmpty
  else if 1 < source.length ∧ !strictlyIncreasingBy sub source then .error .sourceNotIncreasing
  else if !(source.all FloatEntry.isFinite && target.all FloatEntry.isFinite) then .error .notFinite
  else .ok (target.map fun t => nearestIndexBy sub (source.map FloatEntry.value) t.value)

def nearestBruteBy (source target : List ℚ) : List Nat := target.map fun t => argmin (source.map fun s => |sub s t|)

end

theorem belowBy_float64 (a b : FloatEntry) : a.belowBy (fun x y => float64 (x - y)) b = a.below b := by
  cases a <;> cases b <;> rfl

theorem nearestIndicesBy_float64 (source target : List FloatEntry) :
    nearestIndicesBy (fun x y => float64 (x - y)) source target = nearestIndices source target := by
  unfold nearestIndicesBy nearestIndices strictlyIncreasingBy strictlyIncreasing
  simp only [belowBy_float64]
  rfl

theorem nearestBruteBy_float64 (source target : List ℚ) :
    nearestBruteBy (fun x y => float64 (x - y)) source target = nearestBrute source target := rfl

variable (sub : ℚ → ℚ → ℚ) {source : List ℚ}

/-- With more than one sample, the bisection selects one of the two around the target. -/
theorem nearestIndexBy_many (hmany : 1 < source.length) (t : ℚ) : ∃ k, ∃ hk : k + 1 < source.length, Around source t k ∧
    nearestIndexBy sub source t = ((if |sub t source[k]| ≤ |sub source[k + 1] t| then k else k + 1 : Nat) : Int) := by
  obtain ⟨k, hk, hpos, hlow, hhigh⟩ : ∃ k : Nat, k + 1 < source.length ∧
      min (max (source.findIdx (t ≤ ·) : Int) 1) (source.length - 1) = k + 1 ∧
      (k = 0 ∨ k < source.findIdx (t ≤ ·)) ∧ (k + 2 = source.length ∨ source.findIdx (t ≤ ·) ≤ k + 1) :=
    ⟨min (max (source.findIdx (t ≤ ·)) 1) (source.length - 1) - 1, by omega, by omega, by omega, by omega⟩
  refine ⟨k, hk, ⟨hlow, hhigh⟩, ?_⟩
  have hwrap : ∀ n : Nat, wrapIndex source.length n = n := fun n => by
    unfold wrapIndex
    rw [if_neg (by omega), Int.toNat_natCast]
  unfold nearestIndexBy
  dsimp only
  rw [hpos, add_sub_cancel_right, show ((k : Int) + 1) = ((k + 1 : Nat) : Int) from rfl, hwrap, hwrap,
    List.getD_eq_getElem _ _ (Nat.lt_of_succ_lt hk), List.getD_eq_getElem _ _ hk]
  split <;> rfl

/-- With one sample, the place that the bisection selects is the one before it. -/
theorem nearestIndexBy_one (hcomm : ∀ a b, |sub a b| = |sub b a|) (s t : ℚ) : nearestIndexBy sub [s] t = -1 := by
  unfold nearestIndexBy
  dsimp only
  rw [show min (max (([s].findIdx (t ≤ ·) : Nat) : Int) 1) (([s].length : Int) - 1) = 0 by simp]
  exact if_pos (hcomm t s).le

end HumanoidLab.Psi0Dex3
