import Mathlib.Data.BitVec
import Mathlib.Data.List.Basic

/-! Cyclic redundancy checks, most significant bit first. A step multiplies the remainder by `X` modulo an odd polynomial, so it can be
    undone; a block of bits no longer than the remainder adds to its top bits. Two messages that differ in one such block have
    different remainders. -/

namespace Crc

variable {n : Nat} (poly : BitVec n)

/-- The remainder times `X`. -/
def shift (crc : BitVec n) : BitVec n := if crc.msb then crc <<< 1 ^^^ poly else crc <<< 1

/-- One bit of the message. -/
def step (crc : BitVec n) (b : Bool) : BitVec n := if b then shift poly crc ^^^ poly else shift poly crc

def feed (crc : BitVec n) (bits : List Bool) : BitVec n := bits.foldl (step poly) crc

/-- The top bits of a word. -/
def block : List Bool → BitVec n
  | [] => 0#n
  | b :: bits => (if b then BitVec.twoPow n (n - 1) else 0#n) ^^^ block bits >>> 1

/-- The bits of a word, the most significant one first. -/
def bitsOf (w : BitVec n) : List Bool := (List.range n).map w.getMsbD

variable {poly} {crc crc' w w' : BitVec n} {bits bits' : List Bool}

@[simp] theorem feed_nil : feed poly crc [] = crc := rfl

@[simp] theorem feed_cons (b : Bool) : feed poly crc (b :: bits) = feed poly (step poly crc b) bits := rfl

@[simp] theorem feed_append : feed poly crc (bits ++ bits') = feed poly (feed poly crc bits) bits' := List.foldl_append

theorem getLsbD_shiftLeft_succ {i : Nat} (hi : i + 1 < n) : (crc <<< 1).getLsbD (i + 1) = crc.getLsbD i := by
  rw [BitVec.getLsbD_shiftLeft, decide_eq_true hi, Bool.true_and, decide_eq_false (by omega), Bool.not_false, Bool.true_and,
    Nat.add_sub_cancel]

/-- The remainder is shifted back: its lowest bit tells whether the polynomial was added. -/
theorem shift_injective (hpoly : poly.getLsbD 0 = true) (h : shift poly crc = shift poly crc') : crc = crc' := by
  have hlow : ∀ c : BitVec n, (shift poly c).getLsbD 0 = c.msb := by
    intro c
    unfold shift
    split_ifs with hmsb <;> simp [hpoly, hmsb]
  have hmsb : crc.msb = crc'.msb := by rw [← hlow crc, ← hlow crc', h]
  have hshift : crc <<< 1 = crc' <<< 1 := by
    unfold shift at h
    rw [hmsb] at h
    split_ifs at h with hset
    · exact BitVec.xor_left_inj poly |>.mp h
    · exact h
  apply BitVec.eq_of_getLsbD_eq
  intro i hi
  by_cases hlast : i + 1 < n
  · have hbit : (crc <<< 1).getLsbD (i + 1) = (crc' <<< 1).getLsbD (i + 1) := by rw [hshift]
    rwa [getLsbD_shiftLeft_succ hlast, getLsbD_shiftLeft_succ hlast] at hbit
  · have htop : i = n - 1 := by omega
    subst htop
    rw [← BitVec.msb_eq_getLsbD_last, ← BitVec.msb_eq_getLsbD_last, hmsb]

theorem shift_xor (crc crc' : BitVec n) : shift poly (crc ^^^ crc') = shift poly crc ^^^ shift poly crc' := by
  have hcancel : ∀ a b : BitVec n, a ^^^ b = a ^^^ poly ^^^ (b ^^^ poly) := by
    intro a b
    rw [BitVec.xor_assoc a, ← BitVec.xor_assoc poly, BitVec.xor_comm poly, BitVec.xor_assoc b, BitVec.xor_self, BitVec.xor_zero]
  unfold shift
  rw [BitVec.msb_xor, BitVec.shiftLeft_xor_distrib]
  cases crc.msb <;> cases crc'.msb
  · rfl
  · exact BitVec.xor_assoc _ _ _
  · show crc <<< 1 ^^^ crc' <<< 1 ^^^ poly = crc <<< 1 ^^^ poly ^^^ crc' <<< 1
    rw [BitVec.xor_assoc, BitVec.xor_comm (crc' <<< 1), ← BitVec.xor_assoc]
  · exact hcancel _ _

theorem shift_top (hn : 0 < n) : shift poly (BitVec.twoPow n (n - 1)) = poly := by
  have hmsb : (BitVec.twoPow n (n - 1)).msb = true := by
    rw [BitVec.msb_eq_getLsbD_last, BitVec.getLsbD_twoPow, decide_eq_true (by omega), decide_eq_true rfl]
    rfl
  have hshift : BitVec.twoPow n (n - 1) <<< 1 = 0#n := by
    apply BitVec.eq_of_getLsbD_eq
    intro i hi
    simp only [BitVec.getLsbD_shiftLeft, BitVec.getLsbD_twoPow, BitVec.getLsbD_zero, Bool.and_eq_false_iff, Bool.not_eq_false',
      decide_eq_false_iff_not, decide_eq_true_eq]
    omega
  unfold shift
  rw [if_pos hmsb, hshift, BitVec.zero_xor]

/-- A bit of the message is added to the top bit. -/
theorem step_eq (hn : 0 < n) (b : Bool) :
    step poly crc b = shift poly (crc ^^^ if b then BitVec.twoPow n (n - 1) else 0#n) := by
  cases b with
  | false => simp [step]
  | true => simp [step, shift_xor, shift_top hn]

/-- The first bits of a message stand at the top of its block. -/
theorem block_getLsbD (bits : List Bool) {i : Nat} (hi : i < n) :
    (block bits : BitVec n).getLsbD i = bits.getD (n - 1 - i) false := by
  induction bits generalizing i with
  | nil => simp [block]
  | cons b bits ih =>
    rw [block, BitVec.getLsbD_xor, BitVec.getLsbD_ushiftRight, Nat.add_comm 1 i]
    by_cases htop : i = n - 1
    · subst htop
      rw [BitVec.getLsbD_of_ge (block bits) (n - 1 + 1) (by omega), Bool.xor_false, Nat.sub_self, List.getD_cons_zero]
      cases b with
      | false => simp
      | true => simpa [BitVec.getLsbD_twoPow] using hi
    · rw [ih (by omega), show n - 1 - i = n - 1 - (i + 1) + 1 by omega, List.getD_cons_succ]
      cases b with
      | false => simp
      | true => simp [BitVec.getLsbD_twoPow, Ne.symm htop]

/-- A block that leaves the lowest bit free is a shift of what follows. -/
theorem shift_block (hlen : bits.length < n) : shift poly (block bits >>> 1) = block bits := by
  have hmsb : (block bits >>> 1 : BitVec n).msb = false := by
    rw [BitVec.msb_eq_getLsbD_last, BitVec.getLsbD_ushiftRight, BitVec.getLsbD_of_ge _ _ (by omega)]
  unfold shift
  rw [hmsb, if_neg Bool.false_ne_true]
  apply BitVec.eq_of_getLsbD_eq
  intro i hi
  cases i with
  | zero =>
    rw [block_getLsbD bits hi, List.getD_eq_getElem?_getD, List.getElem?_eq_none (by omega)]
    simp
  | succ i =>
    rw [getLsbD_shiftLeft_succ hi, BitVec.getLsbD_ushiftRight, Nat.add_comm]

/-- A block of bits is added to the remainder at once. -/
theorem feed_eq (hlen : bits.length ≤ n) : feed poly crc bits = (shift poly)^[bits.length] (crc ^^^ block bits) := by
  induction bits generalizing crc with
  | nil => simp [block]
  | cons b bits ih =>
    rw [List.length_cons] at hlen ⊢
    rw [feed_cons, ih (by omega), step_eq (by omega), Function.iterate_succ_apply]
    congr 1
    rw [block, ← BitVec.xor_assoc, shift_xor _ (block bits >>> 1), shift_block (by omega)]

theorem block_injective (hlen : bits.length ≤ n) (heq : bits.length = bits'.length) (h : (block bits : BitVec n) = block bits') :
    bits = bits' := by
  refine List.ext_getElem heq fun i hi hi' => ?_
  have hbit := block_getLsbD (n := n) bits (i := n - 1 - i) (by omega)
  rw [h, block_getLsbD (n := n) bits' (by omega), show n - 1 - (n - 1 - i) = i by omega] at hbit
  simpa [hi, hi'] using hbit.symm

theorem feed_left_injective (hpoly : poly.getLsbD 0 = true) (h : feed poly crc bits = feed poly crc' bits) : crc = crc' := by
  induction bits generalizing crc crc' with
  | nil => exact h
  | cons b bits ih =>
    have hstep := ih h
    cases b with
    | false => exact shift_injective hpoly hstep
    | true => exact shift_injective hpoly (BitVec.xor_left_inj poly |>.mp hstep)

/-- A block that is no longer than the remainder is read back from it. -/
theorem feed_injective (hpoly : poly.getLsbD 0 = true) (hlen : bits.length ≤ n) (heq : bits.length = bits'.length)
    (h : feed poly crc bits = feed poly crc bits') : bits = bits' := by
  rw [feed_eq hlen, feed_eq (heq ▸ hlen), ← heq] at h
  have hinj : Function.Injective ((shift poly)^[bits.length]) := Function.Injective.iterate (fun _ _ => shift_injective hpoly) _
  exact block_injective hlen heq (BitVec.xor_right_inj crc |>.mp (hinj h))

/-- Messages that differ in one such block at most have the same remainder only if they are the same. -/
theorem feed_burst (hpoly : poly.getLsbD 0 = true) {front back : List Bool} (hlen : bits.length ≤ n)
    (heq : bits.length = bits'.length) :
    feed poly crc (front ++ bits ++ back) = feed poly crc (front ++ bits' ++ back) ↔ bits = bits' := by
  constructor
  · intro h
    simp only [feed_append] at h
    exact feed_injective hpoly hlen heq (feed_left_injective hpoly h)
  · rintro rfl
    rfl

end Crc
