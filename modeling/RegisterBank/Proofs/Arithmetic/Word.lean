import Mathlib.Algebra.Order.Ring.Int
import Mathlib.Data.Int.Bitwise
import RegisterBank.Arithmetic.Word

/-!
# Words and unbounded integers

The operations on words are the operations of the same name on the integers, with one exception. An
operation that checks its result has an answer exactly if the integer is a word. The bit operations
never leave the words. A shift to the left does leave them, and then its answer differs from the
integer (`shiftLeft_eq_iff`).
-/

namespace RegisterBank.Word

variable {a b v : Int} {m n s : Nat}

/-! ## The range -/

theorem inRange_natCast : InRange (n : Int) ↔ n < 2 ^ 63 := by
  unfold InRange least greatest
  omega

theorem inRange_negSucc : InRange (Int.negSucc n) ↔ n < 2 ^ 63 := by
  unfold InRange least greatest
  omega

theorem check?_eq_some_iff : check? a = some v ↔ InRange a ∧ a = v := by
  rw [check?, Option.ite_none_right_eq_some, Option.some.injEq]

theorem toInt_ofInt (h : InRange a) : (BitVec.ofInt 64 a).toInt = a := by
  unfold InRange least greatest at h
  apply BitVec.toInt_ofInt_eq_self (by decide) <;> omega

theorem inRange_toInt (x : BitVec 64) : InRange x.toInt := by
  have hlow := BitVec.le_toInt x
  have hhigh := BitVec.toInt_lt (x := x)
  unfold InRange least greatest
  omega

/-! ## Bit operations -/

theorem inRange_natBitwise (f : Bool → Bool → Bool) (hm : m < 2 ^ 63) (hn : n < 2 ^ 63) :
    InRange (Int.natBitwise f m n) := by
  unfold Int.natBitwise
  cases f false false with
  | false => exact inRange_natCast.2 (Nat.bitwise_lt_two_pow hm hn)
  | true => exact inRange_negSucc.2 (Nat.bitwise_lt_two_pow hm hn)

theorem inRange_bitwise (f : Bool → Bool → Bool) (ha : InRange a) (hb : InRange b) :
    InRange (Int.bitwise f a b) := by
  cases a with
  | ofNat m =>
      have hm := inRange_natCast.1 ha
      cases b with
      | ofNat n => exact inRange_natBitwise _ hm (inRange_natCast.1 hb)
      | negSucc n =>
          exact inRange_natBitwise (fun x y => f x (!y)) hm (inRange_negSucc.1 hb)
  | negSucc m =>
      have hm := inRange_negSucc.1 ha
      cases b with
      | ofNat n =>
          exact inRange_natBitwise (fun x y => f (!x) y) hm (inRange_natCast.1 hb)
      | negSucc n =>
          exact inRange_natBitwise (fun x y => f (!x) (!y)) hm (inRange_negSucc.1 hb)

theorem getLsbD_ofInt {i : Nat} (hi : i < 64) (a : Int) :
    (BitVec.ofInt 64 a).getLsbD i = a.testBit i := by
  cases a with
  | ofNat m =>
      change (BitVec.ofNat 64 m).getLsbD i = m.testBit i
      rw [BitVec.getLsbD_ofNat, decide_eq_true hi, Bool.true_and]
  | negSucc m =>
      rw [BitVec.ofInt_negSucc_eq_not_ofNat, BitVec.getLsbD_not, BitVec.getLsbD_ofNat,
        decide_eq_true hi, Bool.true_and, Bool.true_and]
      rfl

/-- A word with the bits of an integer in range is that integer. -/
theorem toInt_eq_of_bits {x : BitVec 64} (hv : InRange v)
    (h : ∀ i < 64, x.getLsbD i = v.testBit i) : x.toInt = v := by
  have hx : x = BitVec.ofInt 64 v := by
    apply BitVec.eq_of_getLsbD_eq
    intro i hi
    rw [h i hi, getLsbD_ofInt hi]
  rw [hx, toInt_ofInt hv]

theorem bitAnd_eq (ha : InRange a) (hb : InRange b) : bitAnd a b = Int.land a b := by
  have hrange : InRange (Int.land a b) := by
    rw [← Int.bitwise_and]
    exact inRange_bitwise and ha hb
  refine toInt_eq_of_bits hrange fun i hi => ?_
  rw [BitVec.getLsbD_and, getLsbD_ofInt hi, getLsbD_ofInt hi, Int.testBit_land]

theorem bitOr_eq (ha : InRange a) (hb : InRange b) : bitOr a b = Int.lor a b := by
  have hrange : InRange (Int.lor a b) := by
    rw [← Int.bitwise_or]
    exact inRange_bitwise or ha hb
  refine toInt_eq_of_bits hrange fun i hi => ?_
  rw [BitVec.getLsbD_or, getLsbD_ofInt hi, getLsbD_ofInt hi, Int.testBit_lor]

theorem bitXor_eq (ha : InRange a) (hb : InRange b) : bitXor a b = Int.xor a b := by
  have hrange : InRange (Int.xor a b) := by
    rw [← Int.bitwise_xor]
    exact inRange_bitwise xor ha hb
  refine toInt_eq_of_bits hrange fun i hi => ?_
  rw [BitVec.getLsbD_xor, getLsbD_ofInt hi, getLsbD_ofInt hi, Int.testBit_lxor]

theorem bitNot_eq (ha : InRange a) : bitNot a = Int.lnot a := by
  have hrange : InRange (Int.lnot a) := by
    cases a with
    | ofNat m => exact inRange_negSucc.2 (inRange_natCast.1 ha)
    | negSucc m => exact inRange_natCast.2 (inRange_negSucc.1 ha)
  refine toInt_eq_of_bits hrange fun i hi => ?_
  rw [BitVec.getLsbD_not, getLsbD_ofInt hi, Int.testBit_lnot, decide_eq_true hi, Bool.true_and]

/-! ## Shifts -/

theorem shiftRight_eq (ha : InRange a) (s : Nat) : shiftRight a s = a.fdiv (2 ^ s) := by
  have hpow : (0 : Int) ≤ 2 ^ s := pow_nonneg (by decide) s
  rw [shiftRight, BitVec.toInt_sshiftRight, toInt_ofInt ha, Int.shiftRight_eq_div_pow,
    Int.fdiv_eq_ediv_of_nonneg a hpow, Nat.cast_pow, Nat.cast_two]

/-- A shift to the left keeps the low bits of the product. -/
theorem shiftLeft_eq (a : Int) (s : Nat) : shiftLeft a s = (a * 2 ^ s).bmod (2 ^ 64) := by
  have hmod : ((a % (2 ^ 64 : Nat)).toNat : Int) = a % (2 ^ 64 : Nat) :=
    Int.toNat_of_nonneg (Int.emod_nonneg a (by decide))
  rw [shiftLeft, BitVec.toInt_shiftLeft, Nat.shiftLeft_eq, Nat.cast_mul, Nat.cast_pow,
    Nat.cast_two, BitVec.toNat_ofInt, hmod, Int.emod_mul_bmod]

/-- A shift to the left is exact if and only if the product is a word. -/
theorem shiftLeft_eq_iff : shiftLeft a s = a * 2 ^ s ↔ InRange (a * 2 ^ s) := by
  constructor
  · intro h
    rw [← h]
    exact inRange_toInt _
  · intro h
    rw [shiftLeft_eq, ← BitVec.toInt_ofInt, toInt_ofInt h]

/-! ## Powers -/

/-- The powers of a number of magnitude at most one repeat with period two. -/
theorem pow_mod_two_add_two (ha : a.natAbs ≤ 1) (hn : n ≠ 0) : a ^ (n % 2 + 2) = a ^ n := by
  obtain rfl | rfl | rfl : a = 0 ∨ a = 1 ∨ a = -1 := by omega
  · rw [zero_pow hn, zero_pow (Nat.succ_ne_zero _)]
  · rw [one_pow, one_pow]
  · rw [pow_add, neg_one_pow_eq_pow_mod_two n, neg_one_sq, mul_one]

theorem not_inRange_pow (ha : 2 ≤ a.natAbs) (hn : 64 ≤ n) : ¬ InRange (a ^ n) := by
  have hpow : 2 ^ 64 ≤ (a ^ n).natAbs := by
    rw [Int.natAbs_pow]
    calc
      2 ^ 64 ≤ 2 ^ n := Nat.pow_le_pow_right (by decide) hn
      _ ≤ a.natAbs ^ n := Nat.pow_le_pow_left ha n
  unfold InRange least greatest
  omega

/-- The power is found exactly if it is a word. -/
theorem pow?_eq_some_iff : pow? a n = some v ↔ InRange (a ^ n) ∧ a ^ n = v := by
  simp only [pow?, Int.pow_eq]
  split
  · exact check?_eq_some_iff
  · rename_i hn
    split
    · rename_i ha
      rw [pow_mod_two_add_two ha (by omega)]
      exact check?_eq_some_iff
    · rename_i ha
      have hnot := not_inRange_pow (n := n) (Nat.lt_of_not_le ha) (Nat.le_of_not_lt hn)
      simp [hnot]

end RegisterBank.Word
