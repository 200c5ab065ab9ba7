import Mathlib.Algebra.Group.Nat.Defs
import Mathlib.Data.Nat.Log
import Mathlib.Data.Nat.ModEq
import Mathlib.Order.Bounds.Basic
import RegisterBank.Arithmetic.Block

/-!
# Rounding to block boundaries

`Block.floor` is the greatest boundary at or before a number (`isGreatest_floor`). `Block.ceil?` is
the least boundary at or after a number, whenever that boundary is a 64-bit quantity;
`ceil?_eq_some_iff` says both at once. The boundary itself, without the bound, is
`isLeast_boundary`. The exponent of the least block that holds a number of bytes is the rounded-up
logarithm of the library (`ceilLog2_eq`), so it is at most `k` exactly if the number is at most
`2 ^ k` (`ceilLog2_le_iff`).
-/

namespace RegisterBank.Block

theorem ceilLog2_eq (n : Nat) : ceilLog2 n = Nat.clog 2 n := by
  unfold ceilLog2
  split
  · rename_i hn
    exact (Nat.clog_of_right_le_one hn 2).symm
  · rename_i hn
    have hne : n - 1 ≠ 0 := by omega
    have hlow : 2 ^ Nat.log2 (n - 1) ≤ n - 1 := Nat.log2_self_le hne
    have hhigh : n - 1 < 2 ^ (Nat.log2 (n - 1) + 1) := Nat.lt_log2_self
    apply Nat.le_antisymm
    · rw [Nat.succ_le_iff, Nat.lt_clog_iff_pow_lt (by decide)]
      omega
    · rw [Nat.clog_le_iff_le_pow (by decide)]
      omega

theorem ceilLog2_le_iff {n k : Nat} : ceilLog2 n ≤ k ↔ n ≤ 2 ^ k := by
  rw [ceilLog2_eq, Nat.clog_le_iff_le_pow (by decide)]

theorem isLeast_ceilLog2 (n : Nat) : IsLeast {k | n ≤ 2 ^ k} (ceilLog2 n) :=
  ⟨ceilLog2_le_iff.1 le_rfl, fun _ hk => ceilLog2_le_iff.2 hk⟩

theorem ceilLog2_mono {m n : Nat} (h : m ≤ n) : ceilLog2 m ≤ ceilLog2 n := by
  rw [ceilLog2_eq, ceilLog2_eq]
  exact Nat.clog_mono_right 2 h

theorem ceilLog2_two_pow (k : Nat) : ceilLog2 (2 ^ k) = k := by
  rw [ceilLog2_eq, Nat.clog_pow 2 k (by decide)]

theorem floor_eq (n k : Nat) : floor n k = n / 2 ^ k * 2 ^ k := by
  rw [floor, Nat.shiftLeft_eq, Nat.shiftRight_eq_div_pow]

theorem dvd_floor (n k : Nat) : 2 ^ k ∣ floor n k := by
  rw [floor_eq]
  exact Nat.dvd_mul_left _ _

/-- A boundary comes no later than the one before a number if it comes no later than the number. -/
theorem le_floor_iff {m n k : Nat} (hm : 2 ^ k ∣ m) : m ≤ floor n k ↔ m ≤ n := by
  have hpos : 0 < 2 ^ k := Nat.two_pow_pos k
  obtain ⟨c, rfl⟩ := hm
  rw [floor_eq, Nat.mul_comm, Nat.mul_le_mul_right_iff hpos, Nat.le_div_iff_mul_le hpos]

theorem isGreatest_floor (n k : Nat) : IsGreatest {m | 2 ^ k ∣ m ∧ m ≤ n} (floor n k) :=
  ⟨⟨dvd_floor n k, (le_floor_iff (dvd_floor n k)).1 le_rfl⟩, fun _ hm => (le_floor_iff hm.1).2 hm.2⟩

theorem floor_le (n k : Nat) : floor n k ≤ n :=
  (isGreatest_floor n k).1.2

theorem floor_mono {m n : Nat} (h : m ≤ n) (k : Nat) : floor m k ≤ floor n k :=
  (le_floor_iff (dvd_floor m k)).2 ((floor_le m k).trans h)

/-- What a mask cuts off is the remainder. -/
theorem sub_floor (n k : Nat) : n - floor n k = n % 2 ^ k := by
  rw [floor_eq, Nat.mod_eq_sub_div_mul]

/-- The lane of a byte is its distance from the boundary of its word, counted in bits. -/
theorem laneBit_two_pow (n k : Nat) : laneBit n (2 ^ k) = 8 * (n - floor n k) := by
  rw [laneBit, sub_floor]

/-- Of two powers of two the smaller one divides the greater one. -/
theorem dvd_of_le {m n : Nat} (hm : ∃ j, m = 2 ^ j) (hn : ∃ k, n = 2 ^ k) (h : m ≤ n) : m ∣ n := by
  obtain ⟨j, rfl⟩ := hm
  obtain ⟨k, rfl⟩ := hn
  exact Nat.pow_dvd_pow 2 ((Nat.pow_le_pow_iff_right (by decide)).1 h)

/-- A part of `n` bytes at a multiple of `n` does not reach over the end of a word that is cut into
such parts. -/
theorem mod_add_le {a n size : Nat} (hsize : 0 < size) (ha : n ∣ a) (hn : n ∣ size) :
    a % size + n ≤ size := by
  obtain ⟨c, hc⟩ : n ∣ a % size := (Nat.dvd_mod_iff hn).2 ha
  obtain ⟨d, rfl⟩ := hn
  have hlt : n * c < n * d := by
    rw [← hc]
    exact Nat.mod_lt a hsize
  rw [hc, ← Nat.mul_succ]
  exact Nat.mul_le_mul_left n (Nat.lt_of_mul_lt_mul_left hlt)

/-- Two bytes are in the same lane of their words if and only if whole words lie between them. -/
theorem laneBit_add_eq_iff {a n size : Nat} : laneBit (a + n) size = laneBit a size ↔ size ∣ n := by
  have hlane : laneBit (a + n) size = laneBit a size ↔ a + n ≡ a + 0 [MOD size] :=
    Nat.mul_right_inj (by decide)
  rw [hlane, Nat.ModEq.add_iff_left (Nat.ModEq.refl a), Nat.modEq_zero_iff_dvd]

/-- The boundaries of `2 ^ k`-byte blocks at or after `n`. -/
def boundaries (n k : Nat) : Set Nat :=
  {m | 2 ^ k ∣ m ∧ n ≤ m}

theorem isLeast_boundary (n k : Nat) :
    IsLeast (boundaries n k) ((n + (2 ^ k - 1)) / 2 ^ k * 2 ^ k) := by
  have hpos : 0 < 2 ^ k := Nat.two_pow_pos k
  constructor
  · refine ⟨Nat.dvd_mul_left _ _, ?_⟩
    have hrem : (n + (2 ^ k - 1)) % 2 ^ k < 2 ^ k := Nat.mod_lt _ hpos
    have hdiv := Nat.div_add_mod' (n + (2 ^ k - 1)) (2 ^ k)
    omega
  · rintro m ⟨⟨c, rfl⟩, hle⟩
    rw [Nat.mul_comm (2 ^ k) c]
    apply Nat.mul_le_mul_right
    apply Nat.le_of_lt_succ
    rw [Nat.div_lt_iff_lt_mul hpos, Nat.succ_mul, Nat.mul_comm c]
    omega

theorem ceil?_of_isLeast {n k m : Nat} (hk : k < 64) (hm : IsLeast (boundaries n k) m) :
    ceil? n k = if m < 2 ^ 64 then some m else none := by
  have hboundary := (isLeast_boundary n k).unique hm
  simp only [ceil?, Nat.one_shiftLeft, hk, if_true, hboundary]
  rfl

theorem ceil?_eq_none {n k : Nat} (hk : 64 ≤ k) : ceil? n k = none :=
  if_neg (not_lt.2 hk)

/-- Rounding up gives the least boundary, exactly when the block is one of 64-bit addresses and the
boundary is a 64-bit address itself. -/
theorem ceil?_eq_some_iff {n k m : Nat} :
    ceil? n k = some m ↔ k < 64 ∧ m < 2 ^ 64 ∧ IsLeast (boundaries n k) m := by
  constructor
  · intro h
    by_cases hk : k < 64
    · have hleast := isLeast_boundary n k
      rw [ceil?_of_isLeast hk hleast, Option.ite_none_right_eq_some, Option.some.injEq] at h
      obtain ⟨hlt, rfl⟩ := h
      exact ⟨hk, hlt, hleast⟩
    · rw [ceil?_eq_none (not_lt.1 hk)] at h
      cases h
  · rintro ⟨hk, hlt, hm⟩
    rw [ceil?_of_isLeast hk hm, if_pos hlt]

/-- A smaller number has a boundary where a greater one has, and it comes no later. -/
theorem exists_ceil?_of_le {m n k found : Nat} (hle : m ≤ n) (h : ceil? n k = some found) :
    ∃ earlier, ceil? m k = some earlier ∧ earlier ≤ found := by
  obtain ⟨hk, hlt, hfound⟩ := ceil?_eq_some_iff.1 h
  have hleast := isLeast_boundary m k
  have hbefore : (m + (2 ^ k - 1)) / 2 ^ k * 2 ^ k ≤ found :=
    hleast.2 ⟨hfound.1.1, hle.trans hfound.1.2⟩
  exact ⟨_, ceil?_eq_some_iff.2 ⟨hk, hbefore.trans_lt hlt, hleast⟩, hbefore⟩

end RegisterBank.Block
