import RegisterBank.Proofs.Arithmetic.Block

/-!
# Block arithmetic in machine words

The numbers of the compiler have no bound, those of a machine are words of 32 or 64 bits. An
operation of this file has no answer where a machine would go wrong: where the exact result is not
a word, where it would divide by zero, and where it would shift by the width of the word or more.
The operations on blocks are written out in these, with the masks and the leading zeros that a
machine computes them from; on words they give what `Block` defines, and this is the least or the
greatest number of its kind (`roundings_exact`).
-/

namespace RegisterBank.Machine

/-! ## Operations on words -/

/-- The number itself, when a word of so many bits holds it. -/
def word? (bits n : Nat) : Option Nat :=
  if n < 2 ^ bits then some n else none

/-- An integer as a word without a sign. -/
def unsigned? (bits : Nat) (v : Int) : Option Nat :=
  if 0 ≤ v then word? bits v.toNat else none

def add? (bits a b : Nat) : Option Nat :=
  word? bits (a + b)

def sub? (a b : Nat) : Option Nat :=
  if b ≤ a then some (a - b) else none

def mul? (bits a b : Nat) : Option Nat :=
  word? bits (a * b)

def div? (a b : Nat) : Option Nat :=
  if b = 0 then none else some (a / b)

def mod? (a b : Nat) : Option Nat :=
  if b = 0 then none else some (a % b)

/-- A shift to the left by which no bit leaves the word. -/
def shiftLeft? (bits a k : Nat) : Option Nat :=
  if k < bits then word? bits (a <<< k) else none

def shiftRight? (bits a k : Nat) : Option Nat :=
  if k < bits then some (a >>> k) else none

/-- The zeros before the first one of a word of 64 bits. -/
def leadingZeros (n : Nat) : Nat :=
  (BitVec.ofNat 64 n).clz.toNat

/-- The bits of a word of 64 bits that are not in a mask. -/
def clear (n mask : Nat) : Nat :=
  (BitVec.ofNat 64 n &&& ~~~ BitVec.ofNat 64 mask).toNat

/-- An operation that goes well, and what is made of its result. -/
theorem step_eq {α β : Type} {x : Option α} {a : α} {f : α → Option β} {z : Option β}
    (hx : x = some a) (hf : f a = z) : (x >>= f) = z := by
  subst hx
  exact hf

/-- Operations on the members of a list that all go well. -/
theorem mapM_eq_some_map {α β : Type} {f : α → Option β} {g : α → β} {xs : List α}
    (h : ∀ x ∈ xs, f x = some (g x)) : xs.mapM f = some (xs.map g) := by
  induction xs with
  | nil => rfl
  | cons x xs ih =>
      rw [List.forall_mem_cons] at h
      rw [List.mapM_cons, h.1, ih h.2]
      rfl

section

variable {bits n a b k : Nat} {v : Int}

theorem word?_eq (h : n < 2 ^ bits) : word? bits n = some n :=
  if_pos h

theorem unsigned?_eq (hnonneg : 0 ≤ v) (h : v < 2 ^ bits) : unsigned? bits v = some v.toNat := by
  rw [unsigned?, if_pos hnonneg, word?_eq]
  rw [Int.toNat_lt hnonneg]
  exact_mod_cast h

theorem unsigned?_eq_none (h : ¬ (0 ≤ v ∧ v < 2 ^ bits)) : unsigned? bits v = none := by
  rw [unsigned?]
  split
  · rename_i hnonneg
    refine if_neg fun hword => h ⟨hnonneg, ?_⟩
    rw [Int.toNat_lt hnonneg] at hword
    exact_mod_cast hword
  · rfl

theorem add?_eq (h : a + b < 2 ^ bits) : add? bits a b = some (a + b) :=
  word?_eq h

theorem sub?_eq (h : b ≤ a) : sub? a b = some (a - b) :=
  if_pos h

theorem mul?_eq (h : a * b < 2 ^ bits) : mul? bits a b = some (a * b) :=
  word?_eq h

theorem div?_eq (h : 0 < b) : div? a b = some (a / b) :=
  if_neg h.ne'

theorem mod?_eq (h : 0 < b) : mod? a b = some (a % b) :=
  if_neg h.ne'

theorem shiftLeft?_one_eq (hk : k < bits) : shiftLeft? bits 1 k = some (1 <<< k) := by
  rw [shiftLeft?, if_pos hk, word?_eq]
  rw [Nat.one_shiftLeft]
  exact Nat.pow_lt_pow_right (by decide) hk

theorem shiftLeft?_eq_none (hk : bits ≤ k) : shiftLeft? bits a k = none :=
  if_neg (not_lt.2 hk)

/-- Nothing is left of a word that is moved to the right by its width or more. -/
theorem all_shiftRight? (ha : a < 2 ^ 64) :
    (shiftRight? 64 a k).all (· == 0) = (a >>> k == 0) := by
  rw [shiftRight?]
  split
  · rfl
  · rename_i hk
    have hle : 2 ^ 64 ≤ 2 ^ k := Nat.pow_le_pow_right (by decide) (not_lt.1 hk)
    rw [Nat.shiftRight_eq_div_pow, Nat.div_eq_of_lt (ha.trans_le hle)]
    rfl

/-- The first one of a word stands where its logarithm says. -/
theorem leadingZeros_add_log2 (hne : n ≠ 0) (hn : n < 2 ^ 64) :
    leadingZeros n + (Nat.log2 n + 1) = 64 := by
  have hword : (BitVec.ofNat 64 n).toNat = n := by
    rw [BitVec.toNat_ofNat, Nat.mod_eq_of_lt hn]
  have hzero : BitVec.ofNat 64 n ≠ 0#64 := by
    intro h
    rw [h] at hword
    exact hne hword.symm
  have hless : leadingZeros n < 64 := BitVec.lt_def.1 (BitVec.clz_lt_iff_ne_zero.2 hzero)
  have hlow : 2 ^ (64 - 1 - leadingZeros n) ≤ n :=
    (BitVec.two_pow_sub_clz_le_toNat_of_ne_zero (by decide) hzero).trans_eq hword
  have hhigh : n < 2 ^ (64 - leadingZeros n) :=
    hword.symm.trans_lt BitVec.toNat_lt_two_pow_sub_clz
  have hlog : Nat.log2 n = 64 - 1 - leadingZeros n := by
    rw [Nat.log2_eq_iff hne]
    refine ⟨hlow, ?_⟩
    rwa [show 64 - 1 - leadingZeros n + 1 = 64 - leadingZeros n by omega]
  omega

/-- The mask of the `k` low bits cuts a word down to the boundary of its block. -/
theorem clear_eq (hn : n < 2 ^ 64) (hk : k < 64) : clear n (2 ^ k - 1) = Block.floor n k := by
  apply Nat.eq_of_testBit_eq
  intro i
  rw [clear, Block.floor, BitVec.testBit_toNat, BitVec.getLsbD_and, BitVec.getLsbD_not,
    BitVec.getLsbD_ofNat, BitVec.getLsbD_ofNat, Nat.testBit_shiftLeft, Nat.testBit_shiftRight,
    Nat.testBit_two_pow_sub_one]
  by_cases hi : i < 64
  · by_cases hki : k ≤ i
    · simp [hi, hki]
    · simp [hi, hki, Nat.lt_of_not_le hki]
  · have hhigh : n.testBit i = false :=
      Nat.testBit_lt_two_pow (hn.trans_le (Nat.pow_le_pow_right (by decide) (not_lt.1 hi)))
    have hki : k ≤ i := by omega
    simp [hi, hki, hhigh]

end

/-! ## Operations on blocks -/

/-- The quotient, one more when there is a remainder. -/
def divCeil? (a b : Nat) : Option Nat := do
  let quotient ← div? a b
  let rest ← mod? a b
  if 0 < rest then add? 64 quotient 1 else some quotient

def ceilLog2? (n : Nat) : Option Nat :=
  if n ≤ 1 then some 0
  else do
    let last ← sub? n 1
    sub? 64 (leadingZeros last)

def floor? (n k : Nat) : Option Nat := do
  let block ← shiftLeft? 64 1 k
  let mask ← sub? block 1
  some (clear n mask)

/-- The next boundary. That there is none is an answer too: the size of the block and the product
are checked before they are used. -/
def ceil? (n k : Nat) : Option (Option Nat) :=
  match shiftLeft? 64 1 k with
  | none => some none
  | some block => do
    let blocks ← divCeil? n block
    some (mul? 64 blocks block)

def laneBit? (n bytes : Nat) : Option Nat := do
  let place ← mod? n bytes
  mul? 64 8 place

section

variable {a b n k bytes : Nat}

theorem div_add_one_of_mod_pos (hb : 0 < b) (h : 0 < a % b) : a / b + 1 = (a + (b - 1)) / b := by
  have hdiv := Nat.div_add_mod a b
  have hrest : a % b - 1 < b := (Nat.sub_le _ _).trans_lt (Nat.mod_lt a hb)
  have hsplit : a + (b - 1) = b * (a / b + 1) + (a % b - 1) := by
    rw [Nat.mul_succ]
    omega
  rw [hsplit, Nat.mul_add_div hb, Nat.div_eq_of_lt hrest, Nat.add_zero]

theorem div_of_mod_eq_zero (hb : 0 < b) (h : a % b = 0) : a / b = (a + (b - 1)) / b := by
  have hdiv := Nat.div_add_mod a b
  have hsplit : a + (b - 1) = b * (a / b) + (b - 1) := by omega
  rw [hsplit, Nat.mul_add_div hb, Nat.div_eq_of_lt (by omega : b - 1 < b), Nat.add_zero]

theorem divCeil?_eq (ha : a < 2 ^ 64) (hb : 0 < b) : divCeil? a b = some ((a + (b - 1)) / b) := by
  refine step_eq (div?_eq hb) (step_eq (mod?_eq hb) ?_)
  split
  · rename_i hrest
    -- A remainder is left, so the quotient is not the greatest word.
    have hless : a / b < a := by
      have hdiv := Nat.div_add_mod a b
      have hone : 1 * (a / b) ≤ b * (a / b) := Nat.mul_le_mul_right _ hb
      omega
    rw [add?_eq (by omega), div_add_one_of_mod_pos hb hrest]
  · rename_i hrest
    rw [div_of_mod_eq_zero hb (by omega)]

theorem ceilLog2?_eq (hn : n < 2 ^ 64) : ceilLog2? n = some (Block.ceilLog2 n) := by
  unfold ceilLog2? Block.ceilLog2
  split
  · rfl
  · rename_i hmany
    have hzeros := leadingZeros_add_log2 (n := n - 1) (by omega) (by omega)
    refine step_eq (sub?_eq (by omega)) ?_
    rw [sub?_eq (by omega)]
    exact congrArg some (by omega)

theorem floor?_eq (hn : n < 2 ^ 64) (hk : k < 64) : floor? n k = some (Block.floor n k) := by
  refine step_eq (shiftLeft?_one_eq hk) ?_
  rw [Nat.one_shiftLeft]
  refine step_eq (sub?_eq Nat.one_le_two_pow) ?_
  rw [clear_eq hn hk]

theorem ceil?_eq (hn : n < 2 ^ 64) : ceil? n k = some (Block.ceil? n k) := by
  unfold ceil? Block.ceil?
  by_cases hk : k < 64
  · have hpos : 0 < 1 <<< k := by
      rw [Nat.one_shiftLeft]
      exact Nat.two_pow_pos k
    rw [shiftLeft?_one_eq hk, if_pos hk]
    exact step_eq (divCeil?_eq hn hpos) rfl
  · rw [shiftLeft?_eq_none (not_lt.1 hk), if_neg hk]

theorem laneBit?_eq_of_lt (hbytes : 0 < bytes) (h : 8 * (n % bytes) < 2 ^ 64) :
    laneBit? n bytes = some (Block.laneBit n bytes) :=
  step_eq (mod?_eq hbytes) (mul?_eq h)

theorem laneBit?_eq (hbytes : 0 < bytes) (hn : 8 * n < 2 ^ 64) :
    laneBit? n bytes = some (Block.laneBit n bytes) := by
  have hle : n % bytes ≤ n := Nat.mod_le n bytes
  exact laneBit?_eq_of_lt hbytes (by omega)

/-- In a bus word of up to `2 ^ 60` bytes the first bit of every byte is a word. -/
theorem laneBit?_two_pow_eq (hk : k ≤ 60) :
    laneBit? n (2 ^ k) = some (Block.laneBit n (2 ^ k)) := by
  have hpos : 0 < 2 ^ k := Nat.two_pow_pos k
  have hrest : n % 2 ^ k < 2 ^ k := Nat.mod_lt n hpos
  have hsize : 2 ^ k ≤ 2 ^ 60 := Nat.pow_le_pow_right (by decide) hk
  exact laneBit?_eq_of_lt hpos (by omega)

end

/-! ## Exactness -/

/-- On machine words the operations on blocks are exact, and none of them goes wrong. The logarithm
is the exponent of the least block that holds `n` bytes. Rounding down gives the last boundary at
or before `n`, and rounding up the first one at or after it, which is missing only where it is not
a word. The lane of a byte is its distance from the boundary of its bus word. A number before `n`
has a next boundary if `n` has one, and it comes no later. -/
theorem roundings_exact {n : Nat} (hn : n < 2 ^ 64) :
    (ceilLog2? n = some (Block.ceilLog2 n) ∧ IsLeast {k | n ≤ 2 ^ k} (Block.ceilLog2 n)) ∧
    (∀ k < 64, floor? n k = some (Block.floor n k) ∧
      IsGreatest {m | 2 ^ k ∣ m ∧ m ≤ n} (Block.floor n k)) ∧
    (∀ k, ceil? n k = some (Block.ceil? n k)) ∧
    (∀ k < 64, ∃ m, IsLeast {m | 2 ^ k ∣ m ∧ n ≤ m} m ∧
      Block.ceil? n k = if m < 2 ^ 64 then some m else none) ∧
    (∀ k ≥ 64, Block.ceil? n k = none) ∧
    (∀ k ≤ 60, laneBit? n (2 ^ k) = some (Block.laneBit n (2 ^ k)) ∧
      8 * (n - Block.floor n k) = Block.laneBit n (2 ^ k)) ∧
    ∀ m ≤ n, ∀ k found, Block.ceil? n k = some found →
      ∃ earlier, Block.ceil? m k = some earlier ∧ earlier ≤ found := by
  refine ⟨⟨ceilLog2?_eq hn, Block.isLeast_ceilLog2 n⟩, ?_, fun k => ceil?_eq hn, ?_,
    fun k => Block.ceil?_eq_none, ?_, fun m hm k found => Block.exists_ceil?_of_le hm⟩
  · intro k hk
    exact ⟨floor?_eq hn hk, Block.isGreatest_floor n k⟩
  · intro k hk
    have hleast := Block.isLeast_boundary n k
    exact ⟨_, hleast, Block.ceil?_of_isLeast hk hleast⟩
  · intro k hk
    exact ⟨laneBit?_two_pow_eq hk, (Block.laneBit_two_pow n k).symm⟩

/-- The number `2 ^ 64 - 17` is the last one before the last boundary of 16-byte blocks. The next
boundary of 32-byte blocks is not a word. -/
theorem roundings_exact_lastBlock :
    2 ^ 64 - 17 < 2 ^ 64 ∧
    ceilLog2? (2 ^ 64 - 17) = some 64 ∧ IsLeast {k | 2 ^ 64 - 17 ≤ 2 ^ k} 64 ∧
    floor? (2 ^ 64 - 17) 4 = some (2 ^ 64 - 32) ∧
    IsGreatest {m | 2 ^ 4 ∣ m ∧ m ≤ 2 ^ 64 - 17} (2 ^ 64 - 32) ∧
    ceil? (2 ^ 64 - 17) 4 = some (some (2 ^ 64 - 16)) ∧
    IsLeast {m | 2 ^ 4 ∣ m ∧ 2 ^ 64 - 17 ≤ m} (2 ^ 64 - 16) ∧
    ceil? (2 ^ 64 - 17) 5 = some none ∧
    (∃ m, IsLeast {m | 2 ^ 5 ∣ m ∧ 2 ^ 64 - 17 ≤ m} m ∧ 2 ^ 64 ≤ m) ∧
    ceil? (2 ^ 64 - 17) 64 = some none ∧
    laneBit? (2 ^ 64 - 17) (2 ^ 4) = some 120 ∧ 8 * (2 ^ 64 - 17 - (2 ^ 64 - 32)) = 120 ∧
    ∃ earlier, Block.ceil? (2 ^ 64 - 40) 4 = some earlier ∧ earlier ≤ 2 ^ 64 - 16 := by
  have hn : 2 ^ 64 - 17 < 2 ^ 64 := by decide
  have hbits : Block.ceilLog2 (2 ^ 64 - 17) = 64 := by decide
  have hbefore : Block.floor (2 ^ 64 - 17) 4 = 2 ^ 64 - 32 := by decide
  have hnext : Block.ceil? (2 ^ 64 - 17) 4 = some (2 ^ 64 - 16) := by decide
  have hnone : Block.ceil? (2 ^ 64 - 17) 5 = none := by decide
  have hfirst : Block.laneBit (2 ^ 64 - 17) (2 ^ 4) = 120 := by decide
  obtain ⟨⟨hlog, hexponent⟩, hfloor, hceil, hup, hwide, hlane, hmono⟩ := roundings_exact hn
  obtain ⟨hdown, hgreatest⟩ := hfloor 4 (by decide)
  obtain ⟨hbit, hdistance⟩ := hlane 4 (by decide)
  obtain ⟨m, hleast, hm⟩ := hup 4 (by decide)
  obtain ⟨beyond, hbeyond, hmissing⟩ := hup 5 (by decide)
  rw [hnext, eq_comm, Option.ite_none_right_eq_some, Option.some.injEq] at hm
  obtain ⟨-, rfl⟩ := hm
  have hlarge : 2 ^ 64 ≤ beyond := by
    by_contra hless
    rw [hnone, if_pos (not_le.1 hless)] at hmissing
    cases hmissing
  rw [hbits] at hlog hexponent
  rw [hbefore] at hdown hgreatest hdistance
  rw [hfirst] at hbit hdistance
  exact ⟨hn, hlog, hexponent, hdown, hgreatest, hnext ▸ hceil 4, hleast, hnone ▸ hceil 5,
    ⟨beyond, hbeyond, hlarge⟩, hwide 64 le_rfl ▸ hceil 64, hbit, hdistance,
    hmono (2 ^ 64 - 40) (by decide) 4 _ hnext⟩

end RegisterBank.Machine
