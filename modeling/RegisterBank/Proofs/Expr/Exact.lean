import RegisterBank.Proofs.Arithmetic.Block
import RegisterBank.Proofs.Arithmetic.Word
import RegisterBank.Proofs.Expr.Evaluation

/-!
# Exact values

`Expr.exact` is the value of a tree over the unbounded integers. Every operator and function but one
has that value in words, or none. A shift to the left only checks its amount, so bits that leave the
word are lost without a fault (`shiftLeft_exact`).
-/

namespace RegisterBank

/-- The value of the operator over the integers. -/
def UnaryOp.exact (op : UnaryOp) (x : Int) : Int :=
  match op with
  | .negate => -x
  | .not => if x = 0 then 1 else 0
  | .invert => Int.lnot x

/-- The value of the operator over the integers. There is none for a division by zero, a negative
exponent and a negative shift amount. -/
def BinaryOp.exact (op : BinaryOp) (x y : Int) : Option Int :=
  match op with
  | .power => if 0 ≤ y then some (x ^ y.toNat) else none
  | .multiply => some (x * y)
  | .divide => if y = 0 then none else some (x.tdiv y)
  | .remainder => if y = 0 then none else some (x.tmod y)
  | .add => some (x + y)
  | .subtract => some (x - y)
  | .shiftLeft => if 0 ≤ y then some (x * 2 ^ y.toNat) else none
  | .shiftRight => if 0 ≤ y then some (x.fdiv (2 ^ y.toNat)) else none
  | .less => some (if x < y then 1 else 0)
  | .lessEqual => some (if x ≤ y then 1 else 0)
  | .greater => some (if y < x then 1 else 0)
  | .greaterEqual => some (if y ≤ x then 1 else 0)
  | .equal => some (if x = y then 1 else 0)
  | .notEqual => some (if x ≠ y then 1 else 0)
  | .bitAnd => some (Int.land x y)
  | .bitXor => some (Int.xor x y)
  | .bitOr => some (Int.lor x y)
  | .and => some (if x ≠ 0 ∧ y ≠ 0 then 1 else 0)
  | .or => some (if x ≠ 0 ∨ y ≠ 0 then 1 else 0)

namespace Expr

/-- The value of the function over the integers, if it takes so many arguments. The logarithm of a
negative number has none. -/
def Function.exact : Function → List Int → Option Int
  | .log, [x] => if 0 ≤ x then some (Nat.clog 2 x.toNat) else none
  | .log, _ => none
  | .greatest, values => values.max?
  | .least, values => values.min?

mutual

/-- The value of a tree over the integers. -/
def exact (scope : String → Lookup) : Expr → Option Int
  | number value => some value
  | name text =>
    match scope text with
    | .known value => some value
    | .unavailable => none
    | .undefined => none
  | unary op e => (e.exact scope).map op.exact
  | binary op a b => do
    let x ← a.exact scope
    let y ← b.exact scope
    op.exact x y
  | choose c a b => do
    let x ← c.exact scope
    if x ≠ 0 then a.exact scope else b.exact scope
  | call function args => do
    let values ← exactAll scope args
    let f ← function? function
    f.exact values

/-- The values of a list of trees over the integers. -/
def exactAll (scope : String → Lookup) : List Expr → Option (List Int)
  | [] => some []
  | e :: rest => do
    let x ← e.exact scope
    let values ← exactAll scope rest
    some (x :: values)

end

variable {scope : String → Lookup} {e a b c : Expr} {args : List Expr} {v x y : Int}
  {values : List Int}

theorem exactAll_eq_some_iff : exactAll scope args = some values ↔
    List.Forall₂ (fun arg x => arg.exact scope = some x) args values := by
  induction args generalizing values with
  | nil =>
      rw [exactAll, Option.some.injEq, List.forall₂_nil_left_iff]
      exact eq_comm
  | cons arg args ih =>
      simp only [exactAll, Option.bind_eq_bind, Option.bind_eq_some_iff, Option.some.injEq, ih,
        List.forall₂_cons_left_iff]
      constructor
      · rintro ⟨x, hx, rest, hrest, rfl⟩
        exact ⟨x, rest, hx, hrest, rfl⟩
      · rintro ⟨x, rest, hx, hrest, rfl⟩
        exact ⟨x, hx, rest, hrest, rfl⟩

/-! ## One operator -/

theorem inRange_eq_ok_iff : inRange x = .ok v ↔ Word.InRange x ∧ x = v := by
  rw [← Word.check?_eq_some_iff, inRange]
  cases Word.check? x <;> simp

theorem truth_inRange (t : Bool) : Word.InRange (truth t) := by
  cases t <;> decide

theorem count?_eq_some_iff {n : Nat} : count? x = some n ↔ 0 ≤ x ∧ x < 2 ^ 32 ∧ x.toNat = n := by
  have hsize : (UInt32.size : Int) = 2 ^ 32 := rfl
  rw [count?, hsize, Option.ite_none_right_eq_some, Option.some.injEq, and_assoc]

theorem shifted_eq_ok_iff {f : Int → Nat → Int} :
    shifted f x y = .ok v ↔ 0 ≤ y ∧ y < 64 ∧ f x y.toNat = v := by
  unfold shifted
  constructor
  · intro h
    split at h
    · cases h
    · rename_i n hn
      obtain ⟨hpos, -, rfl⟩ := count?_eq_some_iff.1 hn
      split at h
      · cases h
        exact ⟨hpos, by omega, rfl⟩
      · cases h
  · rintro ⟨hpos, hlt, rfl⟩
    have hcount : count? y = some y.toNat := count?_eq_some_iff.2 ⟨hpos, by omega, rfl⟩
    have hplaces : y.toNat < 64 := by omega
    simp only [hcount, hplaces, if_true]

theorem unaryValue_exact {op : UnaryOp} (hx : Word.InRange x) (h : unaryValue op x = .ok v) :
    op.exact x = v ∧ Word.InRange v := by
  cases op with
  | negate =>
      obtain ⟨hrange, rfl⟩ := inRange_eq_ok_iff.1 h
      exact ⟨rfl, hrange⟩
  | not =>
      cases h
      refine ⟨?_, truth_inRange _⟩
      simp [UnaryOp.exact, truth]
  | invert =>
      cases h
      exact ⟨(Word.bitNot_eq hx).symm, Word.inRange_toInt _⟩

theorem power_exact (h : binaryValue .power x y = .ok v) :
    BinaryOp.power.exact x y = some v ∧ Word.InRange v := by
  simp only [binaryValue] at h
  split at h
  · cases h
  · rename_i n hn
    obtain ⟨hpos, -, rfl⟩ := count?_eq_some_iff.1 hn
    split at h
    · rename_i w hw
      cases h
      obtain ⟨hrange, rfl⟩ := Word.pow?_eq_some_iff.1 hw
      exact ⟨if_pos hpos, hrange⟩
    · cases h

theorem divide_exact (h : binaryValue .divide x y = .ok v) :
    BinaryOp.divide.exact x y = some v ∧ Word.InRange v := by
  simp only [binaryValue] at h
  split at h
  · cases h
  · rename_i hy
    obtain ⟨hrange, rfl⟩ := inRange_eq_ok_iff.1 h
    exact ⟨if_neg hy, hrange⟩

theorem inRange_tmod (hx : Word.InRange x) (y : Int) : Word.InRange (x.tmod y) := by
  have habs : (x.tmod y).natAbs ≤ x.natAbs := by
    rw [Int.natAbs_tmod]
    exact Nat.mod_le _ _
  have hpos : 0 ≤ x → 0 ≤ x.tmod y := Int.tmod_nonneg y
  have hneg : x ≤ 0 → x.tmod y ≤ 0 := fun h => by
    have h' := Int.tmod_nonneg y (Int.neg_nonneg_of_nonpos h)
    rw [Int.neg_tmod] at h'
    omega
  unfold Word.InRange Word.least Word.greatest at hx ⊢
  omega

theorem remainder_exact (hx : Word.InRange x) (h : binaryValue .remainder x y = .ok v) :
    BinaryOp.remainder.exact x y = some v ∧ Word.InRange v := by
  simp only [binaryValue] at h
  split at h
  · cases h
  · rename_i hy
    split at h
    · cases h
    · cases h
      exact ⟨if_neg hy, inRange_tmod hx y⟩

theorem shiftRight_exact (hx : Word.InRange x) (h : binaryValue .shiftRight x y = .ok v) :
    BinaryOp.shiftRight.exact x y = some v ∧ Word.InRange v := by
  obtain ⟨hpos, -, rfl⟩ := shifted_eq_ok_iff.1 h
  refine ⟨?_, Word.inRange_toInt _⟩
  rw [Word.shiftRight_eq hx]
  exact if_pos hpos

/-- Every operator but the shift to the left has the value over the integers, or none. -/
theorem binaryValue_exact {op : BinaryOp} (hop : op ≠ .shiftLeft) (hx : Word.InRange x)
    (hy : Word.InRange y) (h : binaryValue op x y = .ok v) :
    op.exact x y = some v ∧ Word.InRange v := by
  cases op with
  | power => exact power_exact h
  | divide => exact divide_exact h
  | remainder => exact remainder_exact hx h
  | shiftLeft => exact absurd rfl hop
  | shiftRight => exact shiftRight_exact hx h
  | multiply | add | subtract =>
      obtain ⟨hrange, rfl⟩ := inRange_eq_ok_iff.1 h
      exact ⟨rfl, hrange⟩
  | bitAnd =>
      cases h
      refine ⟨?_, Word.inRange_toInt _⟩
      rw [Word.bitAnd_eq hx hy]
      rfl
  | bitXor =>
      cases h
      refine ⟨?_, Word.inRange_toInt _⟩
      rw [Word.bitXor_eq hx hy]
      rfl
  | bitOr =>
      cases h
      refine ⟨?_, Word.inRange_toInt _⟩
      rw [Word.bitOr_eq hx hy]
      rfl
  | less | lessEqual | greater | greaterEqual | equal | notEqual | and | or =>
      cases h
      refine ⟨?_, truth_inRange _⟩
      simp [BinaryOp.exact, truth]

/-- The value of a shift to the left is the exact one if and only if that is a word. -/
theorem shiftLeft_exact (h : binaryValue .shiftLeft x y = .ok v) :
    Word.InRange v ∧
      (BinaryOp.shiftLeft.exact x y = some v ↔ Word.InRange (x * 2 ^ y.toNat)) := by
  obtain ⟨hpos, -, rfl⟩ := shifted_eq_ok_iff.1 h
  refine ⟨Word.inRange_toInt _, ?_⟩
  have hexact : BinaryOp.shiftLeft.exact x y = some (x * 2 ^ y.toNat) := if_pos hpos
  rw [hexact, Option.some.injEq, ← Word.shiftLeft_eq_iff]
  exact eq_comm

/-! ## Calls -/

theorem inRange_ceilLog2 (hx : Word.InRange x) : Word.InRange (Block.ceilLog2 x.toNat) := by
  have hlog : Block.ceilLog2 x.toNat ≤ 63 := by
    rw [Block.ceilLog2_le_iff]
    unfold Word.InRange Word.greatest at hx
    omega
  rw [Word.inRange_natCast]
  omega

theorem larger_eq_max : larger = max := by
  funext x y
  exact (max_def x y).symm

theorem smaller_eq_min : smaller = min := by
  funext x y
  exact (min_def x y).symm

theorem callValue_exact {function : String} (hvalues : ∀ x ∈ values, Word.InRange x)
    (h : callValue function values = .ok v) :
    ∃ f, function? function = some f ∧ f.exact values = some v ∧ Word.InRange v := by
  unfold callValue at h
  split at h
  · rename_i x hf
    split at h
    · cases h
    · rename_i hx
      cases h
      have hpos : 0 ≤ x := Int.not_lt.1 hx
      refine ⟨.log, hf, ?_, ?_⟩
      · rw [Block.ceilLog2_eq]
        exact if_pos hpos
      · exact inRange_ceilLog2 (hvalues x (by simp))
  · cases h
  · rename_i first rest hf
    cases h
    have hmax : (first :: rest).max? = some (rest.foldl larger first) := by
      rw [larger_eq_max, List.max?_cons']
    exact ⟨.greatest, hf, hmax, hvalues _ (List.max?_mem hmax)⟩
  · rename_i first rest hf
    cases h
    have hmin : (first :: rest).min? = some (rest.foldl smaller first) := by
      rw [smaller_eq_min, List.min?_cons']
    exact ⟨.least, hf, hmin, hvalues _ (List.min?_mem hmin)⟩
  · cases h
  · cases h

end Expr

end RegisterBank
