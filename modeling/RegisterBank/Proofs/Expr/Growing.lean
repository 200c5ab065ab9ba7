import RegisterBank.Proofs.Expr.Exact

/-!
# Trees that grow with their names

A tree that is made of natural numbers by sums, products, quotients by a numeral, powers of a
numeral and calls has no smaller a value where its names stand for greater numbers (`eval_mono`). A
difference, a choice or a quotient by a name may well have.
-/

namespace RegisterBank.Expr

variable {scope scope' : String → Lookup} {e : Expr} {args : List Expr} {x y v w : Int}
  {values values' : List Int}

/-- Trees whose values grow with the values of their names. -/
inductive Growing : Expr → Prop where
  | number {value : Int} : 0 ≤ value → Growing (.number value)
  | name {text : String} : Growing (.name text)
  | add {a b : Expr} : Growing a → Growing b → Growing (.binary .add a b)
  | multiply {a b : Expr} : Growing a → Growing b → Growing (.binary .multiply a b)
  | divide {a : Expr} {value : Int} : Growing a → 0 < value →
      Growing (.binary .divide a (.number value))
  | power {value : Int} {b : Expr} : 0 < value → Growing b →
      Growing (.binary .power (.number value) b)
  | call {function : String} {args : List Expr} :
      (∀ arg ∈ args, Growing arg) → Growing (.call function args)

/-- A natural number and one that is no smaller. -/
def Below (x y : Int) : Prop :=
  0 ≤ x ∧ x ≤ y

/-- Names that are known in both scopes stand for natural numbers, no smaller ones in the second. -/
def ScopeBelow (scope scope' : String → Lookup) : Prop :=
  ∀ text x y, scope text = .known x → scope' text = .known y → Below x y

namespace Below

theorem add (hx : Below x v) (hy : Below y w) : Below (x + y) (v + w) :=
  ⟨Int.add_nonneg hx.1 hy.1, Int.add_le_add hx.2 hy.2⟩

theorem mul (hx : Below x v) (hy : Below y w) : Below (x * y) (v * w) :=
  ⟨Int.mul_nonneg hx.1 hy.1, Int.mul_le_mul hx.2 hy.2 hy.1 (hx.1.trans hx.2)⟩

theorem max (hx : Below x v) (hy : Below y w) : Below (max x y) (max v w) :=
  ⟨hx.1.trans (le_max_left x y), max_le_max hx.2 hy.2⟩

theorem min (hx : Below x v) (hy : Below y w) : Below (min x y) (min v w) :=
  ⟨le_min hx.1 hy.1, min_le_min hx.2 hy.2⟩

end Below

/-! ## One operator -/

/-- A quotient by a positive number grows with its dividend. -/
theorem divide_mono {divisor : Int} (hdivisor : 0 < divisor) (hxy : Below x y)
    (h : binaryValue .divide x divisor = .ok v) (h' : binaryValue .divide y divisor = .ok w) :
    Below v w := by
  have hvalue : ∀ {z u : Int}, 0 ≤ z → binaryValue .divide z divisor = .ok u → u = z / divisor := by
    intro z u hz hu
    have hexact := (divide_exact hu).1
    rw [BinaryOp.exact, if_neg hdivisor.ne', Option.some.injEq,
      Int.tdiv_eq_ediv_of_nonneg hz] at hexact
    exact hexact.symm
  rw [hvalue hxy.1 h, hvalue (hxy.1.trans hxy.2) h']
  exact ⟨Int.ediv_nonneg hxy.1 hdivisor.le, Int.ediv_le_ediv hdivisor hxy.2⟩

/-- A power of a positive number grows with its exponent. -/
theorem power_mono {base : Int} (hbase : 0 < base) (hxy : Below x y)
    (h : binaryValue .power base x = .ok v) (h' : binaryValue .power base y = .ok w) :
    Below v w := by
  have hvalue : ∀ {z u : Int}, 0 ≤ z → binaryValue .power base z = .ok u → u = base ^ z.toNat := by
    intro z u hz hu
    have hexact := (power_exact hu).1
    rw [BinaryOp.exact, if_pos hz, Option.some.injEq] at hexact
    exact hexact.symm
  rw [hvalue hxy.1 h, hvalue (hxy.1.trans hxy.2) h']
  exact ⟨(Int.pow_pos hbase).le,
    pow_le_pow_right₀ (Int.add_one_le_of_lt hbase) (Int.toNat_le_toNat hxy.2)⟩

/-! ## Calls -/

/-- Lists of arguments that grow have values that do. -/
theorem forall₂_of_evalAll (h : evalAll scope args = .ok values)
    (h' : evalAll scope' args = .ok values')
    (hargs : ∀ arg ∈ args, ∀ x y, arg.eval scope = .ok x → arg.eval scope' = .ok y → Below x y) :
    List.Forall₂ Below values values' := by
  rw [evalAll_eq_ok_iff] at h h'
  induction h generalizing values' with
  | nil =>
      rw [List.forall₂_nil_left_iff.1 h']
      exact .nil
  | cons hx _ ih =>
      obtain ⟨y, rest, hy, hrest, rfl⟩ := List.forall₂_cons_left_iff.1 h'
      rw [List.forall_mem_cons] at hargs
      exact .cons (hargs.1 _ _ hx hy) (ih hrest hargs.2)

theorem foldl_mono {f : Int → Int → Int} {rest rest' : List Int}
    (hf : ∀ {a b c d}, Below a b → Below c d → Below (f a c) (f b d)) (hxy : Below x y)
    (hrest : List.Forall₂ Below rest rest') : Below (rest.foldl f x) (rest'.foldl f y) := by
  induction hrest generalizing x y with
  | nil => exact hxy
  | cons hab _ ih => exact ih (hf hxy hab)

/-- The logarithm, the greatest and the least of numbers grow with the numbers. -/
theorem callValue_mono {function : String} (hvalues : List.Forall₂ Below values values')
    (h : callValue function values = .ok v) (h' : callValue function values' = .ok w) :
    Below v w := by
  unfold callValue at h h'
  split at h
  · -- The logarithm takes one argument.
    rename_i x hf
    obtain ⟨y, rest, hxy, hnil, rfl⟩ := List.forall₂_cons_left_iff.1 hvalues
    rw [List.forall₂_nil_left_iff.1 hnil, hf] at h'
    simp only [ite_error_eq_ok_iff, Except.ok.injEq] at h h'
    obtain ⟨-, rfl⟩ := h
    obtain ⟨-, rfl⟩ := h'
    exact ⟨Int.natCast_nonneg _,
      Int.ofNat_le.2 (Block.ceilLog2_mono (Int.toNat_le_toNat hxy.2))⟩
  · cases h
  · rename_i x rest hf
    obtain ⟨y, rest', hxy, hrest, rfl⟩ := List.forall₂_cons_left_iff.1 hvalues
    rw [hf] at h'
    cases h
    cases h'
    rw [larger_eq_max]
    exact foldl_mono .max hxy hrest
  · rename_i x rest hf
    obtain ⟨y, rest', hxy, hrest, rfl⟩ := List.forall₂_cons_left_iff.1 hvalues
    rw [hf] at h'
    cases h
    cases h'
    rw [smaller_eq_min]
    exact foldl_mono .min hxy hrest
  · cases h
  · cases h

/-! ## Trees -/

/-- A growing tree has no smaller a value in the scope of the greater numbers. -/
theorem eval_mono (hscope : ScopeBelow scope scope') (he : e.Growing) (h : e.eval scope = .ok v)
    (h' : e.eval scope' = .ok w) : Below v w := by
  induction he generalizing v w with
  | number hvalue =>
      cases h
      cases h'
      exact ⟨hvalue, le_refl _⟩
  | name => exact hscope _ _ _ (eval_name_eq_ok_iff.1 h) (eval_name_eq_ok_iff.1 h')
  | add _ _ iha ihb =>
      obtain ⟨x, y, hx, hy, hv⟩ := eval_binary_eq_ok_iff.1 h
      obtain ⟨x', y', hx', hy', hw⟩ := eval_binary_eq_ok_iff.1 h'
      obtain ⟨-, rfl⟩ := inRange_eq_ok_iff.1 hv
      obtain ⟨-, rfl⟩ := inRange_eq_ok_iff.1 hw
      exact (iha hx hx').add (ihb hy hy')
  | multiply _ _ iha ihb =>
      obtain ⟨x, y, hx, hy, hv⟩ := eval_binary_eq_ok_iff.1 h
      obtain ⟨x', y', hx', hy', hw⟩ := eval_binary_eq_ok_iff.1 h'
      obtain ⟨-, rfl⟩ := inRange_eq_ok_iff.1 hv
      obtain ⟨-, rfl⟩ := inRange_eq_ok_iff.1 hw
      exact (iha hx hx').mul (ihb hy hy')
  | divide _ hvalue iha =>
      obtain ⟨x, y, hx, hy, hv⟩ := eval_binary_eq_ok_iff.1 h
      obtain ⟨x', y', hx', hy', hw⟩ := eval_binary_eq_ok_iff.1 h'
      cases hy
      cases hy'
      exact divide_mono hvalue (iha hx hx') hv hw
  | power hvalue _ ihb =>
      obtain ⟨x, y, hx, hy, hv⟩ := eval_binary_eq_ok_iff.1 h
      obtain ⟨x', y', hx', hy', hw⟩ := eval_binary_eq_ok_iff.1 h'
      cases hx
      cases hx'
      exact power_mono hvalue (ihb hy hy') hv hw
  | call _ ih =>
      obtain ⟨values, hvalues, hv⟩ := eval_call_eq_ok_iff.1 h
      obtain ⟨values', hvalues', hw⟩ := eval_call_eq_ok_iff.1 h'
      exact callValue_mono
        (forall₂_of_evalAll hvalues hvalues' fun arg harg x y hx hy => ih arg harg hx hy) hv hw

end RegisterBank.Expr
