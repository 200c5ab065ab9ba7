import RegisterBank.Proofs.Expr.Completeness
import RegisterBank.Proofs.Expr.Token.Number

/-!
# Decimal numerals

Digits alone are a numeral of the number that they denote, and the text by which a number is shown
is one of its numerals. Both hold only of numbers that a word can hold: digits of a greater number
are no expression, also behind a minus sign, although the least word is written like that.
-/

namespace RegisterBank.Expr

variable {cs : List Char} {n m : Nat}

/-! ## Digits and their number -/

theorem digitOf?_ten_eq_some_iff {c : Char} {d : Nat} :
    Text.digitOf? 10 c = some d ↔ c.isDigit = true ∧ d = c.toNat - '0'.toNat := by
  have hdigit : c.isDigit = true ↔ '0' ≤ c ∧ c ≤ '9' := by
    simp [Char.isDigit, Char.le_def, UInt32.le_iff_toNat_le]
  have hless : '0' ≤ c ∧ c ≤ '9' → c.toNat - '0'.toNat < 10 := by
    rintro ⟨-, hle⟩
    have hle' : c.toNat ≤ '9'.toNat := hle
    have hnine : '9'.toNat = '0'.toNat + 9 := rfl
    omega
  rw [digitOf?_eq_some_iff, Text.digitValue?, hdigit]
  split
  · rename_i h
    rw [Option.some.injEq]
    constructor
    · rintro ⟨rfl, -⟩
      exact ⟨h, rfl⟩
    · rintro ⟨-, rfl⟩
      exact ⟨rfl, hless h⟩
  · rename_i h
    refine iff_of_false ?_ fun hc => h hc.1
    rintro ⟨hvalue, hlt⟩
    split at hvalue
    · cases hvalue
      omega
    · split at hvalue
      · cases hvalue
        omega
      · cases hvalue

theorem extend?_ten_eq_some_iff : Text.extend? 10 n cs = some m ↔
    (∀ c ∈ cs, c.isDigit = true) ∧ m = Nat.ofDigitChars 10 cs n := by
  induction cs generalizing n with
  | nil =>
      rw [Text.extend?, Nat.ofDigitChars_nil, Option.some.injEq]
      exact ⟨fun h => ⟨fun _ hc => absurd hc List.not_mem_nil, h.symm⟩, fun h => h.2.symm⟩
  | cons c cs ih =>
      rw [Text.extend?, Nat.ofDigitChars_cons, List.forall_mem_cons]
      split
      · rename_i d hd
        obtain ⟨hdigit, rfl⟩ := digitOf?_ten_eq_some_iff.1 hd
        rw [ih, and_iff_right hdigit]
      · rename_i hnone
        refine iff_of_false (fun h => Option.some_ne_none m h.symm) fun h => ?_
        cases hnone.symm.trans (digitOf?_ten_eq_some_iff.2 ⟨h.1.1, rfl⟩)

theorem natural?_ten_eq_some_iff : Text.natural? 10 cs = some n ↔
    cs ≠ [] ∧ (∀ c ∈ cs, c.isDigit = true) ∧ n = Nat.ofDigitChars 10 cs 0 := by
  cases cs with
  | nil => exact iff_of_false (fun h => Option.some_ne_none n h.symm) fun h => h.1 rfl
  | cons c cs =>
      rw [Text.natural?, extend?_ten_eq_some_iff]
      · exact (and_iff_right (List.cons_ne_nil c cs)).symm
      · exact List.cons_ne_nil c cs

theorem filter_ne_underscore (h : ∀ c ∈ cs, c.isDigit = true) : cs.filter (· != '_') = cs := by
  rw [List.filter_eq_self]
  intro c hc
  rw [bne_iff_ne]
  rintro rfl
  exact absurd (h _ hc) (by decide)

theorem isNumber_of_natural? (h : Text.natural? 10 cs = some n) (hn : Word.InRange n) :
    IsNumber n cs := by
  have hdigits := (natural?_ten_eq_some_iff.1 h).2.1
  refine .decimal hdigits ?_ hn
  exact natural?_eq_some_iff.1 ((filter_ne_underscore hdigits).symm ▸ h)

theorem natural?_toDigits (n : Nat) : Text.natural? 10 (Nat.toDigits 10 n) = some n :=
  natural?_ten_eq_some_iff.2 ⟨Nat.toDigits_ne_nil,
    fun _ => Nat.isDigit_of_mem_toDigits (by decide) le_rfl, Nat.ofDigitChars_ten_toDigits.symm⟩

/-- A digit is the text of its number. -/
theorem toDigits_of_isDigit {c : Char} (h : c.isDigit = true) :
    Nat.toDigits 10 (c.toNat - '0'.toNat) = [c] := by
  have hall : ∀ code ≤ 9, Nat.toDigits 10 code = [Char.ofNat (code + '0'.toNat)] := by decide
  have hrange : '0'.toNat ≤ c.toNat ∧ c.toNat ≤ '9'.toNat := by
    simpa [Char.isDigit, UInt32.le_iff_toNat_le] using h
  have hnine : '9'.toNat = '0'.toNat + 9 := rfl
  rw [hall _ (by omega), Nat.sub_add_cancel hrange.1, Char.ofNat_toNat]

/-- Digits after a number that is not zero are its last ones. -/
theorem toDigits_ofDigitChars (hn : 0 < n) (h : ∀ c ∈ cs, c.isDigit = true) :
    Nat.toDigits 10 (Nat.ofDigitChars 10 cs n) = Nat.toDigits 10 n ++ cs := by
  induction cs generalizing n with
  | nil => rw [Nat.ofDigitChars_nil, List.append_nil]
  | cons c cs ih =>
      rw [List.forall_mem_cons] at h
      obtain ⟨-, hlt⟩ := digitOf?_eq_some_iff.1 (digitOf?_ten_eq_some_iff.2 ⟨h.1, rfl⟩)
      rw [Nat.ofDigitChars_cons, ih (by omega) h.2,
        ← Nat.toDigits_append_toDigits (by decide) hn hlt, toDigits_of_isDigit h.1,
        List.append_assoc, List.singleton_append]

/-- A decimal number without superfluous zeros is the text of its number. -/
theorem toDigits_of_natural? {c : Char} (h : Text.natural? 10 (c :: cs) = some n)
    (hzero : c = '0' → cs = []) : Nat.toDigits 10 n = c :: cs := by
  obtain ⟨-, hdigits, rfl⟩ := natural?_ten_eq_some_iff.1 h
  rw [List.forall_mem_cons] at hdigits
  rw [Nat.ofDigitChars_cons, Nat.mul_zero, Nat.zero_add]
  by_cases hc : c = '0'
  · rw [hzero hc, hc]
    rfl
  · have hpos : 0 < c.toNat - '0'.toNat := by
      refine Nat.pos_of_ne_zero fun hvalue => hc ?_
      have htext := toDigits_of_isDigit hdigits.1
      rw [hvalue] at htext
      exact (List.singleton_inj.1 htext).symm
    rw [toDigits_ofDigitChars hpos hdigits.2, toDigits_of_isDigit hdigits.1, List.singleton_append]

theorem toList_toString_ofNat (n : Nat) :
    (toString (Int.ofNat n)).toList = Nat.toDigits 10 n :=
  Nat.toList_repr

theorem toList_toString_negSucc (n : Nat) :
    (toString (Int.negSucc n)).toList = '-' :: Nat.toDigits 10 (n + 1) := by
  change ("-" ++ (n + 1).repr).toList = _
  rw [String.toList_append, Nat.toList_repr]
  rfl

theorem isDigit_of_toDigits_eq_cons {c : Char} (h : Nat.toDigits 10 n = c :: cs) :
    c.isDigit = true :=
  Nat.isDigit_of_mem_toDigits (by decide) le_rfl (h ▸ List.mem_cons_self)

/-- A shown natural number is read as itself. -/
theorem unsigned?_toString (n : Nat) : Text.unsigned? (toString n).toList = some n := by
  have htext : (toString n).toList = Nat.toDigits 10 n := Nat.toList_repr
  rw [htext, Text.unsigned?.eq_def]
  split
  · rename_i heq
    exact absurd (isDigit_of_toDigits_eq_cons heq) (by decide)
  · exact natural?_toDigits n

/-- A shown integer is read as itself. -/
theorem signed?_toString (v : Int) : Text.signed? (toString v).toList = some v := by
  cases v with
  | ofNat n =>
      rw [toList_toString_ofNat, Text.signed?.eq_def]
      split
      · rename_i heq
        exact absurd (isDigit_of_toDigits_eq_cons heq) (by decide)
      · rename_i heq
        exact absurd (isDigit_of_toDigits_eq_cons heq) (by decide)
      · rw [natural?_toDigits]
        rfl
  | negSucc n =>
      rw [toList_toString_negSucc, Text.signed?, natural?_toDigits]
      rfl

theorem toString_inj {v w : Int} : toString v = toString w ↔ v = w := by
  constructor
  · intro h
    have hread := signed?_toString v
    rw [h, signed?_toString] at hread
    exact (Option.some.inj hread).symm
  · rintro rfl
    rfl

/-! ## Numerals as expressions -/

theorem writtenAs_of_isNumber (h : IsNumber n cs) : (Form.expr 13 (.number n)).WrittenAs cs :=
  .number h (spaced_self cs)

/-- The text by which a word is shown is a numeral of it. -/
theorem writtenAs_toString (hn : Word.InRange n) :
    (Form.expr 13 (.number n)).WrittenAs (toString n).toList := by
  rw [Nat.toString_eq_repr, Nat.toList_repr]
  exact writtenAs_of_isNumber (isNumber_of_natural? (natural?_toDigits n) hn)

/-! ## Digits of too great a number -/

theorem number?_eq_none_of_natural? (h : Text.natural? 10 cs = some n) (hn : ¬ Word.InRange n) :
    number? cs = none := by
  obtain ⟨hne, hdigits, -⟩ := natural?_ten_eq_some_iff.1 h
  have hbased : basedNumber? cs = none := by
    have hnone : basedNumber? (cs ++ []) = none :=
      basedNumber?_eq_none hdigits fun _ hc => nomatch hc
    rwa [List.append_nil] at hnone
  have hhex : hexNumber? cs = none := by
    have hnone : hexNumber? (cs ++ []) = none :=
      hexNumber?_eq_none_of_isDigit hdigits hne fun _ hc => nomatch hc
    rwa [List.append_nil] at hnone
  have hdecimal : decimalNumber? cs = none := by
    have hall : cs.takeWhile Char.isDigit = cs := List.takeWhile_eq_self_iff.2 hdigits
    rw [decimalNumber?, rowOfDigits?, hall, digitsValue?, filter_ne_underscore hdigits, h]
    simp [Word.check?, hn]
  rw [number?, hbased, hhex, hdecimal]

theorem skipGaps_cons_of_isDigit {c : Char} (hc : c.isDigit = true) (tail : List Char) :
    skipGaps (c :: tail) = c :: tail :=
  skipGaps_cons_of_not (isGap_eq_false_of_isWordChar (isWordChar_of_isDigit hc)) tail

theorem word?_eq_none_of_isDigit {c : Char} (hc : c.isDigit = true) (tail : List Char) :
    word? (c :: tail) = none := by
  refine word?_eq_none ⟨?_, ?_⟩ tail
  · rw [Bool.eq_false_iff]
    intro hstart
    rw [isDigit_eq_false_of_isWordStart hstart] at hc
    cases hc
  · rw [Bool.eq_false_iff]
    intro hmarker
    simp only [isMarker, Bool.or_eq_true, beq_iff_eq] at hmarker
    rcases hmarker with rfl | rfl <;> revert hc <;> decide

/-- Digits of too great a number are no operand. -/
theorem primary_eq_absent (h : Text.natural? 10 cs = some n) (hn : ¬ Word.InRange n) (k : Nat) :
    primary (k + 1) cs = .absent cs := by
  have hnumber := number?_eq_none_of_natural? h hn
  obtain ⟨hne, hdigits, -⟩ := natural?_ten_eq_some_iff.1 h
  obtain ⟨c, tail, rfl⟩ := List.exists_cons_of_ne_nil hne
  have hc : c.isDigit = true := hdigits c List.mem_cons_self
  rw [primary, skipGaps_cons_of_isDigit hc, hnumber]
  simp only
  rw [word?_eq_none_of_isDigit hc]
  simp only
  split
  · rename_i heq
    obtain ⟨rfl, -⟩ := List.cons.inj heq
    exact absurd hc (by decide)
  · rfl

/-- A minus sign needs an operand. -/
theorem signed_eq_broken (h : Text.natural? 10 cs = some n) (hn : ¬ Word.InRange n) (k : Nat) :
    signed (k + 3) ('-' :: cs) = .broken cs := by
  have hprimary := primary_eq_absent h hn k
  obtain ⟨hne, hdigits, -⟩ := natural?_ten_eq_some_iff.1 h
  obtain ⟨c, tail, rfl⟩ := List.exists_cons_of_ne_nil hne
  have hc : c.isDigit = true := hdigits c List.mem_cons_self
  have hskip := skipGaps_cons_of_isDigit hc tail
  have hsign : unaryOperator? (c :: tail) = none := by
    refine unaryOperator?_eq_none ?_
    rw [hskip, List.head?_cons, List.mem_map_of_injective (Option.some_injective Char)]
    exact not_mem_signs_of_isWordChar (isWordChar_of_isDigit hc)
  have hminus : unaryOperator? ('-' :: c :: tail) = some (.negate, c :: tail) := by
    rw [unaryOperator?, skipGaps_cons_of_not (by decide)]
    simp only [hskip]
  rw [signed, hminus]
  simp only
  rw [signed, hsign]
  simp only
  rw [hprimary]
  rfl

theorem chain_eq_broken {text rest : List Char} {k : Nat} (h : signed k text = .broken rest)
    (levels : List (List Operator)) :
    chain (levels.length + (k + 2)) levels text = .broken rest := by
  induction levels with
  | nil => rw [List.length_nil, Nat.zero_add, chain, power, h, Outcome.andThen_broken]
  | cons ops levels ih => rw [List.length_cons, Nat.succ_add, chain, ih, Outcome.andThen_broken]

/-- A minus sign does not make a word of digits of too great a number. -/
theorem not_writtenAs_minus {e : Expr} (h : Text.natural? 10 cs = some n)
    (hn : ¬ Word.InRange n) : ¬ (Form.expr 0 e).WrittenAs ('-' :: cs) := by
  intro hwritten
  have hreads : Reads 0 e ('-' :: cs) := (isRead_of_writtenAs hwritten).1
  have hread : reader 0 (depth ('-' :: cs)) ('-' :: cs) = .parsed e (skipGaps []) :=
    hreads stops_nil (by rw [List.append_nil]) le_rfl
  obtain ⟨k, hk⟩ : ∃ k, depth ('-' :: cs) = leftLevels.length + (k + 3 + 2) + 1 := by
    refine ⟨depth ('-' :: cs) - 16, ?_⟩
    simp only [depth, leftLevels, List.length_cons, List.length_nil]
    omega
  rw [hk, reader, choice, chain_eq_broken (signed_eq_broken h hn k)] at hread
  cases hread

end RegisterBank.Expr
