import RegisterBank.Proofs.Expr.Token.Gap

/-!
# The reader of numbers

The reader of numbers tries three forms one after the other. It finds a number of the grammar and
the characters after it, and it finds every number that stands at the front where nothing prolongs
it; the forms never get into each other's way.
-/

namespace RegisterBank.Expr

variable {cs rest : List Char}

/-! ## Rows of digits -/

theorem digitOf?_eq_some_iff {base v : Nat} {c : Char} :
    Text.digitOf? base c = some v ↔ Text.digitValue? c = some v ∧ v < base := by
  simp [Text.digitOf?, Option.filter_eq_some_iff]

theorem extend?_eq_some_iff {base n m : Nat} :
    Text.extend? base n cs = some m ↔
      ∃ values : List Nat, (∀ v ∈ values, v < base) ∧
        cs.map Text.digitValue? = values.map some ∧
        m = values.foldl (fun m v => base * m + v) n := by
  induction cs generalizing n with
  | nil =>
      rw [Text.extend?, Option.some.injEq]
      constructor
      · rintro rfl
        exact ⟨[], by simp, rfl, rfl⟩
      · rintro ⟨values, -, hvalues, rfl⟩
        obtain rfl : values = [] := List.map_eq_nil_iff.1 hvalues.symm
        rfl
  | cons c cs ih =>
      rw [Text.extend?]
      constructor
      · intro h
        split at h
        · rename_i d hd
          obtain ⟨hvalue, hlt⟩ := digitOf?_eq_some_iff.1 hd
          obtain ⟨values, hbound, hvalues, rfl⟩ := ih.1 h
          refine ⟨d :: values, ?_, ?_, rfl⟩
          · rw [List.forall_mem_cons]
            exact ⟨hlt, hbound⟩
          · rw [List.map_cons, List.map_cons, hvalue, hvalues]
        · cases h
      · rintro ⟨values, hbound, hvalues, rfl⟩
        cases values with
        | nil => cases hvalues
        | cons d values =>
            rw [List.map_cons, List.map_cons, List.cons.injEq] at hvalues
            rw [List.forall_mem_cons] at hbound
            have hd : Text.digitOf? base c = some d :=
              digitOf?_eq_some_iff.2 ⟨hvalues.1, hbound.1⟩
            rw [hd]
            exact ih.2 ⟨values, hbound.2, hvalues.2, rfl⟩

theorem natural?_eq_some_iff {base n : Nat} :
    Text.natural? base cs = some n ↔
      ∃ values : List Nat, values ≠ [] ∧ (∀ v ∈ values, v < base) ∧
        cs.map Text.digitValue? = values.map some ∧ n = Nat.ofDigits base values.reverse := by
  have hfold : ∀ values : List Nat, Nat.ofDigits base values.reverse =
      values.foldl (fun m v => base * m + v) 0 := by
    intro values
    rw [Nat.ofDigits_eq_foldr, List.foldr_reverse]
    simp only [Nat.cast_id, Nat.add_comm]
  simp only [hfold]
  cases cs with
  | nil =>
      rw [Text.natural?]
      constructor
      · intro h
        cases h
      · rintro ⟨values, hne, -, hvalues, -⟩
        exact absurd (List.map_eq_nil_iff.1 hvalues.symm) hne
  | cons c cs =>
      rw [Text.natural?, extend?_eq_some_iff]
      · constructor
        · rintro ⟨values, hbound, hvalues, rfl⟩
          refine ⟨values, ?_, hbound, hvalues, rfl⟩
          rintro rfl
          cases hvalues
        · rintro ⟨values, -, hbound, hvalues, rfl⟩
          exact ⟨values, hbound, hvalues, rfl⟩
      · intro h
        cases h

theorem digitsValue?_eq_some_iff {base : Nat} {v : Int} :
    digitsValue? base cs = some v ↔
      ∃ n : Nat, v = n ∧ Denotes base cs n ∧ Word.InRange n := by
  unfold digitsValue?
  constructor
  · intro h
    split at h
    · rename_i n hn
      rw [Word.check?, Option.ite_none_right_eq_some, Option.some.injEq] at h
      exact ⟨n, h.2.symm, natural?_eq_some_iff.1 hn, h.1⟩
    · cases h
  · rintro ⟨n, rfl, hdenotes, hrange⟩
    have hn : Text.natural? base (cs.filter (· != '_')) = some n :=
      natural?_eq_some_iff.2 hdenotes
    rw [hn]
    simp only [Word.check?, hrange, if_true]

theorem Denotes.isBasedDigit {base n : Nat} {digits : List Char} (h : Denotes base digits n) :
    ∀ c ∈ digits, isBasedDigit c = true := by
  obtain ⟨values, -, -, hvalues, -⟩ := h
  intro c hc
  by_cases hunderscore : c = '_'
  · simp [Expr.isBasedDigit, hunderscore]
  · have hmem : c ∈ digits.filter (· != '_') := by simp [hc, hunderscore]
    have hvalue := List.mem_map_of_mem (f := Text.digitValue?) hmem
    rw [hvalues, List.mem_map] at hvalue
    obtain ⟨v, -, hv⟩ := hvalue
    simp [Expr.isBasedDigit, ← hv]

theorem Denotes.ne_nil {base n : Nat} {digits : List Char} (h : Denotes base digits n) :
    digits ≠ [] := by
  obtain ⟨values, hne, -, hvalues, -⟩ := h
  rintro rfl
  exact hne (List.map_eq_nil_iff.1 hvalues.symm)

theorem baseOf?_eq_some_iff {letter : Char} {base : Nat} :
    baseOf? letter = some base ↔ (letter, base) ∈ baseLetters := by
  unfold baseOf?
  constructor
  · intro h
    split at h
    · rename_i hl
      rcases hl with rfl | rfl <;> cases h <;> decide
    · split at h
      · rename_i hl
        rcases hl with rfl | rfl <;> cases h <;> decide
      · split at h
        · rename_i hl
          rcases hl with rfl | rfl <;> cases h <;> decide
        · split at h
          · rename_i hl
            rcases hl with rfl | rfl <;> cases h <;> decide
          · cases h
  · intro h
    simp only [baseLetters, List.mem_cons, Prod.mk.injEq, List.not_mem_nil, or_false] at h
    rcases h with ⟨rfl, rfl⟩ | ⟨rfl, rfl⟩ | ⟨rfl, rfl⟩ | ⟨rfl, rfl⟩ | ⟨rfl, rfl⟩ | ⟨rfl, rfl⟩ |
      ⟨rfl, rfl⟩ | ⟨rfl, rfl⟩ <;> decide

/-! ## Numbers -/

theorem rowOfDigits?_eq_some_iff {base : Nat} {isDigit : Char → Bool} {v : Int} :
    rowOfDigits? base isDigit cs = some (v, rest) ↔
      ∃ n : Nat, v = n ∧ Denotes base (cs.takeWhile isDigit) n ∧ Word.InRange n ∧
        cs.dropWhile isDigit = rest := by
  rw [rowOfDigits?, Option.map_eq_some_iff]
  constructor
  · rintro ⟨w, hw, heq⟩
    obtain ⟨n, rfl, hdenotes, hrange⟩ := digitsValue?_eq_some_iff.1 hw
    cases heq
    exact ⟨n, rfl, hdenotes, hrange, rfl⟩
  · rintro ⟨n, rfl, hdenotes, hrange, rfl⟩
    exact ⟨n, digitsValue?_eq_some_iff.2 ⟨n, rfl, hdenotes, hrange⟩, rfl⟩

theorem rowOfDigits?_append {base n : Nat} {isDigit : Char → Bool} {digits : List Char}
    (hdigits : ∀ c ∈ digits, isDigit c = true)
    (hrest : ∀ c, rest.head? = some c → isDigit c = false)
    (hdenotes : Denotes base digits n) (hrange : Word.InRange n) :
    rowOfDigits? base isDigit (digits ++ rest) = some ((n : Int), rest) := by
  obtain ⟨htake, hdrop⟩ := takeWhile_append_eq hdigits hrest
  refine rowOfDigits?_eq_some_iff.2 ⟨n, rfl, ?_, hrange, hdrop⟩
  rw [htake]
  exact hdenotes

theorem basedNumber?_sound {v : Int} (h : basedNumber? cs = some (v, rest)) :
    ∃ (n : Nat) (token : List Char), v = n ∧ IsNumber n token ∧ cs = token ++ rest := by
  unfold basedNumber? at h
  split at h
  · rename_i mark letter tail hdrop
    split at h
    · rename_i hmark
      split at h
      · rename_i base hbase
        obtain ⟨n, rfl, hdenotes, hrange, rfl⟩ := rowOfDigits?_eq_some_iff.1 h
        have hsize : ∀ c ∈ cs.takeWhile Char.isDigit, c.isDigit = true :=
          fun c hc => List.mem_takeWhile_imp hc
        refine ⟨n, _, rfl, .based hsize (baseOf?_eq_some_iff.1 hbase) hdenotes hrange, ?_⟩
        calc
          cs = cs.takeWhile Char.isDigit ++ cs.dropWhile Char.isDigit :=
            List.takeWhile_append_dropWhile.symm
          _ = cs.takeWhile Char.isDigit ++ baseMark :: letter :: tail := by rw [hdrop, hmark]
          _ = _ := by
            rw [List.append_assoc, List.cons_append, List.cons_append,
              List.takeWhile_append_dropWhile]
      · cases h
    · cases h
  · cases h

theorem hexNumber?_sound {v : Int} (h : hexNumber? cs = some (v, rest)) :
    ∃ (n : Nat) (token : List Char), v = n ∧ IsNumber n token ∧ cs = token ++ rest := by
  unfold hexNumber? at h
  split at h
  · rename_i letter tail
    split at h
    · rename_i hletter
      obtain ⟨n, rfl, hdenotes, hrange, rfl⟩ := rowOfDigits?_eq_some_iff.1 h
      refine ⟨n, _, rfl, .hexadecimal hletter hdenotes hrange, ?_⟩
      rw [List.cons_append, List.cons_append, List.takeWhile_append_dropWhile]
    · cases h
  · cases h

theorem decimalNumber?_sound {v : Int} (h : decimalNumber? cs = some (v, rest)) :
    ∃ (n : Nat) (token : List Char), v = n ∧ IsNumber n token ∧ cs = token ++ rest := by
  obtain ⟨n, rfl, hdenotes, hrange, rfl⟩ := rowOfDigits?_eq_some_iff.1 h
  have hdigits : ∀ c ∈ cs.takeWhile Char.isDigit, c.isDigit = true :=
    fun c hc => List.mem_takeWhile_imp hc
  exact ⟨n, _, rfl, .decimal hdigits hdenotes hrange, List.takeWhile_append_dropWhile.symm⟩

/-- What is read as a number is a text of it. -/
theorem number?_sound {v : Int} (h : number? cs = some (v, rest)) :
    ∃ (n : Nat) (token : List Char), v = n ∧ IsNumber n token ∧ cs = token ++ rest := by
  unfold number? at h
  split at h
  · rename_i hbased
    cases h
    exact basedNumber?_sound hbased
  · split at h
    · rename_i hhex
      cases h
      exact hexNumber?_sound hhex
    · exact decimalNumber?_sound h

/-- Digits that no apostrophe follows begin no literal with a base. -/
theorem basedNumber?_eq_none {digits : List Char} (hdigits : ∀ c ∈ digits, c.isDigit = true)
    (hrest : ∀ c, rest.head? = some c → c.isDigit = false ∧ c ≠ baseMark) :
    basedNumber? (digits ++ rest) = none := by
  have hdrop := (takeWhile_append_eq hdigits fun c hc => (hrest c hc).1).2
  unfold basedNumber?
  rw [hdrop]
  split
  · rename_i mark letter tail
    have hmark : mark ≠ baseMark := (hrest mark rfl).2
    rw [if_neg hmark]
  · rfl

theorem hexNumber?_eq_none (h : ∀ letter tail, cs = '0' :: letter :: tail →
    letter ≠ 'x' ∧ letter ≠ 'X') : hexNumber? cs = none := by
  unfold hexNumber?
  split
  · rename_i letter tail
    have hletter := h letter tail rfl
    rw [if_neg (by simp [hletter])]
  · rfl

/-- A numeral in decimal digits is no numeral in hexadecimal ones: its second character is a digit
or the first one after it. -/
theorem hexNumber?_eq_none_of_isDigit {digits : List Char}
    (hdigits : ∀ c ∈ digits, c.isDigit = true) (hne : digits ≠ []) (hrest : EndsToken rest) :
    hexNumber? (digits ++ rest) = none := by
  apply hexNumber?_eq_none
  intro letter tail heq
  have hletter : letter.isDigit = true ∨ isWordChar letter = false := by
    cases digits with
    | nil => exact absurd rfl hne
    | cons c digits =>
        obtain ⟨-, htail⟩ := List.cons.inj heq
        cases digits with
        | nil =>
            have hhead : rest.head? = some letter := congrArg List.head? htail
            exact .inr (hrest.not_isWordChar letter hhead)
        | cons d digits =>
            obtain ⟨rfl, -⟩ := List.cons.inj htail
            exact .inl (hdigits d (by simp))
  constructor <;> rintro rfl <;> revert hletter <;> decide

theorem hexNumber?_complete {n : Nat} {letter : Char} {digits : List Char}
    (hletter : letter = 'x' ∨ letter = 'X') (hdenotes : Denotes 16 digits n)
    (hrange : Word.InRange n) (hrest : EndsToken rest) :
    hexNumber? ('0' :: letter :: digits ++ rest) = some ((n : Int), rest) := by
  simp only [List.cons_append, hexNumber?, hletter, if_true]
  exact rowOfDigits?_append hdenotes.isBasedDigit hrest.not_isBasedDigit hdenotes hrange

theorem basedNumber?_complete {n base : Nat} {size digits : List Char} {letter : Char}
    (hsize : ∀ c ∈ size, c.isDigit = true) (hbase : (letter, base) ∈ baseLetters)
    (hdenotes : Denotes base digits n) (hrange : Word.InRange n) (hrest : EndsToken rest) :
    basedNumber? (size ++ baseMark :: letter :: digits ++ rest) = some ((n : Int), rest) := by
  have hdrop : (size ++ baseMark :: letter :: digits ++ rest).dropWhile Char.isDigit =
      baseMark :: letter :: (digits ++ rest) := by
    rw [List.append_assoc]
    refine (takeWhile_append_eq hsize ?_).2
    intro c hc
    obtain rfl : baseMark = c := Option.some.inj hc
    decide
  unfold basedNumber?
  rw [hdrop]
  simp only [if_true, baseOf?_eq_some_iff.2 hbase]
  exact rowOfDigits?_append hdenotes.isBasedDigit hrest.not_isBasedDigit hdenotes hrange

/-- Every text of a number is read as that number where nothing prolongs it. -/
theorem number?_complete {n : Nat} {token : List Char} (h : IsNumber n token)
    (hrest : EndsToken rest) : number? (token ++ rest) = some ((n : Int), rest) := by
  unfold number?
  cases h with
  | decimal hdigits hdenotes hrange =>
      have hbased : basedNumber? (token ++ rest) = none :=
        basedNumber?_eq_none hdigits fun c hc => ⟨hrest.not_isDigit c hc, (hrest c hc).2⟩
      have hhex : hexNumber? (token ++ rest) = none :=
        hexNumber?_eq_none_of_isDigit hdigits hdenotes.ne_nil hrest
      rw [hbased, hhex]
      exact rowOfDigits?_append hdigits hrest.not_isDigit hdenotes hrange
  | @hexadecimal letter digits hletter hdenotes hrange =>
      have hbased : basedNumber? ('0' :: letter :: digits ++ rest) = none := by
        have hzero : ∀ c ∈ ['0'], c.isDigit = true := List.forall_mem_singleton.2 (by decide)
        refine @basedNumber?_eq_none (letter :: digits ++ rest) ['0'] hzero ?_
        intro c hc
        obtain rfl : letter = c := Option.some.inj hc
        rcases hletter with rfl | rfl <;> decide
      rw [hbased, hexNumber?_complete hletter hdenotes hrange hrest]
  | based hsize hbase hdenotes hrange =>
      rw [basedNumber?_complete hsize hbase hdenotes hrange hrest]

theorem IsNumber.head {n : Nat} {token : List Char} (h : IsNumber n token) :
    ∃ c tail, token = c :: tail ∧ (c.isDigit = true ∨ c = baseMark) := by
  cases h with
  | decimal hdigits hdenotes =>
      cases token with
      | nil => exact absurd rfl hdenotes.ne_nil
      | cons c tail => exact ⟨c, tail, rfl, .inl (hdigits c (by simp))⟩
  | hexadecimal => exact ⟨_, _, rfl, .inl (by decide)⟩
  | @based size letter base digits hsize =>
      cases size with
      | nil => exact ⟨_, _, rfl, .inr rfl⟩
      | cons c tail => exact ⟨c, _, rfl, .inl (hsize c (by simp))⟩

theorem number?_eq_none {c : Char} (h : c.isDigit = false ∧ c ≠ baseMark) (cs : List Char) :
    number? (c :: cs) = none := by
  have hbased : basedNumber? (c :: cs) = none := by
    refine @basedNumber?_eq_none (c :: cs) [] (by simp) ?_
    intro d hd
    obtain rfl : c = d := Option.some.inj hd
    exact h
  have hhex : hexNumber? (c :: cs) = none := by
    apply hexNumber?_eq_none
    intro letter tail heq
    obtain ⟨rfl, -⟩ := List.cons.inj heq
    exact absurd h.1 (by decide)
  have hdecimal : decimalNumber? (c :: cs) = none := by
    rw [decimalNumber?, rowOfDigits?, List.takeWhile_cons, h.1]
    rfl
  rw [number?, hbased, hhex, hdecimal]

theorem IsNumber.inRange {n : Nat} {token : List Char} (h : IsNumber n token) :
    Word.InRange n := by
  cases h with
  | decimal _ _ hrange => exact hrange
  | hexadecimal _ _ hrange => exact hrange
  | based _ _ _ hrange => exact hrange

end RegisterBank.Expr
