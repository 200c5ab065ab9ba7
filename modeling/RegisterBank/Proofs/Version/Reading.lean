import RegisterBank.Proofs.Expr.Blank
import RegisterBank.Proofs.Expr.Token.Decimal
import RegisterBank.Proofs.Failure
import RegisterBank.Version.Reading

/-!
# Full versions

Module descriptions may write a version with blanks around it, with a letter V before it and without
its patch number. None of this gets in the way of a full version: it begins with a digit, has two
points and has no blanks, so it is read as it stands (`ofDescription_of_parse_eq_ok`). It has no
superfluous zeros either, so it is the text by which its version is shown
(`toList_text_of_parse_eq_ok`), and this text is read as the version again, however the version was
described (`parse_text_of_ofDescription_eq_ok`).
-/

namespace RegisterBank.Version

variable {part : Part} {cs rest : List Char} {v : Version}

/-! ## The characters of a version -/

/-- A digit, a character of identifiers, or one of the marks before them. -/
def IsPlain (c : Char) : Prop :=
  isIdentifierChar c = true ∨ c = '+'

theorem isPlain_of_isDigit {c : Char} (h : c.isDigit = true) : IsPlain c := by
  simp [IsPlain, isIdentifierChar, Char.isAlphanum, h]

theorem isBlank_eq_false_of_isPlain {c : Char} (h : IsPlain c) : Text.isBlank c = false := by
  rcases h with h | rfl
  · simp only [isIdentifierChar, Bool.or_eq_true, beq_iff_eq] at h
    rcases h with (h | rfl) | rfl
    · exact Expr.isBlank_eq_false_of_isWordChar (by rw [Expr.isWordChar, h, Bool.true_or])
    · decide
    · decide
  · decide

/-! ## The parts of a version -/

theorem exists_digits_of_number_eq_ok {n : Nat} (h : number part cs = .ok (n, rest)) :
    ∃ d ds, cs = d :: (ds ++ rest) ∧ ∀ c ∈ d :: ds, c.isDigit = true := by
  unfold number at h
  split at h
  · split at h <;> cases h
  · rename_i d ds hdigits
    have hrest : rest = cs.dropWhile Char.isDigit := by
      split at h
      · cases h
      · split at h
        · split at h
          · cases h
            rfl
          · cases h
        · cases h
    refine ⟨d, ds, ?_, fun c hc => ?_⟩
    · rw [hrest, ← List.cons_append, ← hdigits, List.takeWhile_append_dropWhile]
    · exact List.mem_takeWhile_imp (hdigits ▸ hc)

theorem point_eq_ok_iff : point part cs = .ok rest ↔ cs = '.' :: rest := by
  cases cs with
  | nil => simp [point]
  | cons c cs => by_cases hc : c = '.' <;> simp [point, hc]

theorem exists_row_of_identifiers_eq_ok {mark : Char} {text : String} (hmark : IsPlain mark)
    (h : identifiers part mark cs = .ok (text, rest)) :
    ∃ row, cs = row ++ rest ∧ ∀ c ∈ row, IsPlain c := by
  unfold identifiers at h
  split at h
  · cases h
    exact ⟨[], rfl, fun _ hc => absurd hc List.not_mem_nil⟩
  · rename_i c tail
    split at h
    · rename_i hc
      dsimp only at h
      split at h
      · cases h
      · cases h
        refine ⟨c :: tail.takeWhile isIdentifierChar, ?_, ?_⟩
        · rw [List.cons_append, List.takeWhile_append_dropWhile]
        · rw [List.forall_mem_cons]
          exact ⟨hc ▸ hmark, fun d hd => .inl (List.mem_takeWhile_imp hd)⟩
    · cases h
      exact ⟨[], rfl, fun _ hc => absurd hc List.not_mem_nil⟩

/-- A full version begins with a digit, has two points and has no other characters than those of
versions. -/
theorem plain_of_parse_eq_ok (h : parse cs = .ok v) :
    (∃ d tail, cs = d :: tail ∧ d.isDigit = true) ∧ 2 ≤ cs.count '.' ∧ ∀ c ∈ cs, IsPlain c := by
  unfold parse at h
  rw [ite_error_eq_ok_iff] at h
  simp only [bind_eq_ok_iff] at h
  obtain ⟨-, ⟨major, cs₁⟩, hmajor, cs₂, hpoint, ⟨minor, cs₃⟩, hminor, cs₄, hpoint', ⟨patch, cs₅⟩,
    hpatch, ⟨preRelease, cs₆⟩, hpreRelease, ⟨build, cs₇⟩, hbuild, h⟩ := h
  obtain ⟨d, majors, rfl, hmajors⟩ := exists_digits_of_number_eq_ok hmajor
  obtain rfl := point_eq_ok_iff.1 hpoint
  obtain ⟨d', minors, rfl, hminors⟩ := exists_digits_of_number_eq_ok hminor
  obtain rfl := point_eq_ok_iff.1 hpoint'
  obtain ⟨d'', patches, rfl, hpatches⟩ := exists_digits_of_number_eq_ok hpatch
  obtain ⟨row, rfl, hrow⟩ := exists_row_of_identifiers_eq_ok (.inl (by decide)) hpreRelease
  obtain ⟨row', rfl, hrow'⟩ := exists_row_of_identifiers_eq_ok (.inr rfl) hbuild
  obtain rfl : cs₇ = [] := by
    cases cs₇ with
    | nil => rfl
    | cons c cs => cases h
  have hpointPlain : IsPlain '.' := .inl (by decide)
  have hdigits : ∀ {cs : List Char}, (∀ c ∈ cs, c.isDigit = true) → ∀ c ∈ cs, IsPlain c :=
    fun hcs c hc => isPlain_of_isDigit (hcs c hc)
  refine ⟨⟨d, _, rfl, hmajors d List.mem_cons_self⟩, ?_, ?_⟩
  · simp only [List.count_append, List.count_cons_self, List.count_cons]
    omega
  · replace hmajors := List.forall_mem_cons.1 (hdigits hmajors)
    replace hminors := List.forall_mem_cons.1 (hdigits hminors)
    replace hpatches := List.forall_mem_cons.1 (hdigits hpatches)
    simp only [List.forall_mem_cons, List.forall_mem_append]
    exact ⟨hmajors.1, hmajors.2, hpointPlain, hminors.1, hminors.2, hpointPlain, hpatches.1,
      hpatches.2, hrow, hrow', fun _ hc => absurd hc List.not_mem_nil⟩

/-- A full version is read as it stands. -/
theorem ofDescription_of_parse_eq_ok {s : String} (h : parse s.toList = .ok v) :
    ofDescription s = .ok v := by
  obtain ⟨⟨d, tail, hcs, hd⟩, hpoints, hplain⟩ := plain_of_parse_eq_ok h
  have htrimmed : Text.trimChars s.toList = s.toList :=
    Expr.BlankFree.trimChars_eq fun c hc => isBlank_eq_false_of_isPlain (hplain c hc)
  have hbare : (s.toList.dropWhile fun c => c == 'V' || c == 'v') = s.toList := by
    rw [hcs]
    refine List.dropWhile_cons_of_neg fun hletter => ?_
    simp only [Bool.or_eq_true, beq_iff_eq] at hletter
    rcases hletter with rfl | rfl <;> exact absurd hd (by decide)
  have hcount : s.toList.count '.' ≠ 1 := by omega
  simp only [ofDescription, htrimmed, hbare, if_neg hcount]
  exact h

/-! ## The text of a version -/

theorem eq_of_number_eq_ok {n : Nat} (h : number part cs = .ok (n, rest)) :
    cs = Nat.toDigits 10 n ++ rest := by
  unfold number at h
  split at h
  · split at h <;> cases h
  · rename_i d ds hdigits
    rw [ite_error_eq_ok_iff] at h
    obtain ⟨hzero, h⟩ := h
    split at h
    · rename_i value hvalue
      rw [← ite_not, ite_error_eq_ok_iff] at h
      obtain ⟨-, h⟩ := h
      cases h
      rw [Expr.toDigits_of_natural? hvalue fun hd => by_contra fun hds => hzero ⟨hd, hds⟩,
        ← hdigits, List.takeWhile_append_dropWhile]
    · cases h

theorem eq_of_identifiers_eq_ok {mark : Char} {text : String} (sign : String)
    (hsign : sign.toList = [mark]) (h : identifiers part mark cs = .ok (text, rest)) :
    cs = (if text = "" then "" else sign ++ text).toList ++ rest := by
  unfold identifiers at h
  split at h
  · cases h
    rfl
  · rename_i c tail
    split at h
    · rename_i hc
      dsimp only at h
      split at h
      · cases h
      · rename_i hfault
        cases h
        have hne : String.ofList (tail.takeWhile isIdentifierChar) ≠ "" := by
          intro hempty
          rw [String.ofList_eq_empty_iff] at hempty
          rw [hempty] at hfault
          cases hfault
        rw [if_neg hne, String.toList_append, String.toList_ofList, hsign, ← hc, List.append_assoc,
          List.takeWhile_append_dropWhile, List.singleton_append]
    · cases h
      rfl

/-- A full version is the text by which the version is shown. -/
theorem toList_text_of_parse_eq_ok (h : parse cs = .ok v) : v.text.toList = cs := by
  unfold parse at h
  rw [ite_error_eq_ok_iff] at h
  simp only [bind_eq_ok_iff] at h
  obtain ⟨-, ⟨major, cs₁⟩, hmajor, cs₂, hpoint, ⟨minor, cs₃⟩, hminor, cs₄, hpoint', ⟨patch, cs₅⟩,
    hpatch, ⟨preRelease, cs₆⟩, hpreRelease, ⟨build, cs₇⟩, hbuild, h⟩ := h
  obtain rfl := eq_of_number_eq_ok hmajor
  obtain rfl := point_eq_ok_iff.1 hpoint
  obtain rfl := eq_of_number_eq_ok hminor
  obtain rfl := point_eq_ok_iff.1 hpoint'
  obtain rfl := eq_of_number_eq_ok hpatch
  obtain rfl : cs₅ = _ := eq_of_identifiers_eq_ok "-" (by decide) hpreRelease
  obtain rfl : cs₆ = _ := eq_of_identifiers_eq_ok "+" (by decide) hbuild
  cases cs₇ with
  | cons c cs => cases h
  | nil =>
      cases h
      have hpoint : ".".toList = ['.'] := by decide
      simp [text, toString, hpoint]

/-- The text of a described version is a full version. -/
theorem parse_text_of_ofDescription_eq_ok {s : String} (h : ofDescription s = .ok v) :
    parse v.text.toList = .ok v := by
  rw [ofDescription] at h
  rwa [toList_text_of_parse_eq_ok h]

end RegisterBank.Version
