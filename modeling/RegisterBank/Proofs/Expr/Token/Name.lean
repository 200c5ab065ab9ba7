import RegisterBank.Proofs.Expr.Token.Gap

/-!
# The reader of names

The reader of names finds a name of the grammar and the characters after it, and every name that
stands at the front where nothing prolongs it. What it takes off the name is what the grammar says.
-/

namespace RegisterBank.Expr

variable {cs rest : List Char}

theorem isWordChar_of_isWordStart {c : Char} (h : isWordStart c = true) : isWordChar c = true := by
  unfold isWordStart at h
  unfold isWordChar Char.isAlphanum
  rw [Bool.or_eq_true] at h ⊢
  rcases h with h | h
  · exact .inl (by rw [h, Bool.true_or])
  · exact .inr h

theorem isDigit_eq_false_of_isWordStart {c : Char} (h : isWordStart c = true) :
    c.isDigit = false := by
  rw [isWordStart, Bool.or_eq_true] at h
  rcases h with halpha | hunderscore
  · unfold Char.isAlpha Char.isUpper Char.isLower at halpha
    unfold Char.isDigit
    simp only [UInt32.le_iff_toNat_le, ge_iff_le, Bool.or_eq_true, Bool.and_eq_true,
      decide_eq_true_eq, Bool.and_eq_false_iff, decide_eq_false_iff_not] at halpha ⊢
    grind
  · obtain rfl : c = '_' := beq_iff_eq.1 hunderscore
    decide

theorem ne_macroMark_of_isWordStart {c : Char} (h : isWordStart c = true) : c ≠ macroMark := by
  rintro rfl
  revert h
  decide

theorem isMarker_eq_false_of_isWordStart {c : Char} (h : isWordStart c = true) :
    isMarker c = false := by
  have hdollar : c ≠ '$' := by
    rintro rfl
    revert h
    decide
  simp [isMarker, ne_macroMark_of_isWordStart h, hdollar]

theorem isName_cons_takeWhile {c : Char} (h : isWordStart c = true) (cs : List Char) :
    IsName (c :: cs.takeWhile isWordChar) :=
  ⟨c, _, rfl, h, fun _ hd => List.mem_takeWhile_imp hd⟩

theorem IsName.isWordChar {name : List Char} (h : IsName name) :
    ∀ c ∈ name, isWordChar c = true := by
  obtain ⟨c, tail, rfl, hstart, htail⟩ := h
  rw [List.forall_mem_cons]
  exact ⟨isWordChar_of_isWordStart hstart, htail⟩

/-- The reader's way to the parameter agrees with the grammar's. -/
theorem IsWord.parameterOf_eq {word : List Char} {text : String} (h : IsWord word text) :
    parameterOf word = text := by
  unfold parameterOf
  cases h with
  | plain hname =>
      obtain ⟨c, tail, rfl, hstart, -⟩ := hname
      have hc : (c == macroMark) = false := by simpa using ne_macroMark_of_isWordStart hstart
      rw [List.dropWhile_cons, hc]
      rfl
  | backtick hname =>
      obtain ⟨c, tail, rfl, hstart, -⟩ := hname
      have hc : (c == macroMark) = false := by simpa using ne_macroMark_of_isWordStart hstart
      rw [List.dropWhile_cons, beq_self_eq_true, if_pos rfl, List.dropWhile_cons, hc]
      rfl
  | dollar hname => rfl

/-- What is read as a name is a text of the parameter that it stands for. -/
theorem word?_sound {word : List Char} (h : word? cs = some (word, rest)) :
    IsWord word (parameterOf word) ∧ cs = word ++ rest := by
  unfold word? at h
  split at h
  · cases h
  · rename_i c tail
    split at h
    · rename_i hmarker
      split at h
      · cases h
      · rename_i d tail
        split at h
        · rename_i hstart
          cases h
          have hname : IsName ((d :: tail).takeWhile isWordChar) := by
            rw [List.takeWhile_cons_of_pos (isWordChar_of_isWordStart hstart)]
            exact isName_cons_takeWhile hstart tail
          refine ⟨?_, by rw [List.cons_append, List.takeWhile_append_dropWhile]⟩
          have hc : c = macroMark ∨ c = '$' := by simpa [isMarker] using hmarker
          rcases hc with rfl | rfl
          · have hword := IsWord.backtick hname
            rwa [← hword.parameterOf_eq] at hword
          · have hword := IsWord.dollar hname
            rwa [← hword.parameterOf_eq] at hword
        · cases h
    · split at h
      · rename_i hstart
        cases h
        refine ⟨?_, by rw [List.cons_append, List.takeWhile_append_dropWhile]⟩
        have hword := IsWord.plain (isName_cons_takeWhile hstart tail)
        rwa [← hword.parameterOf_eq] at hword
      · cases h

/-- Every text of a name is read as a name where nothing prolongs it. -/
theorem word?_complete {word : List Char} {text : String} (h : IsWord word text)
    (hrest : EndsToken rest) : word? (word ++ rest) = some (word, rest) := by
  have hmarked : ∀ {mark : Char} {name : List Char}, isMarker mark = true → IsName name →
      word? (mark :: name ++ rest) = some (mark :: name, rest) := by
    intro mark name hmark hname
    obtain ⟨htake, hdrop⟩ := takeWhile_append_eq hname.isWordChar hrest.not_isWordChar
    obtain ⟨c, tail, rfl, hstart, -⟩ := hname
    rw [List.cons_append] at htake hdrop
    unfold word?
    simp only [List.cons_append, hmark, hstart, if_true, htake, hdrop]
  cases h with
  | plain hname =>
      obtain ⟨c, tail, rfl, hstart, htail⟩ := hname
      obtain ⟨htake, hdrop⟩ := takeWhile_append_eq htail hrest.not_isWordChar
      have hmarker := isMarker_eq_false_of_isWordStart hstart
      unfold word?
      simp only [List.cons_append, hmarker, hstart, Bool.false_eq_true, if_false, if_true, htake,
        hdrop]
  | backtick hname => exact hmarked (by decide) hname
  | dollar hname => exact hmarked (by decide) hname

theorem IsWord.head {word : List Char} {text : String} (h : IsWord word text) :
    ∃ c tail, word = c :: tail ∧ (isWordStart c = true ∨ isMarker c = true) := by
  cases h with
  | plain hname =>
      obtain ⟨c, tail, rfl, hstart, -⟩ := hname
      exact ⟨c, tail, rfl, .inl hstart⟩
  | backtick hname => exact ⟨_, _, rfl, .inr (by decide)⟩
  | dollar hname => exact ⟨_, _, rfl, .inr (by decide)⟩

/-- A name without a marker is a text of the parameter of this name. -/
theorem writtenAs_of_isName {name : List Char} (h : IsName name) :
    (Form.expr 13 (.name (String.ofList name))).WrittenAs name :=
  .name (.plain h) (spaced_self name)

theorem writtenAs_letter {c : Char} (h : isWordStart c = true) :
    (Form.expr 13 (.name (String.ofList [c]))).WrittenAs [c] :=
  writtenAs_of_isName ⟨c, [], rfl, h, fun _ hd => absurd hd List.not_mem_nil⟩

theorem word?_eq_none {c : Char} (h : isWordStart c = false ∧ isMarker c = false)
    (cs : List Char) : word? (c :: cs) = none := by
  unfold word?
  simp only [h.1, h.2, Bool.false_eq_true, if_false]

end RegisterBank.Expr
