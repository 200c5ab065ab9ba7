import RegisterBank.Proofs.Expr.Blank
import RegisterBank.Proofs.Expr.Token.Decimal

/-!
# Words that stand side by side

In the text of an expression a sign stands between any two numbers or names, so nowhere are two
words with one blank between them (`Form.WrittenAs.wordsApart`). A line of a generated header that
begins with a keyword and a name can therefore not come from an expression in it.
-/

namespace RegisterBank.Expr

variable {cs rest gap sign token : List Char} {x : Char}

/-- Nowhere is one blank between two characters of words. -/
def WordsApart (cs : List Char) : Prop :=
  ∀ c d, isWordChar c = true → isWordChar d = true → ¬ [c, ' ', d] <:+: cs

/-- A character that is neither in a word nor the blank between two. -/
def separates (x : Char) : Bool :=
  !isWordChar x && x != ' '

theorem separates_iff : separates x = true ↔ isWordChar x = false ∧ x ≠ ' ' := by
  simp [separates]

theorem wordsApart_of_not_mem (h : ' ' ∉ cs) : WordsApart cs := by
  intro c d _ _ hfix
  exact h (hfix.subset (List.mem_cons_of_mem c List.mem_cons_self))

theorem WordsApart.nil : WordsApart [] :=
  wordsApart_of_not_mem List.not_mem_nil

/-- The text of a number has no blanks. -/
theorem blankFree_toString (v : Int) : BlankFree (toString v).toList := by
  have hdigits : ∀ n, BlankFree (Nat.toDigits 10 n) := fun n =>
    blankFree_of_isWordChar fun c hc =>
      isWordChar_of_isDigit (Nat.isDigit_of_mem_toDigits (by decide) le_rfl hc)
  cases v with
  | ofNat n => exact toList_toString_ofNat n ▸ hdigits n
  | negSucc n =>
      rw [toList_toString_negSucc]
      exact blankFree_cons (by decide) (hdigits (n + 1))

theorem wordsApart_toString (v : Int) : WordsApart (toString v).toList :=
  wordsApart_of_not_mem fun hblank => absurd (blankFree_toString v _ hblank) (by decide)

/-- A part that lacks a character is on one side of it. -/
theorem infix_of_infix_append_cons {part : List Char} (hx : x ∉ part)
    (h : part <:+: cs ++ x :: rest) : part <:+: cs ∨ part <:+: rest := by
  obtain ⟨before, after, hpart⟩ := h
  rw [List.append_assoc] at hpart
  rcases List.append_eq_append_iff.1 hpart with ⟨front, rfl, hfront⟩ | ⟨back, rfl, hback⟩
  · rcases List.append_eq_append_iff.1 hfront with ⟨more, rfl, -⟩ | ⟨tail, rfl, htail⟩
    · exact .inl ⟨before, more, List.append_assoc _ _ _⟩
    · cases tail with
      | nil => exact .inl ⟨before, [], by simp⟩
      | cons y tail =>
          obtain rfl : x = y := (List.cons.inj htail).1
          exact absurd (List.mem_append_right front List.mem_cons_self) hx
  · cases back with
    | nil =>
        cases part with
        | nil => exact .inl List.nil_infix
        | cons y part =>
            obtain rfl : x = y := (List.cons.inj hback).1
            exact absurd List.mem_cons_self hx
    | cons y back =>
        obtain ⟨-, rfl⟩ := List.cons.inj hback
        exact .inr ⟨back, after, List.append_assoc _ _ _⟩

namespace WordsApart

theorem of_infix (h : WordsApart cs) (hrest : rest <:+: cs) : WordsApart rest :=
  fun c d hc hd hfix => h c d hc hd (hfix.trans hrest)

theorem append_cons (h : WordsApart cs) (hrest : WordsApart rest) (hx : separates x = true) :
    WordsApart (cs ++ x :: rest) := by
  intro c d hc hd hfix
  rw [separates_iff] at hx
  have hnot : x ∉ [c, ' ', d] := by
    simp only [List.mem_cons, List.not_mem_nil, or_false, not_or]
    refine ⟨?_, hx.2, ?_⟩
    · rintro rfl
      exact absurd (hc.symm.trans hx.1) (by decide)
    · rintro rfl
      exact absurd (hd.symm.trans hx.1) (by decide)
  rcases infix_of_infix_append_cons hnot hfix with hleft | hright
  · exact h c d hc hd hleft
  · exact hrest c d hc hd hright

theorem append_gap (h : WordsApart cs) (hgap : IsGap gap) : WordsApart (cs ++ gap) := by
  induction gap using List.reverseRecOn with
  | nil => rwa [List.append_nil]
  | append_singleton gap x ih =>
      have hx := hgap x (List.mem_append_right gap (List.mem_singleton_self x))
      intro c d hc hd hfix
      rw [← List.append_assoc, List.infix_concat_iff] at hfix
      rcases hfix with hlast | hfix
      · -- The last character would be the gap.
        obtain ⟨front, hfront⟩ := hlast
        have heq : x = d := by
          have hends := congrArg List.getLast? hfront
          simpa using hends.symm
        rw [heq, isGap_eq_false_of_isWordChar hd] at hx
        cases hx
      · exact ih (fun y hy => hgap y (List.mem_append_left _ hy)) c d hc hd hfix

theorem gap_append (h : WordsApart cs) (hgap : IsGap gap) : WordsApart (gap ++ cs) := by
  induction gap with
  | nil => exact h
  | cons x gap ih =>
      rw [IsGap, List.forall_mem_cons] at hgap
      intro c d hc hd hfix
      rw [List.cons_append, List.infix_cons_iff] at hfix
      rcases hfix with hfirst | hfix
      · rw [List.cons_prefix_cons] at hfirst
        rw [← hfirst.1, isGap_eq_false_of_isWordChar hc] at hgap
        cases hgap.1
      · exact ih hgap.2 c d hc hd hfix

theorem sign_append (h : WordsApart cs) (hall : sign.all separates = true) :
    WordsApart (sign ++ cs) := by
  induction sign with
  | nil => exact h
  | cons x sign ih =>
      rw [List.all_cons, Bool.and_eq_true] at hall
      exact WordsApart.nil.append_cons (ih hall.2) hall.1

/-- A sign keeps what is before it from what is after it. -/
theorem append_spaced (h : WordsApart cs) (hrest : WordsApart rest) (hsign : Spaced sign token)
    (hne : sign ≠ []) (hall : sign.all separates = true) : WordsApart (cs ++ (token ++ rest)) := by
  obtain ⟨before, after, hbefore, hafter, rfl⟩ := hsign
  obtain ⟨x, more, rfl⟩ := List.exists_cons_of_ne_nil hne
  rw [List.all_cons, Bool.and_eq_true] at hall
  have htail : WordsApart (more ++ (after ++ rest)) := (hrest.gap_append hafter).sign_append hall.2
  have hwhole := (h.append_gap hbefore).append_cons htail hall.1
  simpa only [List.append_assoc, List.cons_append] using hwhole

theorem append_spaced_singleton (h : WordsApart cs) (hrest : WordsApart rest)
    (hsign : Spaced [x] token) (hx : separates x = true) :
    WordsApart (cs ++ (token ++ rest)) :=
  h.append_spaced hrest hsign (List.cons_ne_nil _ _) (by rw [List.all_cons, hx]; rfl)

end WordsApart

theorem Spaced.wordsApart (h : Spaced sign token) (hfree : BlankFree sign) : WordsApart token := by
  obtain ⟨before, after, hbefore, hafter, rfl⟩ := h
  have hsign : WordsApart sign := by
    refine wordsApart_of_not_mem fun hblank => ?_
    cases hfree _ hblank
  exact (hsign.append_gap hafter).gap_append hbefore

theorem BinaryOp.sign_separates (op : BinaryOp) :
    op.sign ≠ [] ∧ op.sign.all separates = true := by
  cases op <;> decide

theorem UnaryOp.sign_separates (op : UnaryOp) :
    op.sign ≠ [] ∧ op.sign.all separates = true := by
  cases op <;> decide

/-- Further arguments begin with a comma. -/
theorem WordsApart.append_further {args : List Expr} (h : WordsApart cs)
    (hargs : (Form.further args).WrittenAs rest) (hrest : WordsApart rest) :
    WordsApart (cs ++ rest) := by
  cases hargs with
  | noFurther => rwa [List.append_nil]
  | nextArgument hcomma _ _ =>
      have htail := hrest.of_infix (List.suffix_append _ _).isInfix
      exact h.append_spaced_singleton htail hcomma (by decide)

/-- No two words stand side by side in the text of an expression. -/
theorem Form.WrittenAs.wordsApart {form : Form} (h : form.WrittenAs cs) : WordsApart cs := by
  induction h with
  | tighter _ ih => exact ih
  | choose _ hquestion _ hcolon _ ihcondition ihyes ihno =>
      exact ihcondition.append_spaced_singleton
        (ihyes.append_spaced_singleton ihno hcolon (by decide)) hquestion (by decide)
  | @leftward op _ _ _ _ _ _ _ hsign _ ihleft ihright =>
      obtain ⟨hne, hall⟩ := BinaryOp.sign_separates op
      exact ihleft.append_spaced ihright hsign hne hall
  | power _ hsign _ ihbase ihexponent =>
      exact ihbase.append_spaced ihexponent hsign (by decide) (by decide)
  | @signed op _ _ _ hsign _ ih =>
      obtain ⟨hne, hall⟩ := UnaryOp.sign_separates op
      exact WordsApart.nil.append_spaced ih hsign hne hall
  | number htoken hspaced => exact hspaced.wordsApart htoken.blankFree
  | name hword hspaced => exact hspaced.wordsApart hword.blankFree
  | call hword hspaced hopening _ hclosing ih =>
      have hend := ih.append_spaced_singleton .nil hclosing (by decide)
      rw [List.append_nil] at hend
      exact (hspaced.wordsApart hword.blankFree).append_spaced_singleton hend hopening (by decide)
  | parentheses hopening _ hclosing ih =>
      have hend := ih.append_spaced_singleton .nil hclosing (by decide)
      rw [List.append_nil] at hend
      exact WordsApart.nil.append_spaced_singleton hend hopening (by decide)
  | noArguments => exact .nil
  | firstArgument _ hargs ih ihargs => exact ih.append_further hargs ihargs
  | noFurther => exact .nil
  | nextArgument hcomma _ hargs ih ihargs =>
      have hrest := ih.append_further hargs ihargs
      exact WordsApart.nil.append_spaced_singleton hrest hcomma (by decide)

end RegisterBank.Expr
