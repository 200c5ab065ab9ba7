import RegisterBank.Proofs.Expr.Completeness
import RegisterBank.Text.Blank

/-!
# Blanks around texts of expressions

No token has a blank, so the blanks of a text that can be read are gaps, and a text without the
blanks at its ends is a text of the same tree (`Expr.writtenAs_trimChars`).
-/

namespace RegisterBank

namespace Expr

variable {level : Nat} {cs token gap : List Char} {e : Expr}

/-! ## The blanks in a text -/

theorem isBlank_of_isGap {c : Char} (h : Text.isGap c = true) : Text.isBlank c = true := by
  simp only [Text.isGap, Bool.or_eq_true, beq_iff_eq] at h
  rcases h with ((rfl | rfl) | rfl) | rfl <;> decide

theorem isBlank_eq_false_of_isWordChar {c : Char} (h : isWordChar c = true) :
    Text.isBlank c = false := by
  have hrange : 48 ≤ c.toNat ∧ c.toNat ≤ 122 := by
    unfold isWordChar Char.isAlphanum Char.isAlpha Char.isUpper Char.isLower Char.isDigit at h
    simp only [Bool.or_eq_true, Bool.and_eq_true, decide_eq_true_eq, beq_iff_eq,
      UInt32.le_iff_toNat_le, ge_iff_le] at h
    change ((65 ≤ c.toNat ∧ c.toNat ≤ 90 ∨ 97 ≤ c.toNat ∧ c.toNat ≤ 122) ∨
      48 ≤ c.toNat ∧ c.toNat ≤ 57) ∨ c = '_' at h
    rcases h with h | rfl
    · omega
    · decide
  rw [Bool.eq_false_iff]
  intro hblank
  simp only [Text.isBlank, Bool.or_eq_true, Bool.and_eq_true, decide_eq_true_eq,
    beq_iff_eq] at hblank
  omega

/-- The characters include no blank. -/
def BlankFree (cs : List Char) : Prop :=
  ∀ c ∈ cs, Text.isBlank c = false

theorem blankFree_of_isWordChar (h : ∀ c ∈ cs, isWordChar c = true) : BlankFree cs :=
  fun c hc => isBlank_eq_false_of_isWordChar (h c hc)

theorem blankFree_cons {c : Char} (hc : Text.isBlank c = false) (h : BlankFree cs) :
    BlankFree (c :: cs) :=
  List.forall_mem_cons.2 ⟨hc, h⟩

theorem BlankFree.dropWhile_eq (h : BlankFree cs) : cs.dropWhile Text.isBlank = cs := by
  cases cs with
  | nil => rfl
  | cons c cs => exact List.dropWhile_cons_of_neg (Bool.eq_false_iff.1 (h c List.mem_cons_self))

/-- There is nothing to trim where there are no blanks. -/
theorem BlankFree.trimChars_eq (h : BlankFree cs) : Text.trimChars cs = cs := by
  have hreverse : BlankFree cs.reverse := fun c hc => h c (List.mem_reverse.1 hc)
  rw [Text.trimChars, h.dropWhile_eq, hreverse.dropWhile_eq, List.reverse_reverse]

theorem IsNumber.blankFree {n : Nat} (h : IsNumber n token) : BlankFree token := by
  cases h with
  | decimal hdigits =>
      exact blankFree_of_isWordChar fun c hc => isWordChar_of_isDigit (hdigits c hc)
  | hexadecimal hletter hdenotes =>
      have hdigits := blankFree_of_isWordChar fun c hc =>
        isWordChar_of_isBasedDigit (hdenotes.isBasedDigit c hc)
      refine blankFree_cons (by decide) (blankFree_cons ?_ hdigits)
      rcases hletter with rfl | rfl <;> decide
  | @based size letter base digits hsize hletter hdenotes =>
      have hdigits := blankFree_of_isWordChar fun c hc =>
        isWordChar_of_isBasedDigit (hdenotes.isBasedDigit c hc)
      have hword : Text.isBlank letter = false := by
        simp only [baseLetters, List.mem_cons, Prod.mk.injEq, List.not_mem_nil, or_false] at hletter
        rcases hletter with ⟨rfl, -⟩ | ⟨rfl, -⟩ | ⟨rfl, -⟩ | ⟨rfl, -⟩ | ⟨rfl, -⟩ | ⟨rfl, -⟩ |
          ⟨rfl, -⟩ | ⟨rfl, -⟩ <;> decide
      have hmark : Text.isBlank baseMark = false := by decide
      have hrest := blankFree_cons hmark (blankFree_cons hword hdigits)
      have hsize' := blankFree_of_isWordChar fun c hc => isWordChar_of_isDigit (hsize c hc)
      exact List.forall_mem_append.2 ⟨hsize', hrest⟩

theorem IsWord.blankFree {text : String} (h : IsWord token text) : BlankFree token := by
  cases h with
  | plain hname => exact blankFree_of_isWordChar hname.isWordChar
  | backtick hname => exact blankFree_cons (by decide) (blankFree_of_isWordChar hname.isWordChar)
  | dollar hname => exact blankFree_cons (by decide) (blankFree_of_isWordChar hname.isWordChar)

theorem BinaryOp.blankFree_sign (op : BinaryOp) : BlankFree op.sign := by
  cases op <;> simp [BlankFree, BinaryOp.sign, Text.isBlank]

theorem UnaryOp.blankFree_sign (op : UnaryOp) : BlankFree op.sign := by
  cases op <;> simp [BlankFree, UnaryOp.sign, Text.isBlank]

/-- Every blank among the characters is a gap. -/
def GapsOnly (cs : List Char) : Prop :=
  ∀ c ∈ cs, Text.isBlank c = true → Text.isGap c = true

theorem GapsOnly.append {rest : List Char} (h : GapsOnly cs) (hrest : GapsOnly rest) :
    GapsOnly (cs ++ rest) :=
  List.forall_mem_append.2 ⟨h, hrest⟩

theorem Spaced.gapsOnly (h : Spaced token cs) (htoken : BlankFree token) : GapsOnly cs := by
  obtain ⟨before, after, hbefore, hafter, rfl⟩ := h
  have hfree : GapsOnly token := fun c hc hblank => by
    rw [htoken c hc] at hblank
    cases hblank
  exact .append (fun c hc _ => hbefore c hc) (hfree.append fun c hc _ => hafter c hc)

theorem Spaced.gapsOnly_singleton {c : Char} (h : Spaced [c] cs) (hc : Text.isBlank c = false) :
    GapsOnly cs :=
  h.gapsOnly (List.forall_mem_singleton.2 hc)

/-- The blanks of a text that the grammar allows are gaps. -/
theorem Form.WrittenAs.gapsOnly {form : Form} (h : form.WrittenAs cs) : GapsOnly cs := by
  induction h with
  | tighter _ ih => exact ih
  | choose _ hquestion _ hcolon _ ihcondition ihyes ihno =>
      exact ihcondition.append ((hquestion.gapsOnly_singleton (by decide)).append
        (ihyes.append ((hcolon.gapsOnly_singleton (by decide)).append ihno)))
  | @leftward op _ _ _ _ _ _ _ hsign _ ihleft ihright =>
      exact ihleft.append ((hsign.gapsOnly (BinaryOp.blankFree_sign op)).append ihright)
  | power _ hsign _ ihbase ihexponent =>
      exact ihbase.append ((hsign.gapsOnly (BinaryOp.blankFree_sign .power)).append ihexponent)
  | @signed op _ _ _ hsign _ ih => exact (hsign.gapsOnly (UnaryOp.blankFree_sign op)).append ih
  | number htoken hspaced => exact hspaced.gapsOnly htoken.blankFree
  | name hword hspaced => exact hspaced.gapsOnly hword.blankFree
  | call hword hspaced hopening _ hclosing ih =>
      exact (hspaced.gapsOnly hword.blankFree).append
        ((hopening.gapsOnly_singleton (by decide)).append
          (ih.append (hclosing.gapsOnly_singleton (by decide))))
  | parentheses hopening _ hclosing ih =>
      exact (hopening.gapsOnly_singleton (by decide)).append
        (ih.append (hclosing.gapsOnly_singleton (by decide)))
  | noArguments => exact fun c hc => absurd hc List.not_mem_nil
  | firstArgument _ _ ih ihargs => exact ih.append ihargs
  | noFurther => exact fun c hc => absurd hc List.not_mem_nil
  | nextArgument hcomma _ _ ih ihargs =>
      exact (hcomma.gapsOnly_singleton (by decide)).append (ih.append ihargs)

/-! ## The gaps at the ends -/

/-- What holds of the characters up to the last one that is no blank, only a gap being after it. -/
def UpToLast (P : List Char → Prop) (cs : List Char) : Prop :=
  ∃ front c gap, cs = front ++ (c :: gap) ∧ Text.isBlank c = false ∧ IsGap gap ∧ P (front ++ [c])

theorem UpToLast.append {P Q : List Char → Prop} {before : List Char} (h : UpToLast P cs)
    (hPQ : ∀ cs, P cs → Q (before ++ cs)) : UpToLast Q (before ++ cs) := by
  obtain ⟨front, c, gap, rfl, hc, hgap, hP⟩ := h
  exact ⟨before ++ front, c, gap, (List.append_assoc _ _ _).symm, hc, hgap,
    List.append_assoc before front [c] ▸ hPQ _ hP⟩

theorem UpToLast.imp {P Q : List Char → Prop} (h : UpToLast P cs) (hPQ : ∀ cs, P cs → Q cs) :
    UpToLast Q cs := by
  have happend : UpToLast Q ([] ++ cs) := h.append hPQ
  exact happend

theorem Spaced.upToLast (h : Spaced token cs) (hne : token ≠ []) (htoken : BlankFree token) :
    UpToLast (Spaced token) cs := by
  obtain ⟨before, after, hbefore, hafter, rfl⟩ := h
  obtain ⟨front, c, rfl⟩ := (List.eq_nil_or_concat token).resolve_left hne
  refine ⟨before ++ front, c, after, by simp, htoken c (by simp), hafter, ?_⟩
  exact ⟨before, [], hbefore, isGap_nil, by simp⟩

theorem Spaced.upToLast_singleton {c : Char} (h : Spaced [c] cs) (hc : Text.isBlank c = false) :
    UpToLast (Spaced [c]) cs :=
  h.upToLast (List.cons_ne_nil c []) (List.forall_mem_singleton.2 hc)

/-- The gap after an expression may be left out. -/
theorem Form.WrittenAs.upToLast (h : (Form.expr level e).WrittenAs cs) :
    UpToLast (Form.expr level e).WrittenAs cs := by
  induction h using Form.WrittenAs.expr_induction with
  | tighter _ ih => exact ih.imp fun _ => .tighter
  | choose hcondition hquestion hyes hcolon _ _ _ ih =>
      simp only [← List.append_assoc]
      refine ih.append fun cs hcs => ?_
      simp only [List.append_assoc]
      exact .choose hcondition hquestion hyes hcolon hcs
  | leftward hop hleft hsign _ _ ih =>
      rw [← List.append_assoc]
      refine ih.append fun cs hcs => ?_
      rw [List.append_assoc]
      exact .leftward hop hleft hsign hcs
  | power hbase hsign _ _ ih =>
      rw [← List.append_assoc]
      refine ih.append fun cs hcs => ?_
      rw [List.append_assoc]
      exact .power hbase hsign hcs
  | signed hsign _ ih => exact ih.append fun cs hcs => .signed hsign hcs
  | number htoken hspaced =>
      obtain ⟨c, tail, rfl, -⟩ := htoken.head
      exact (hspaced.upToLast (List.cons_ne_nil c tail) htoken.blankFree).imp fun _ =>
        .number htoken
  | name hword hspaced =>
      obtain ⟨c, tail, rfl, -⟩ := hword.head
      exact (hspaced.upToLast (List.cons_ne_nil c tail) hword.blankFree).imp fun _ => .name hword
  | call hword hspaced hopening hargs hclosing =>
      simp only [← List.append_assoc]
      refine (hclosing.upToLast_singleton (by decide)).append fun cs hcs => ?_
      simp only [List.append_assoc]
      exact .call hword hspaced hopening hargs hcs
  | parentheses hopening he hclosing =>
      rw [← List.append_assoc]
      refine (hclosing.upToLast_singleton (by decide)).append fun cs hcs => ?_
      rw [List.append_assoc]
      exact .parentheses hopening he hcs

/-- The gap before an expression may be left out. -/
theorem Form.WrittenAs.skipGaps (h : (Form.expr 0 e).WrittenAs cs) :
    (Form.expr 0 e).WrittenAs (skipGaps cs) := by
  have hreads : Reads 0 e cs := (isRead_of_writtenAs h).1
  have hread : choice (depth cs) (Expr.skipGaps cs) = .parsed e (Expr.skipGaps []) := by
    change reader 0 (depth cs) _ = _
    refine hreads stops_nil ?_ le_rfl
    rw [skipGaps_skipGaps, List.append_nil]
  obtain ⟨front, hfront, heq⟩ := (sound _).choice hread
  rw [heq, Expr.skipGaps, List.dropWhile_nil, List.append_nil]
  exact hfront

theorem dropWhile_isBlank (h : GapsOnly cs) : cs.dropWhile Text.isBlank = skipGaps cs := by
  induction cs with
  | nil => rfl
  | cons c cs ih =>
      obtain ⟨hc, hcs⟩ := List.forall_mem_cons.1 h
      have hsame : Text.isBlank c = Text.isGap c := Bool.eq_iff_iff.2 ⟨hc, isBlank_of_isGap⟩
      rw [skipGaps, List.dropWhile_cons, List.dropWhile_cons, hsame]
      split
      · exact ih hcs
      · rfl

theorem reverse_dropWhile_isBlank_reverse {c : Char} (hc : Text.isBlank c = false)
    (hgap : IsGap gap) (front : List Char) :
    ((front ++ c :: gap).reverse.dropWhile Text.isBlank).reverse = front ++ [c] := by
  have hblank : ∀ d ∈ gap.reverse, Text.isBlank d = true := fun d hd =>
    isBlank_of_isGap (hgap d (List.mem_reverse.1 hd))
  rw [List.reverse_append, List.reverse_cons, List.append_assoc,
    List.dropWhile_append_of_pos hblank, List.singleton_append,
    List.dropWhile_cons_of_neg (by simp [hc])]
  simp

/-- Without the blanks at its ends a text is a text of the same tree. -/
theorem writtenAs_trimChars (h : (Form.expr 0 e).WrittenAs cs) :
    (Form.expr 0 e).WrittenAs (Text.trimChars cs) := by
  obtain ⟨front, c, gap, heq, hc, hgap, hfront⟩ := h.skipGaps.upToLast
  rw [Text.trimChars, dropWhile_isBlank h.gapsOnly, heq, reverse_dropWhile_isBlank_reverse hc hgap]
  exact hfront

end Expr

end RegisterBank
