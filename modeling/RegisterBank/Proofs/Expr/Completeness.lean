import RegisterBank.Proofs.Expr.Reading
import RegisterBank.Proofs.Expr.Soundness

/-!
# What is written is read

The rules for operands and for arguments complete the induction over the grammar. With the other
direction, `parse_eq_ok_iff` says that reading a whole text and the grammar agree.
-/

namespace RegisterBank.Expr

variable {level n : Nat} {cs rest text : List Char} {e : Expr} {args : List Expr}

/-! ## The rules for operands -/

theorem Unsigned.append (h : Unsigned cs) (tail : List Char) : Unsigned (cs ++ tail) := by
  intro rest text htext
  rw [List.append_assoc] at htext
  exact h htext

theorem unsigned_of_spaced {c : Char} {token : List Char} (hspaced : Spaced (c :: token) cs)
    (hgap : Text.isGap c = false) (hsign : c ∉ ['-', '~', '!']) : Unsigned cs := by
  intro rest text htext
  apply unaryOperator?_eq_none
  rw [htext, hspaced.head?_skipGaps hgap, List.mem_map_of_injective (Option.some_injective Char)]
  exact hsign

theorem isGap_eq_false_of_isWordChar {c : Char} (h : isWordChar c = true) :
    Text.isGap c = false := by
  rw [Bool.eq_false_iff]
  intro hgap
  simp only [Text.isGap, Bool.or_eq_true, beq_iff_eq] at hgap
  rcases hgap with ((rfl | rfl) | rfl) | rfl <;> revert h <;> decide

theorem not_mem_signs_of_isWordChar {c : Char} (h : isWordChar c = true) :
    c ∉ ['-', '~', '!'] := by
  intro hc
  simp only [List.mem_cons, List.not_mem_nil, or_false] at hc
  rcases hc with rfl | rfl | rfl <;> revert h <;> decide

/-- Numbers begin neither with a gap nor with a sign. -/
theorem IsNumber.plain_head {v : Nat} {token : List Char} (h : IsNumber v token) :
    ∃ c tail, token = c :: tail ∧ Text.isGap c = false ∧ c ∉ ['-', '~', '!'] := by
  obtain ⟨c, tail, rfl, hc⟩ := h.head
  refine ⟨c, tail, rfl, ?_⟩
  rcases hc with hdigit | rfl
  · have hword := isWordChar_of_isDigit hdigit
    exact ⟨isGap_eq_false_of_isWordChar hword, not_mem_signs_of_isWordChar hword⟩
  · decide

/-- Names begin neither with a gap nor with a sign, and not as a number does. -/
theorem IsWord.plain_head {word : List Char} {name : String} (h : IsWord word name) :
    ∃ c tail, word = c :: tail ∧ Text.isGap c = false ∧ c ∉ ['-', '~', '!'] ∧
      c.isDigit = false ∧ c ≠ baseMark := by
  obtain ⟨c, tail, rfl, hc⟩ := h.head
  refine ⟨c, tail, rfl, ?_⟩
  rcases hc with hstart | hmarker
  · have hword := isWordChar_of_isWordStart hstart
    refine ⟨isGap_eq_false_of_isWordChar hword, not_mem_signs_of_isWordChar hword, ?_, ?_⟩
    · exact isDigit_eq_false_of_isWordStart hstart
    · rintro rfl
      exact absurd hstart (by decide)
  · have hc : c = macroMark ∨ c = '$' := by simpa [isMarker] using hmarker
    rcases hc with rfl | rfl <;> decide

theorem reads_number {v : Nat} {token : List Char} (htoken : IsNumber v token)
    (hspaced : Spaced token cs) : Reads 13 (.number v) cs := by
  intro rest text n hstops htext hn
  obtain ⟨c, tail, rfl, hgap, -⟩ := htoken.plain_head
  have hlength := hspaced.length_pos
  obtain ⟨n, rfl⟩ : ∃ m, n = m + 1 := ⟨n - 1, by omega⟩
  obtain ⟨after, hafter, heq⟩ := hspaced.skipGaps_append hgap rest
  have hnumber := number?_complete htoken (hstops.token.append_of_isGap hafter)
  change primary (n + 1) text = _
  rw [primary, htext, heq, hnumber]
  simp only
  rw [skipGaps_append hafter]

theorem arguments_eq_absent (h : (skipGaps text).head? ≠ some '(') :
    arguments (n + 1) text = .absent text := by
  rw [arguments]
  split
  · rename_i r heq
    rw [heq] at h
    exact absurd rfl h
  · rfl

theorem reads_name {name : String} {word : List Char} (hword : IsWord word name)
    (hspaced : Spaced word cs) : Reads 13 (.name name) cs := by
  intro rest text n hstops htext hn
  obtain ⟨c, tail, rfl, hgap, -, hdigit, hmark⟩ := hword.plain_head
  have hlength := hspaced.length_pos
  obtain ⟨n, rfl⟩ : ∃ m, n = m + 2 := ⟨n - 2, by omega⟩
  obtain ⟨after, hafter, heq⟩ := hspaced.skipGaps_append hgap rest
  have hnumber : number? (c :: tail ++ (after ++ rest)) = none :=
    number?_eq_none ⟨hdigit, hmark⟩ _
  have hfound := word?_complete hword (hstops.token.append_of_isGap hafter)
  have hskip : skipGaps (after ++ rest) = skipGaps rest := skipGaps_append hafter rest
  have hargs : arguments (n + 1) (after ++ rest) = .absent (after ++ rest) := by
    apply arguments_eq_absent
    rw [hskip]
    exact hstops.noParenthesis
  change primary (n + 2) text = _
  rw [primary, htext, heq, hnumber]
  simp only
  rw [hfound]
  simp only
  rw [hargs]
  simp only
  rw [hword.parameterOf_eq, hskip]

theorem reads_call {name : String} {word ws opening as closing : List Char}
    (hword : IsWord word name) (hspaced : Spaced word ws) (hopening : Spaced ['('] opening)
    (hargs : (Form.arguments args).IsRead as) (hclosing : Spaced [')'] closing) :
    Reads 13 (.call (String.ofList word) args) (ws ++ (opening ++ (as ++ closing))) := by
  intro rest text n hstops htext hn
  simp only [List.append_assoc] at htext
  simp only [List.length_append] at hn
  obtain ⟨c, tail, rfl, hgap, -, hdigit, hmark⟩ := hword.plain_head
  have hws := hspaced.length_pos
  have hos := hopening.length_pos
  have hcs := hclosing.length_pos
  obtain ⟨n, rfl⟩ : ∃ m, n = m + 2 := ⟨n - 2, by omega⟩
  obtain ⟨after, hafter, heq⟩ := hspaced.skipGaps_append hgap (opening ++ (as ++ (closing ++ rest)))
  obtain ⟨inner, hinner, heq'⟩ := hopening.skipGaps_append (by decide) (as ++ (closing ++ rest))
  have hnumber : number? (c :: tail ++ (after ++ (opening ++ (as ++ (closing ++ rest))))) = none :=
    number?_eq_none ⟨hdigit, hmark⟩ _
  have hends : EndsToken (opening ++ (as ++ (closing ++ rest))) :=
    hopening.endsToken (by decide) _
  have hfound := word?_complete hword (hends.append_of_isGap hafter)
  obtain ⟨r, hfirst, hr⟩ := hargs (hclosing.endsToken (by decide) rest)
    (hclosing.head?_skipGaps (by decide) rest) (skipGaps_append hinner _) (n := n) (by omega)
  have hclose : sign? [')'] r = some (skipGaps rest) := sign?_complete hclosing (by decide) hr
  have harguments : arguments (n + 1) (after ++ (opening ++ (as ++ (closing ++ rest)))) =
      .parsed args (skipGaps rest) := by
    rw [arguments, skipGaps_append hafter, heq']
    simp only [List.singleton_append]
    rw [hfirst, Outcome.andThen_parsed, hclose]
  change primary (n + 2) text = _
  rw [primary, htext, heq, hnumber]
  simp only
  rw [hfound]
  simp only
  rw [harguments]
  simp only [skipGaps_skipGaps]

theorem reads_parentheses {opening closing : List Char} (hopening : Spaced ['('] opening)
    (he : Reads 0 e cs) (hclosing : Spaced [')'] closing) :
    Reads 13 e (opening ++ (cs ++ closing)) := by
  intro rest text n hstops htext hn
  simp only [List.append_assoc] at htext
  simp only [List.length_append] at hn
  have hos := hopening.length_pos
  have hcs := hclosing.length_pos
  obtain ⟨n, rfl⟩ : ∃ m, n = m + 1 := ⟨n - 1, by omega⟩
  obtain ⟨inner, hinner, heq⟩ := hopening.skipGaps_append (by decide) (cs ++ (closing ++ rest))
  have hnumber : number? ('(' :: (inner ++ (cs ++ (closing ++ rest)))) = none :=
    number?_eq_none (by decide) _
  have hword : word? ('(' :: (inner ++ (cs ++ (closing ++ rest)))) = none :=
    word?_eq_none (by decide) _
  have hread : choice n (inner ++ (cs ++ (closing ++ rest))) =
      .parsed e (skipGaps (closing ++ rest)) :=
    he (hclosing.stops (by decide) rest) (skipGaps_append hinner _) (by omega)
  have hclose : sign? [')'] (skipGaps (closing ++ rest)) = some (skipGaps rest) :=
    sign?_complete hclosing (by decide) (skipGaps_skipGaps _)
  change primary (n + 1) text = _
  rw [primary, htext, heq, List.singleton_append, hnumber]
  simp only
  rw [hword]
  simp only
  rw [hread, Outcome.andThen_parsed, hclose]

/-! ## The rules for arguments -/

/-- Characters that begin no operand. -/
def nonStarters : List Char :=
  [')', '+']

theorem nonStarters_spec : ∀ c ∈ nonStarters, c ∉ ['-', '~', '!'] ∧
    (c.isDigit = false ∧ c ≠ baseMark) ∧ (isWordStart c = false ∧ isMarker c = false) ∧
      c ≠ '(' := by
  intro c hc
  rcases List.mem_pair.1 hc with rfl | rfl <;> decide

/-- No expression begins with a closing parenthesis or a plus sign. -/
theorem chain_eq_absent {c : Char} (hc : c ∈ nonStarters) (h : (skipGaps text).head? = some c)
    (levels : List (List Operator)) :
    chain (levels.length + (n + 4)) levels text = .absent (skipGaps text) := by
  induction levels with
  | nil =>
      obtain ⟨hsign, hdigit, hstart, hparenthesis⟩ := nonStarters_spec c hc
      obtain ⟨tail, htail⟩ := List.head?_eq_some_iff.1 h
      have hunary : unaryOperator? text = none := by
        apply unaryOperator?_eq_none
        rw [h, List.mem_map_of_injective (Option.some_injective Char)]
        exact hsign
      have hnumber : number? (c :: tail) = none := number?_eq_none hdigit _
      have hword : word? (c :: tail) = none := word?_eq_none hstart _
      have hprimary : primary (n + 1) text = .absent (skipGaps text) := by
        rw [primary, htail, hnumber]
        simp only
        rw [hword]
        simp only
        split
        · rename_i heq
          exact absurd (List.cons.inj heq).1 hparenthesis
        · rfl
      rw [List.length_nil, Nat.zero_add, chain, power, signed, hunary]
      simp only
      rw [hprimary, Outcome.andThen_absent]
  | cons ops levels ih =>
      rw [List.length_cons, Nat.succ_add, chain, ih, Outcome.andThen_absent]

theorem choice_eq_absent {c : Char} (hc : c ∈ nonStarters) (h : (skipGaps text).head? = some c) :
    choice (n + 15) text = .absent (skipGaps text) := by
  have hchain : chain (n + 14) leftLevels text = .absent (skipGaps text) := by
    have hdepth : n + 14 = leftLevels.length + (n + 4) := by
      simp only [leftLevels, List.length_cons, List.length_nil]
      omega
    rw [hdepth, chain_eq_absent hc h]
  rw [choice, hchain, Outcome.andThen_absent]

/-- What may follow an argument stops it. -/
theorem Form.WrittenAs.stops {as : List Char} (h : (Form.further args).WrittenAs as)
    (htoken : EndsToken rest) (hhead : (skipGaps rest).head? = some ')') :
    Stops 0 (as ++ rest) := by
  cases h with
  | noFurther =>
      refine stops_zero htoken ?_
      change (skipGaps rest).head? ∉ _
      rw [hhead]
      decide
  | nextArgument hcomma =>
      rw [List.append_assoc]
      exact hcomma.stops (by decide) _

theorem isRead_noArguments : (Form.arguments []).IsRead [] := by
  intro rest text n htoken hhead htext hn
  rw [List.nil_append] at htext
  rw [List.length_nil] at hn
  obtain ⟨n, rfl⟩ : ∃ m, n = m + 16 := ⟨n - 16, by omega⟩
  rw [← htext] at hhead
  refine ⟨text, ?_, htext⟩
  rw [Expr.firstArgument, choice_eq_absent (by decide) hhead]

theorem isRead_firstArgument {as : List Char} (hlength : 0 < cs.length) (he : Reads 0 e cs)
    (hwritten : (Form.further args).WrittenAs as) (has : (Form.further args).IsRead as) :
    (Form.arguments (e :: args)).IsRead (cs ++ as) := by
  intro rest text n htoken hhead htext hn
  rw [List.append_assoc] at htext
  rw [List.length_append] at hn
  obtain ⟨n, rfl⟩ : ∃ m, n = m + 1 := ⟨n - 1, by omega⟩
  have hread : choice n text = .parsed e (skipGaps (as ++ rest)) :=
    he (hwritten.stops htoken hhead) htext (by omega)
  obtain ⟨r, hmore, hr⟩ := has htoken hhead (skipGaps_skipGaps _) (n := n) (by omega)
  refine ⟨r, ?_, hr⟩
  rw [Expr.firstArgument, hread]
  simp only
  rw [hmore, Outcome.andThen_parsed]

theorem isRead_noFurther : (Form.further []).IsRead [] := by
  intro rest text n htoken hhead htext hn
  rw [List.nil_append] at htext
  rw [List.length_nil] at hn
  obtain ⟨n, rfl⟩ : ∃ m, n = m + 1 := ⟨n - 1, by omega⟩
  have hnone : sign? [','] text = none := by
    apply sign?_eq_none_of_head
    rw [htext, hhead]
    decide
  refine ⟨text, ?_, htext⟩
  rw [moreArguments, hnone]

theorem isRead_nextArgument {comma as : List Char} (hcomma : Spaced [','] comma)
    (he : Reads 0 e cs) (hwritten : (Form.further args).WrittenAs as)
    (has : (Form.further args).IsRead as) :
    (Form.further (e :: args)).IsRead (comma ++ (cs ++ as)) := by
  intro rest text n htoken hhead htext hn
  simp only [List.append_assoc] at htext
  simp only [List.length_append] at hn
  have hlength := hcomma.length_pos
  obtain ⟨n, rfl⟩ : ∃ m, n = m + 1 := ⟨n - 1, by omega⟩
  have hfound : sign? [','] text = some (skipGaps (cs ++ (as ++ rest))) :=
    sign?_complete hcomma (by decide) htext
  have hread : choice n (skipGaps (cs ++ (as ++ rest))) = .parsed e (skipGaps (as ++ rest)) :=
    he (hwritten.stops htoken hhead) (skipGaps_skipGaps _) (by omega)
  obtain ⟨r, hmore, hr⟩ := has htoken hhead (skipGaps_skipGaps _) (n := n) (by omega)
  refine ⟨r, ?_, hr⟩
  rw [moreArguments, hfound]
  simp only
  rw [hread]
  simp only
  rw [hmore, Outcome.andThen_parsed]

/-! ## Whole texts -/

theorem isRead_loosest (h : Reads 0 e cs) : (Form.expr 0 e).IsRead cs :=
  ⟨h, fun k hk => absurd hk (Nat.succ_ne_zero k).symm, fun h => absurd h (by decide), by decide⟩

theorem isRead_tightest (hunsigned : Unsigned cs) (h : Reads 13 e cs) :
    (Form.expr 13 e).IsRead cs := by
  refine ⟨h, ?_, fun _ => hunsigned, le_rfl⟩
  intro k hk
  omega

theorem level_eq_of_ne_power {op : BinaryOp} (hop : op ≠ .power) :
    ∃ k : Fin 10, op.level = k + 1 := by
  cases op <;> revert hop <;> decide

/-- Every rule of the grammar is kept by the readers. -/
theorem isRead_of_writtenAs {form : Form} (h : form.WrittenAs cs) : form.IsRead cs := by
  induction h with
  | tighter h ih => exact isRead_of_tighter h.length_pos ih
  | choose hcondition hquestion hyes hcolon hno ihcondition ihyes ihno =>
      exact isRead_loosest (reads_choose ihcondition.1 hquestion ihyes.1 hcolon ihno.1)
  | @leftward op left right ls sign rs hop hleft hsign hright ihleft ihright =>
      obtain ⟨k, hk⟩ := level_eq_of_ne_power hop
      rw [hk] at hright ihleft ihright ⊢
      have hloop : ReadsOn k (.binary op left right) (ls ++ (sign ++ rs)) :=
        readsOn_leftward hop hk (ihleft.2.1 k rfl) hsign hright ihright.1
      have hlength : 0 < (ls ++ (sign ++ rs)).length := by
        have hpos := hleft.length_pos
        rw [List.length_append]
        omega
      refine ⟨reads_of_readsOn hlength hloop, ?_, by omega, by omega⟩
      intro k' hk'
      obtain rfl : k = k' := Fin.ext (Nat.succ.inj hk')
      exact hloop
  | power hbase hsign hexponent ihbase ihexponent =>
      refine ⟨reads_power ihbase.1 hsign hexponent ihexponent.1, ?_, by omega, by omega⟩
      intro k hk
      omega
  | signed hsign hoperand ih =>
      refine ⟨reads_signed hsign hoperand ih.1, ?_, by omega, by omega⟩
      intro k hk
      omega
  | number htoken hspaced =>
      obtain ⟨c, tail, rfl, hgap, hsign⟩ := htoken.plain_head
      exact isRead_tightest (unsigned_of_spaced hspaced hgap hsign) (reads_number htoken hspaced)
  | name hword hspaced =>
      obtain ⟨c, tail, rfl, hgap, hsign, -⟩ := hword.plain_head
      exact isRead_tightest (unsigned_of_spaced hspaced hgap hsign) (reads_name hword hspaced)
  | call hword hspaced hopening hargs hclosing ih =>
      obtain ⟨c, tail, rfl, hgap, hsign, -⟩ := hword.plain_head
      have hunsigned : Unsigned _ := unsigned_of_spaced hspaced hgap hsign
      exact isRead_tightest (Unsigned.append hunsigned _)
        (reads_call hword hspaced hopening ih hclosing)
  | parentheses hopening he hclosing ih =>
      have hunsigned : Unsigned _ := unsigned_of_spaced hopening (by decide) (by decide)
      exact isRead_tightest (Unsigned.append hunsigned _)
        (reads_parentheses hopening ih.1 hclosing)
  | noArguments => exact isRead_noArguments
  | firstArgument he hargs ihe ihargs =>
      exact isRead_firstArgument he.length_pos ihe.1 hargs ihargs
  | noFurther => exact isRead_noFurther
  | nextArgument hcomma he hargs ihe ihargs =>
      exact isRead_nextArgument hcomma ihe.1 hargs ihargs

/-- Every text of a tree is read as that tree. -/
theorem parse_eq_ok_of_writtenAs (h : (Form.expr 0 e).WrittenAs cs) : parse cs = .ok e := by
  have hread : choice (depth cs) cs = .parsed e (skipGaps []) := by
    have hreads : Reads 0 e cs := (isRead_of_writtenAs h).1
    change reader 0 (depth cs) cs = _
    refine hreads stops_nil ?_ ?_
    · rw [List.append_nil]
    · exact le_rfl
  unfold parse
  rw [hread]
  rfl

/-- The grammar gives a text one tree only. -/
theorem Form.WrittenAs.unique {e' : Expr} (h : (Form.expr 0 e).WrittenAs cs)
    (h' : (Form.expr 0 e').WrittenAs cs) : e = e' :=
  Except.ok.inj ((parse_eq_ok_of_writtenAs h).symm.trans (parse_eq_ok_of_writtenAs h'))

theorem Form.WrittenAs.head?_not_mem_nonStarters (h : (Form.expr 0 e).WrittenAs cs) {c : Char}
    (hhead : (Expr.skipGaps cs).head? = some c) : c ∉ nonStarters := by
  intro hc
  have hreads : Reads 0 e cs := (isRead_of_writtenAs h).1
  have hread : reader 0 (depth cs) cs = .parsed e (Expr.skipGaps []) :=
    hreads stops_nil (by rw [List.append_nil]) le_rfl
  obtain ⟨k, hk⟩ : ∃ k, depth cs = k + 15 := ⟨depth cs - 15, by rw [depth]; omega⟩
  rw [reader, hk, choice_eq_absent hc hhead] at hread
  cases hread

/-- Reading a whole text finds a tree exactly if the grammar writes that tree as the text: all
precedences, groupings, tokens and gaps are those of the grammar, and nothing else is accepted. -/
theorem parse_eq_ok_iff (cs : List Char) (e : Expr) :
    parse cs = .ok e ↔ (Form.expr 0 e).WrittenAs cs := by
  constructor
  · exact writtenAs_of_parse_eq_ok
  · exact parse_eq_ok_of_writtenAs

end RegisterBank.Expr
