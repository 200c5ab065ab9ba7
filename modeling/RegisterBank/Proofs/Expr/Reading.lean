import RegisterBank.Expr.Parser
import RegisterBank.Proofs.Expr.Ending

/-!
# What the readers find

A text of an expression that stands at the front is found there, if what follows it stops it. Three
things carry the induction over the rules of the grammar:

* The readers see a text after its leading gap, so a text is given up to that gap: any `text` with
  `skipGaps text = skipGaps (cs ++ rest)`.
* Operators that group to the left are read by a loop that has already found the left operand. For
  their levels the statement therefore says where the loop goes on, not where it ends (`ReadsOn`).
* Twenty units of depth for each character are enough: from one level to the next at most two are
  used up.

Here are the steps from each level to the next looser one and the rules for operators.
-/

namespace RegisterBank.Expr

variable {level n : Nat} {cs rest text : List Char} {e : Expr} {args : List Expr}

/-- The reader of a level. -/
def reader : (level depth : Nat) → List Char → Outcome Expr
  | 0, n => choice n
  | k + 1, n => if k ≤ 10 then chain n (leftLevels.drop k) else if k = 11 then signed n else primary n

/-- The reader of the level finds the expression wherever its text stands. -/
def Reads (level : Nat) (e : Expr) (cs : List Char) : Prop :=
  ∀ {rest text n}, Stops level rest → skipGaps text = skipGaps (cs ++ rest) →
    20 * (cs.length + 1) ≤ n + 2 * level → reader level n text = .parsed e (skipGaps rest)

/-- The reader of a level of operators comes to the loop that reads further operators of the level,
with the expression as the left operand. -/
def ReadsOn (k : Fin 10) (e : Expr) (cs : List Char) : Prop :=
  ∀ {rest text n}, Stops (k + 2) rest → skipGaps text = skipGaps (cs ++ rest) →
    20 * (cs.length + 1) ≤ n + 2 * (k + 1) →
      ∃ m, n ≤ m + cs.length ∧ chain n (leftLevels.drop k) text =
        chainRest m leftLevels[k] (leftLevels.drop (k + 1)) e (skipGaps rest)

/-- No operator with one operand stands at the front. -/
def Unsigned (cs : List Char) : Prop :=
  ∀ {rest text}, skipGaps text = skipGaps (cs ++ rest) → unaryOperator? text = none

/-- The readers agree with the rules on a piece of text. -/
def Form.IsRead : Form → List Char → Prop
  | .expr level e, cs =>
      Reads level e cs ∧ (∀ k : Fin 10, level = k + 1 → ReadsOn k e cs) ∧
        (level = 13 → Unsigned cs) ∧ level ≤ 13
  | .arguments args, cs =>
      ∀ {rest text n}, EndsToken rest → (skipGaps rest).head? = some ')' →
        skipGaps text = skipGaps (cs ++ rest) → 20 * (cs.length + 2) ≤ n →
          ∃ r, firstArgument n text = .parsed args r ∧ skipGaps r = skipGaps rest
  | .further args, cs =>
      ∀ {rest text n}, EndsToken rest → (skipGaps rest).head? = some ')' →
        skipGaps text = skipGaps (cs ++ rest) → 20 * (cs.length + 1) ≤ n →
          ∃ r, moreArguments n text = .parsed args r ∧ skipGaps r = skipGaps rest

theorem reader_succ {k : Nat} (hk : k ≤ 10) (n : Nat) :
    reader (k + 1) n = chain n (leftLevels.drop k) :=
  if_pos hk

/-! ## From tighter levels to looser ones -/

theorem readsOn_of_reads {k : Fin 10} (hlength : 0 < cs.length) (h : Reads (k + 2) e cs) :
    ReadsOn k e cs := by
  intro rest text n hstops htext hn
  obtain ⟨n, rfl⟩ : ∃ m, n = m + 1 := ⟨n - 1, by omega⟩
  refine ⟨n, by omega, ?_⟩
  have hread := h hstops htext (n := n) (by omega)
  rw [reader_succ (Nat.succ_le_of_lt k.isLt)] at hread
  rw [drop_leftLevels, chain, hread, Outcome.andThen_parsed]

theorem reads_of_readsOn {k : Fin 10} (hlength : 0 < cs.length) (h : ReadsOn k e cs) :
    Reads (k + 1) e cs := by
  intro rest text n hstops htext hn
  obtain ⟨m, hm, hchain⟩ := h (hstops.mono (Nat.le_succ _)) htext hn
  have hnone : operator? leftLevels[k] (skipGaps rest) = none := by
    rw [operator?_skipGaps]
    exact hstops.noOperator k le_rfl
  have hk : (k : Nat) < 10 := k.isLt
  obtain ⟨m, rfl⟩ : ∃ m', m = m' + 1 := ⟨m - 1, by omega⟩
  rw [reader_succ hk.le, hchain, chainRest, hnone]

theorem reads_zero (h : Reads 1 e cs) : Reads 0 e cs := by
  intro rest text n hstops htext hn
  obtain ⟨n, rfl⟩ : ∃ m, n = m + 1 := ⟨n - 1, by omega⟩
  have hread : chain n leftLevels text = .parsed e (skipGaps rest) :=
    h (hstops.mono (Nat.zero_le 1)) htext (by omega)
  have hnone : sign? ['?'] (skipGaps rest) = none := by
    rw [sign?_skipGaps]
    exact hstops.noQuestion rfl
  change choice (n + 1) text = _
  rw [choice, hread, Outcome.andThen_parsed, hnone]

theorem reads_eleven (hlength : 0 < cs.length) (h : Reads 12 e cs) : Reads 11 e cs := by
  intro rest text n hstops htext hn
  obtain ⟨n, rfl⟩ : ∃ m, n = m + 2 := ⟨n - 2, by omega⟩
  have hread : signed n text = .parsed e (skipGaps rest) :=
    h (hstops.mono (Nat.le_succ 11)) htext (by omega)
  have hnone : sign? ['*', '*'] (skipGaps rest) = none := by
    rw [sign?_skipGaps]
    exact hstops.noPower le_rfl
  change power (n + 1) text = _
  rw [power, hread, Outcome.andThen_parsed, hnone]

theorem reads_twelve (hlength : 0 < cs.length) (hunsigned : Unsigned cs) (h : Reads 13 e cs) :
    Reads 12 e cs := by
  intro rest text n hstops htext hn
  obtain ⟨n, rfl⟩ : ∃ m, n = m + 1 := ⟨n - 1, by omega⟩
  have hread : primary n text = .parsed e (skipGaps rest) :=
    h (hstops.mono (Nat.le_succ 12)) htext (by omega)
  change signed (n + 1) text = _
  rw [signed, hunsigned htext, hread]

/-- What is read at a level is read at the next looser one. -/
theorem isRead_of_tighter (hlength : 0 < cs.length)
    (h : (Form.expr (level + 1) e).IsRead cs) : (Form.expr level e).IsRead cs := by
  obtain ⟨hreads, -, hunsigned, hlevel⟩ := h
  have hloop : ∀ k : Fin 10, level = k + 1 → ReadsOn k e cs := by
    rintro k rfl
    exact readsOn_of_reads hlength hreads
  have hne : level ≠ 13 := by omega
  refine ⟨?_, hloop, fun h => absurd h hne, Nat.le_of_succ_le hlevel⟩
  rcases Nat.eq_zero_or_pos level with rfl | hpos
  · exact reads_zero hreads
  · by_cases hleft : level ≤ 10
    · obtain ⟨k, rfl⟩ : ∃ k, level = k + 1 := ⟨level - 1, by omega⟩
      exact reads_of_readsOn hlength (hloop ⟨k, hleft⟩ rfl)
    · obtain rfl | rfl : level = 11 ∨ level = 12 := by omega
      · exact reads_eleven hlength hreads
      · exact reads_twelve hlength (hunsigned rfl) hreads

/-! ## The rules for operators -/

theorem operator?_spaced {op : BinaryOp} {k : Fin 10} {sign : List Char} (hop : op ≠ .power)
    (hk : op.level = k + 1) (hsign : Spaced op.sign sign)
    (htext : skipGaps text = skipGaps (sign ++ rest)) (hrest : EndsSign rest) :
    operator? leftLevels[k] text = some (op, skipGaps rest) := by
  obtain ⟨c, tail, hcons, -, hgap, -⟩ := BinaryOp.sign_head op
  rw [hcons] at hsign
  obtain ⟨after, hafter, heq⟩ := hsign.skipGaps_append hgap rest
  rw [← hcons, ← htext] at heq
  rw [operator?_complete hop hk heq (hrest.append_of_isGap hafter), skipGaps_append hafter]

theorem readsOn_leftward {op : BinaryOp} {k : Fin 10} {left right : Expr}
    {ls sign rs : List Char} (hop : op ≠ .power) (hk : op.level = k + 1)
    (hleft : ReadsOn k left ls) (hsign : Spaced op.sign sign)
    (hwritten : (Form.expr (k + 2) right).WrittenAs rs) (hright : Reads (k + 2) right rs) :
    ReadsOn k (.binary op left right) (ls ++ (sign ++ rs)) := by
  intro rest text n hstops htext hn
  simp only [List.append_assoc] at htext
  simp only [List.length_append] at hn ⊢
  have hends : EndsSign (rs ++ rest) := hwritten.endsSign rest
  have hoperator : operator? leftLevels[k] (skipGaps (sign ++ (rs ++ rest))) =
      some (op, skipGaps (rs ++ rest)) :=
    operator?_spaced hop hk hsign (skipGaps_skipGaps _) hends
  have hstops' : Stops (k + 2) (sign ++ (rs ++ rest)) := by
    have h := hsign.stops_operator hends
    rwa [hk] at h
  have hlength : 0 < sign.length := by
    obtain ⟨c, tail, hcons, -⟩ := BinaryOp.sign_head op
    rw [hcons] at hsign
    exact hsign.length_pos
  obtain ⟨m, hm, hchain⟩ := hleft hstops' htext (n := n) (by omega)
  have hlt : (k : Nat) < 10 := k.isLt
  obtain ⟨m, rfl⟩ : ∃ m', m = m' + 1 := ⟨m - 1, by omega⟩
  refine ⟨m, by omega, ?_⟩
  have hread := hright hstops (skipGaps_skipGaps (rs ++ rest)) (n := m) (by omega)
  rw [reader_succ hlt] at hread
  rw [hchain, chainRest, hoperator]
  simp only
  rw [hread, Outcome.required_parsed, Outcome.andThen_parsed]

theorem reads_power {base exponent : Expr} {bs sign es : List Char} (hbase : Reads 12 base bs)
    (hsign : Spaced BinaryOp.power.sign sign)
    (hwritten : (Form.expr 11 exponent).WrittenAs es) (hexponent : Reads 11 exponent es) :
    Reads 11 (.binary .power base exponent) (bs ++ (sign ++ es)) := by
  intro rest text n hstops htext hn
  simp only [List.append_assoc] at htext
  simp only [List.length_append] at hn
  have hstops' : Stops 12 (sign ++ (es ++ rest)) := hsign.stops_operator (hwritten.endsSign rest)
  have hlength : 0 < sign.length := hsign.length_pos
  have hlength' : 0 < es.length := hwritten.length_pos
  obtain ⟨n, rfl⟩ : ∃ m, n = m + 2 := ⟨n - 2, by omega⟩
  have hfirst : signed n text = .parsed base (skipGaps (sign ++ (es ++ rest))) :=
    hbase hstops' htext (by omega)
  have hfound : sign? ['*', '*'] (skipGaps (sign ++ (es ++ rest))) =
      some (skipGaps (es ++ rest)) :=
    sign?_complete hsign (by decide) (skipGaps_skipGaps _)
  have hsecond : power n (skipGaps (es ++ rest)) = .parsed exponent (skipGaps rest) :=
    hexponent hstops (skipGaps_skipGaps _) (n := n + 1) (by omega)
  change power (n + 1) text = _
  rw [power, hfirst, Outcome.andThen_parsed, hfound]
  simp only
  rw [hsecond, Outcome.required_parsed, Outcome.andThen_parsed]

theorem reads_signed {op : UnaryOp} {operand : Expr} {sign os : List Char}
    (hsign : Spaced op.sign sign) (hwritten : (Form.expr 12 operand).WrittenAs os)
    (hoperand : Reads 12 operand os) : Reads 12 (.unary op operand) (sign ++ os) := by
  intro rest text n hstops htext hn
  rw [List.append_assoc] at htext
  rw [List.length_append] at hn
  have hlength : 0 < sign.length := by
    cases op <;> exact hsign.length_pos
  obtain ⟨n, rfl⟩ : ∃ m, n = m + 1 := ⟨n - 1, by omega⟩
  have hfound := unaryOperator?_complete hsign htext (hwritten.endsSign rest)
  have hread : signed n (skipGaps (os ++ rest)) = .parsed operand (skipGaps rest) :=
    hoperand hstops (skipGaps_skipGaps _) (by omega)
  change signed (n + 1) text = _
  rw [signed, hfound]
  simp only
  rw [hread, Outcome.required_parsed, Outcome.andThen_parsed]

theorem reads_choose {condition yes no : Expr} {cs question ys colon ns : List Char}
    (hcondition : Reads 1 condition cs) (hquestion : Spaced ['?'] question)
    (hyes : Reads 0 yes ys) (hcolon : Spaced [':'] colon) (hno : Reads 0 no ns) :
    Reads 0 (.choose condition yes no) (cs ++ (question ++ (ys ++ (colon ++ ns)))) := by
  intro rest text n hstops htext hn
  simp only [List.append_assoc] at htext
  simp only [List.length_append] at hn
  have hlength := hquestion.length_pos
  have hlength' := hcolon.length_pos
  obtain ⟨n, rfl⟩ : ∃ m, n = m + 1 := ⟨n - 1, by omega⟩
  have hfirst : chain n leftLevels text =
      .parsed condition (skipGaps (question ++ (ys ++ (colon ++ (ns ++ rest))))) :=
    hcondition (hquestion.stops_question _) htext (by omega)
  have hfound : sign? ['?'] (skipGaps (question ++ (ys ++ (colon ++ (ns ++ rest))))) =
      some (skipGaps (ys ++ (colon ++ (ns ++ rest)))) :=
    sign?_complete hquestion (by decide) (skipGaps_skipGaps _)
  have hsecond : choice n (skipGaps (ys ++ (colon ++ (ns ++ rest)))) =
      .parsed yes (skipGaps (colon ++ (ns ++ rest))) :=
    hyes (hcolon.stops (by decide) _) (skipGaps_skipGaps _) (by omega)
  have hfound' : sign? [':'] (skipGaps (colon ++ (ns ++ rest))) =
      some (skipGaps (ns ++ rest)) :=
    sign?_complete hcolon (by decide) (skipGaps_skipGaps _)
  have hthird : choice n (skipGaps (ns ++ rest)) = .parsed no (skipGaps rest) :=
    hno hstops (skipGaps_skipGaps _) (by omega)
  change choice (n + 1) text = _
  rw [choice, hfirst, Outcome.andThen_parsed, hfound]
  simp only
  rw [hsecond, Outcome.required_parsed, Outcome.andThen_parsed, hfound']
  simp only
  rw [hthird, Outcome.required_parsed, Outcome.andThen_parsed]

end RegisterBank.Expr
