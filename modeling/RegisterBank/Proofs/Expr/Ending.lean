import RegisterBank.Proofs.Expr.Operators
import RegisterBank.Proofs.Expr.Token.Name
import RegisterBank.Proofs.Expr.Token.Number

/-!
# Where texts of expressions begin and end

An expression ends where nothing that follows could prolong it at its level (`Stops`): the tokens
that the grammar puts after an expression all stop it. No text of an expression begins with a
character that could prolong the sign of an operator before it.
-/

namespace RegisterBank.Expr

variable {level : Nat} {cs rest : List Char} {e : Expr} {args : List Expr}

/-! ## What cannot prolong an expression -/

/-- The characters cannot prolong an expression of the level that stands before them. -/
structure Stops (level : Nat) (rest : List Char) : Prop where
  token : EndsToken rest
  noParenthesis : (skipGaps rest).head? ≠ some '('
  noOperator : ∀ k : Fin 10, level ≤ k + 1 → operator? leftLevels[k] rest = none
  noPower : level ≤ 11 → sign? ['*', '*'] rest = none
  noQuestion : level = 0 → sign? ['?'] rest = none

theorem Stops.mono {tighter : Nat} (h : Stops level rest) (hle : level ≤ tighter) :
    Stops tighter rest where
  token := h.token
  noParenthesis := h.noParenthesis
  noOperator k hk := h.noOperator k (hle.trans hk)
  noPower hk := h.noPower (hle.trans hk)
  noQuestion hk := h.noQuestion (Nat.le_zero.1 (hk ▸ hle))

theorem sign?_skipGaps (sign cs : List Char) : sign? sign (skipGaps cs) = sign? sign cs := by
  rw [sign?, sign?, skipGaps_skipGaps]

theorem sign?_eq_none_of_head {c : Char} {sign : List Char}
    (h : (skipGaps cs).head? ≠ some c) : sign? (c :: sign) cs = none := by
  rw [sign?, after?_eq_none_of_head?_ne (by simp) h, Option.map_none]

theorem operator?_skipGaps (ops : List Operator) (cs : List Char) :
    operator? ops (skipGaps cs) = operator? ops cs := by
  rw [operator?, operator?, skipGaps_skipGaps]

/-- Where neither an operator nor an opening parenthesis begins, every expression ends that is no
condition. -/
theorem stops_one (htoken : EndsToken rest)
    (hhead : (skipGaps rest).head? ∉ ('(' :: signHeads).map some) : Stops 1 rest := by
  rw [List.map_cons, List.mem_cons, not_or] at hhead
  have hpower : (skipGaps rest).head? ≠ some '*' := by
    intro heq
    exact hhead.2 (heq ▸ by decide)
  exact
    { token := htoken
      noParenthesis := hhead.1
      noOperator := fun k _ => operator?_eq_none_of_head hhead.2
      noPower := fun _ => sign?_eq_none_of_head hpower
      noQuestion := fun h => absurd h one_ne_zero }

theorem stops_zero (htoken : EndsToken rest)
    (hhead : (skipGaps rest).head? ∉ ('?' :: '(' :: signHeads).map some) : Stops 0 rest := by
  rw [List.map_cons, List.mem_cons, not_or] at hhead
  have hone := stops_one htoken hhead.2
  exact
    { token := htoken
      noParenthesis := hone.noParenthesis
      noOperator := fun k _ => hone.noOperator k (Nat.le_add_left 1 k)
      noPower := fun _ => hone.noPower (by decide)
      noQuestion := fun _ => sign?_eq_none_of_head hhead.1 }

theorem stops_nil : Stops 0 [] := by
  apply stops_zero
  · intro c hc
    cases hc
  · decide

theorem Spaced.head?_skipGaps {c : Char} {token : List Char} (hspaced : Spaced (c :: token) cs)
    (hc : Text.isGap c = false) (rest : List Char) : (skipGaps (cs ++ rest)).head? = some c := by
  obtain ⟨after, -, heq⟩ := hspaced.skipGaps_append hc rest
  rw [heq]
  rfl

theorem Spaced.endsToken {c : Char} {token : List Char} (hspaced : Spaced (c :: token) cs)
    (hc : isWordChar c = false ∧ c ≠ baseMark) (rest : List Char) : EndsToken (cs ++ rest) := by
  obtain ⟨before, after, hbefore, -, rfl⟩ := hspaced
  rw [List.append_assoc]
  exact (endsToken_cons hc _).append_of_isGap hbefore

/-- A colon, a comma and a closing parenthesis stop every expression. -/
theorem Spaced.stops {c : Char} (hspaced : Spaced [c] cs) (hc : c ∈ [':', ',', ')'])
    (rest : List Char) : Stops 0 (cs ++ rest) := by
  simp only [List.mem_cons, List.not_mem_nil, or_false] at hc
  rcases hc with rfl | rfl | rfl <;>
    refine stops_zero (hspaced.endsToken (by decide) rest) ?_ <;>
      rw [hspaced.head?_skipGaps (by decide) rest] <;> decide

/-- A question mark stops every expression of which it could make a condition. -/
theorem Spaced.stops_question (hspaced : Spaced ['?'] cs) (rest : List Char) :
    Stops 1 (cs ++ rest) := by
  refine stops_one (hspaced.endsToken (by decide) rest) ?_
  rw [hspaced.head?_skipGaps (by decide) rest]
  decide

theorem BinaryOp.sign_head (op : BinaryOp) : ∃ c tail, op.sign = c :: tail ∧
    c ∈ signHeads ∧ Text.isGap c = false ∧ isWordChar c = false ∧ c ≠ baseMark ∧ c ≠ '(' := by
  cases op <;> refine ⟨_, _, rfl, ?_⟩ <;> decide

/-- An operator stops every expression of a tighter level than its own. -/
theorem Spaced.stops_operator {op : BinaryOp} (hspaced : Spaced op.sign cs)
    (hrest : EndsSign rest) : Stops (op.level + 1) (cs ++ rest) := by
  obtain ⟨c, tail, hsign, -, hgap, hword, hmark, hparenthesis⟩ := BinaryOp.sign_head op
  rw [hsign] at hspaced
  obtain ⟨after, hafter, heq⟩ := hspaced.skipGaps_append hgap rest
  have hends : EndsSign (after ++ rest) := hrest.append_of_isGap hafter
  rw [← hsign] at heq
  exact
    { token := hspaced.endsToken ⟨hword, hmark⟩ rest
      noParenthesis := by
        rw [hspaced.head?_skipGaps hgap rest]
        exact fun h => hparenthesis (Option.some.inj h)
      noOperator := fun k hk => operator?_eq_none_of_tighter (Nat.le_of_succ_le_succ hk) heq hends
      noPower := fun hlevel => by
        have hbegins : ¬ ['*', '*'] <+: op.sign := by
          cases op <;> revert hlevel <;> decide
        rw [sign?, heq, after?_append_eq_none (sign_ne_nil op) (by decide) hbegins hends,
          Option.map_none]
      noQuestion := fun h => absurd h (Nat.succ_ne_zero _) }

/-! ## How texts begin -/

theorem Spaced.begins {c : Char} {token : List Char} (hspaced : Spaced (c :: token) cs)
    (hc : c ∉ signTails) : ∃ d tail, cs = d :: tail ∧ d ∉ signTails := by
  obtain ⟨before, after, hbefore, -, rfl⟩ := hspaced
  cases before with
  | nil => exact ⟨c, _, rfl, hc⟩
  | cons d before => exact ⟨d, _, rfl, not_mem_signTails_of_isGap (hbefore d (by simp))⟩

theorem begins_append {P : Char → Prop} (h : ∃ d tail, cs = d :: tail ∧ P d) (rest : List Char) :
    ∃ d tail, cs ++ rest = d :: tail ∧ P d := by
  obtain ⟨d, tail, rfl, hd⟩ := h
  exact ⟨d, tail ++ rest, rfl, hd⟩

theorem not_mem_signTails_of_isDigit {c : Char} (h : c.isDigit = true ∨ c = baseMark) :
    c ∉ signTails := by
  intro hc
  simp only [signTails, List.mem_cons, List.not_mem_nil, or_false] at hc
  rcases hc with rfl | rfl | rfl | rfl | rfl | rfl <;> revert h <;> decide

theorem not_mem_signTails_of_isWordStart {c : Char}
    (h : isWordStart c = true ∨ isMarker c = true) : c ∉ signTails := by
  intro hc
  simp only [signTails, List.mem_cons, List.not_mem_nil, or_false] at hc
  rcases hc with rfl | rfl | rfl | rfl | rfl | rfl <;> revert h <;> decide

/-- No expression is empty, and none begins with a character that could prolong the sign before
it. -/
theorem Form.WrittenAs.begins (h : (Form.expr level e).WrittenAs cs) :
    ∃ c tail, cs = c :: tail ∧ c ∉ signTails := by
  induction h using Form.WrittenAs.expr_induction with
  | tighter _ ih => exact ih
  | choose _ _ _ _ _ ih => exact begins_append ih _
  | leftward _ _ _ _ ih => exact begins_append ih _
  | power _ _ _ ih => exact begins_append ih _
  | @signed op operand sign cs hsign _ ih =>
      cases op <;> exact begins_append (hsign.begins (by decide)) _
  | number htoken hspaced =>
      obtain ⟨c, tail, rfl, hc⟩ := htoken.head
      exact hspaced.begins (not_mem_signTails_of_isDigit hc)
  | name hword hspaced =>
      obtain ⟨c, tail, rfl, hc⟩ := hword.head
      exact hspaced.begins (not_mem_signTails_of_isWordStart hc)
  | call hword hspaced =>
      obtain ⟨c, tail, rfl, hc⟩ := hword.head
      exact begins_append (hspaced.begins (not_mem_signTails_of_isWordStart hc)) _
  | parentheses hopening => exact begins_append (hopening.begins (by decide)) _

theorem Form.WrittenAs.endsSign (h : (Form.expr level e).WrittenAs cs) (rest : List Char) :
    EndsSign (cs ++ rest) := by
  obtain ⟨c, tail, rfl, hc⟩ := h.begins
  intro d hd
  obtain rfl : c = d := Option.some.inj hd
  exact hc

theorem Form.WrittenAs.length_pos (h : (Form.expr level e).WrittenAs cs) : 0 < cs.length := by
  obtain ⟨c, tail, rfl, -⟩ := h.begins
  exact Nat.succ_pos _

end RegisterBank.Expr
