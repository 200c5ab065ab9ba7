import RegisterBank.Expr.Parser
import RegisterBank.Proofs.Expr.Operators
import RegisterBank.Proofs.Expr.Token.Name
import RegisterBank.Proofs.Expr.Token.Number

/-!
# What is read is written

Whatever a reader of expressions finds at the front of a text is written there in the sense of the
grammar. The readers call each other, each with less depth than it was given, so the statements for
all of them go up together by induction on the depth (`Sound`).
-/

namespace RegisterBank.Expr

variable {n : Nat} {cs rest : List Char} {e left : Expr} {args : List Expr}

/-- A text of the form stands at the front. -/
def Form.Leads (form : Form) (cs rest : List Char) : Prop :=
  ∃ front, form.WrittenAs front ∧ cs = front ++ rest

/-- At the given depth every reader finds only what is written. The reader of further operators
goes on with an operand that stands before its text. -/
structure Sound (n : Nat) : Prop where
  choice : ∀ {cs rest e}, choice n cs = .parsed e rest → (Form.expr 0 e).Leads cs rest
  chain : ∀ {k cs rest e}, k ≤ 10 → chain n (leftLevels.drop k) cs = .parsed e rest →
    (Form.expr (k + 1) e).Leads cs rest
  chainRest : ∀ {k : Fin 10} {front cs rest left e},
    (Form.expr (k + 1) left).WrittenAs front →
    chainRest n leftLevels[k] (leftLevels.drop (k + 1)) left cs = .parsed e rest →
      (Form.expr (k + 1) e).Leads (front ++ cs) rest
  power : ∀ {cs rest e}, power n cs = .parsed e rest → (Form.expr 11 e).Leads cs rest
  signed : ∀ {cs rest e}, signed n cs = .parsed e rest → (Form.expr 12 e).Leads cs rest
  primary : ∀ {cs rest e}, primary n cs = .parsed e rest → (Form.expr 13 e).Leads cs rest
  arguments : ∀ {cs rest args}, arguments n cs = .parsed args rest →
    ∃ opening as closing, Spaced ['('] opening ∧ (Form.arguments args).WrittenAs as ∧
      Spaced [')'] closing ∧ cs = opening ++ (as ++ closing) ++ skipGaps rest
  firstArgument : ∀ {cs rest args}, firstArgument n cs = .parsed args rest →
    (Form.arguments args).Leads cs rest
  moreArguments : ∀ {cs rest args}, moreArguments n cs = .parsed args rest →
    (Form.further args).Leads cs rest

theorem sound_zero : Sound 0 := by
  constructor <;> intros <;> rename_i h <;> cases h

namespace Sound

theorem choice_succ (ih : Sound n) (h : Expr.choice (n + 1) cs = .parsed e rest) :
    (Form.expr 0 e).Leads cs rest := by
  rw [Expr.choice, Outcome.andThen_eq_parsed_iff] at h
  obtain ⟨condition, r₁, hcondition, h⟩ := h
  obtain ⟨front, hfront, rfl⟩ := ih.chain (Nat.zero_le 10) hcondition
  split at h
  · cases h
    exact ⟨front, .tighter hfront, rfl⟩
  · rename_i r₂ hquestion
    obtain ⟨question, hspaced, rfl⟩ := sign?_sound hquestion
    rw [Outcome.andThen_eq_parsed_iff] at h
    obtain ⟨yes, r₃, hyes, h⟩ := h
    obtain ⟨ys, hys, rfl⟩ := ih.choice (Outcome.required_eq_parsed_iff.1 hyes)
    split at h
    · cases h
    · rename_i r₄ hcolon
      obtain ⟨colon, hspaced', rfl⟩ := sign?_sound hcolon
      rw [Outcome.andThen_eq_parsed_iff] at h
      obtain ⟨no, r₅, hno, h⟩ := h
      obtain ⟨ns, hns, rfl⟩ := ih.choice (Outcome.required_eq_parsed_iff.1 hno)
      cases h
      refine ⟨_, .choose hfront hspaced hys hspaced' hns, ?_⟩
      simp only [List.append_assoc]

theorem chain_succ (ih : Sound n) {k : Nat} (hk : k ≤ 10)
    (h : Expr.chain (n + 1) (leftLevels.drop k) cs = .parsed e rest) :
    (Form.expr (k + 1) e).Leads cs rest := by
  rcases Nat.lt_or_eq_of_le hk with hlt | rfl
  · have hdrop := drop_leftLevels ⟨k, hlt⟩
    rw [hdrop, Expr.chain, Outcome.andThen_eq_parsed_iff] at h
    obtain ⟨left, r, hleft, h⟩ := h
    obtain ⟨front, hfront, rfl⟩ := ih.chain hlt hleft
    exact ih.chainRest (k := ⟨k, hlt⟩) (.tighter hfront) h
  · exact ih.power h

theorem chainRest_succ (ih : Sound n) {k : Fin 10} {front : List Char}
    (hleft : (Form.expr (k + 1) left).WrittenAs front)
    (h : Expr.chainRest (n + 1) leftLevels[k] (leftLevels.drop (k + 1)) left cs =
      .parsed e rest) :
    (Form.expr (k + 1) e).Leads (front ++ cs) rest := by
  rw [Expr.chainRest] at h
  split at h
  · cases h
    exact ⟨front, hleft, rfl⟩
  · rename_i op r₁ hop
    obtain ⟨hpower, hlevel, sign, hsign, rfl⟩ := operator?_sound hop
    rw [Outcome.andThen_eq_parsed_iff] at h
    obtain ⟨right, r₂, hright, h⟩ := h
    have hk : (k : Nat) + 1 ≤ 10 := k.isLt
    obtain ⟨rs, hrs, rfl⟩ := ih.chain hk (Outcome.required_eq_parsed_iff.1 hright)
    rw [← hlevel] at hleft hrs
    have hboth := Form.WrittenAs.leftward hpower hleft hsign hrs
    rw [hlevel] at hboth
    obtain ⟨all, hall, heq⟩ := ih.chainRest hboth h
    refine ⟨all, hall, ?_⟩
    rw [← heq]
    simp only [List.append_assoc]

theorem power_succ (ih : Sound n) (h : Expr.power (n + 1) cs = .parsed e rest) :
    (Form.expr 11 e).Leads cs rest := by
  rw [Expr.power, Outcome.andThen_eq_parsed_iff] at h
  obtain ⟨base, r₁, hbase, h⟩ := h
  obtain ⟨bs, hbs, rfl⟩ := ih.signed hbase
  split at h
  · cases h
    exact ⟨bs, .tighter hbs, rfl⟩
  · rename_i r₂ hsign
    obtain ⟨sign, hspaced, rfl⟩ := sign?_sound hsign
    rw [Outcome.andThen_eq_parsed_iff] at h
    obtain ⟨exponent, r₃, hexponent, h⟩ := h
    obtain ⟨es, hes, rfl⟩ := ih.power (Outcome.required_eq_parsed_iff.1 hexponent)
    cases h
    refine ⟨_, .power hbs hspaced hes, ?_⟩
    simp only [List.append_assoc]

theorem signed_succ (ih : Sound n) (h : Expr.signed (n + 1) cs = .parsed e rest) :
    (Form.expr 12 e).Leads cs rest := by
  rw [Expr.signed] at h
  split at h
  · obtain ⟨front, hfront, rfl⟩ := ih.primary h
    exact ⟨front, .tighter hfront, rfl⟩
  · rename_i op r₁ hop
    obtain ⟨sign, hspaced, rfl⟩ := unaryOperator?_sound hop
    rw [Outcome.andThen_eq_parsed_iff] at h
    obtain ⟨operand, r₂, hoperand, h⟩ := h
    obtain ⟨os, hos, rfl⟩ := ih.signed (Outcome.required_eq_parsed_iff.1 hoperand)
    cases h
    refine ⟨_, .signed hspaced hos, ?_⟩
    rw [List.append_assoc]

theorem primary_succ (ih : Sound n) (h : Expr.primary (n + 1) cs = .parsed e rest) :
    (Form.expr 13 e).Leads cs rest := by
  rw [Expr.primary] at h
  split at h
  · rename_i value r hnumber
    cases h
    obtain ⟨m, token, rfl, htoken, heq⟩ := number?_sound hnumber
    obtain ⟨spaced, hspaced, rfl⟩ := exists_spaced_append_skipGaps heq
    exact ⟨spaced, .number htoken hspaced, rfl⟩
  · split at h
    · rename_i word r hword
      obtain ⟨htext, heq⟩ := word?_sound hword
      split at h
      · rename_i args r' hargs
        cases h
        obtain ⟨opening, as, closing, hopening, has, hclosing, rfl⟩ := ih.arguments hargs
        obtain ⟨ws, hws, rfl⟩ := exists_spaced_append heq
        refine ⟨_, .call htext hws hopening has hclosing, ?_⟩
        simp only [List.append_assoc]
      · cases h
        obtain ⟨ws, hws, rfl⟩ := exists_spaced_append_skipGaps heq
        exact ⟨ws, .name htext hws, rfl⟩
      · cases h
    · split at h
      · rename_i r heq
        have hparenthesis : skipGaps cs = ['('] ++ r := heq
        obtain ⟨opening, hopening, rfl⟩ := exists_spaced_append hparenthesis
        rw [Outcome.andThen_eq_parsed_iff] at h
        obtain ⟨inner, r₁, hinner, h⟩ := h
        obtain ⟨front, hfront, rfl⟩ := ih.choice hinner
        split at h
        · cases h
        · rename_i r₂ hsign
          cases h
          obtain ⟨closing, hclosing, rfl⟩ := sign?_sound hsign
          refine ⟨_, .parentheses hopening hfront hclosing, ?_⟩
          simp only [List.append_assoc]
      · cases h

theorem arguments_succ (ih : Sound n) (h : Expr.arguments (n + 1) cs = .parsed args rest) :
    ∃ opening as closing, Spaced ['('] opening ∧ (Form.arguments args).WrittenAs as ∧
      Spaced [')'] closing ∧ cs = opening ++ (as ++ closing) ++ skipGaps rest := by
  rw [Expr.arguments] at h
  split at h
  · rename_i r heq
    have hparenthesis : skipGaps cs = ['('] ++ r := heq
    obtain ⟨opening, hopening, rfl⟩ := exists_spaced_append hparenthesis
    rw [Outcome.andThen_eq_parsed_iff] at h
    obtain ⟨args', r₁, hargs, h⟩ := h
    obtain ⟨as, has, rfl⟩ := ih.firstArgument hargs
    split at h
    · cases h
    · rename_i r₂ hsign
      cases h
      obtain ⟨closing, hclosing, rfl⟩ := sign?_sound hsign
      refine ⟨opening, as, closing, hopening, has, hclosing, ?_⟩
      rw [skipGaps_eq_of_sign? hsign]
      simp only [List.append_assoc]
  · cases h

theorem firstArgument_succ (ih : Sound n)
    (h : Expr.firstArgument (n + 1) cs = .parsed args rest) :
    (Form.arguments args).Leads cs rest := by
  rw [Expr.firstArgument] at h
  split at h
  · rename_i e' r hfirst
    obtain ⟨front, hfront, rfl⟩ := ih.choice hfirst
    rw [Outcome.andThen_eq_parsed_iff] at h
    obtain ⟨args', r', hmore, h⟩ := h
    obtain ⟨as, has, rfl⟩ := ih.moreArguments hmore
    cases h
    refine ⟨_, .firstArgument hfront has, ?_⟩
    rw [List.append_assoc]
  · cases h
    exact ⟨[], .noArguments, rfl⟩
  · cases h

theorem moreArguments_succ (ih : Sound n)
    (h : Expr.moreArguments (n + 1) cs = .parsed args rest) :
    (Form.further args).Leads cs rest := by
  rw [Expr.moreArguments] at h
  split at h
  · cases h
    exact ⟨[], .noFurther, rfl⟩
  · rename_i r hcomma
    obtain ⟨comma, hspaced, rfl⟩ := sign?_sound hcomma
    split at h
    · rename_i e' r' hnext
      obtain ⟨front, hfront, rfl⟩ := ih.choice hnext
      rw [Outcome.andThen_eq_parsed_iff] at h
      obtain ⟨args', r'', hmore, h⟩ := h
      obtain ⟨as, has, rfl⟩ := ih.moreArguments hmore
      cases h
      refine ⟨_, .nextArgument hspaced hfront has, ?_⟩
      simp only [List.append_assoc]
    · cases h
      exact ⟨[], .noFurther, rfl⟩
    · cases h

end Sound

theorem sound (n : Nat) : Sound n := by
  induction n with
  | zero => exact sound_zero
  | succ n ih =>
      constructor
      · exact ih.choice_succ
      · exact ih.chain_succ
      · exact ih.chainRest_succ
      · exact ih.power_succ
      · exact ih.signed_succ
      · exact ih.primary_succ
      · exact ih.arguments_succ
      · exact ih.firstArgument_succ
      · exact ih.moreArguments_succ

/-- A gap may follow every expression, since one may follow its last token. -/
theorem Form.WrittenAs.append_gap {level : Nat} {gap : List Char}
    (h : (Form.expr level e).WrittenAs cs) (hgap : IsGap gap) :
    (Form.expr level e).WrittenAs (cs ++ gap) := by
  induction h using Form.WrittenAs.expr_induction with
  | tighter _ ih => exact .tighter ih
  | choose hcondition hquestion hyes hcolon _ _ _ ih =>
      simp only [List.append_assoc]
      exact .choose hcondition hquestion hyes hcolon ih
  | leftward hop hleft hsign _ _ ih =>
      simp only [List.append_assoc]
      exact .leftward hop hleft hsign ih
  | power hbase hsign _ _ ih =>
      simp only [List.append_assoc]
      exact .power hbase hsign ih
  | signed hsign _ ih =>
      rw [List.append_assoc]
      exact .signed hsign ih
  | number htoken hspaced => exact .number htoken (hspaced.append_gap hgap)
  | name hword hspaced => exact .name hword (hspaced.append_gap hgap)
  | call hword hspaced hopening hargs hclosing =>
      simp only [List.append_assoc]
      exact .call hword hspaced hopening hargs (hclosing.append_gap hgap)
  | parentheses hopening he hclosing =>
      simp only [List.append_assoc]
      exact .parentheses hopening he (hclosing.append_gap hgap)

/-- A tree that reading a whole text gives is written as that text. -/
theorem writtenAs_of_parse_eq_ok (h : parse cs = .ok e) : (Form.expr 0 e).WrittenAs cs := by
  unfold parse at h
  split at h
  · rename_i e' rest hchoice
    split at h
    · rename_i hempty
      cases h
      obtain ⟨front, hfront, rfl⟩ := (sound _).choice hchoice
      obtain ⟨gap, hgap, hrest⟩ := exists_gap_append_skipGaps rest
      rw [List.isEmpty_iff.1 hempty, List.append_nil] at hrest
      rw [hrest]
      exact hfront.append_gap hgap
    · cases h
  · cases h
  · cases h

end RegisterBank.Expr
