import RegisterBank.Proofs.Expr.Evaluation
import RegisterBank.Proofs.Expr.Ending

/-!
# An operator written after a text

Behind the text of a tree an operator with a right operand takes the whole tree as its left operand
only if nothing in the tree binds more loosely and stands open at the right end. Otherwise it takes
the right end alone: after `a & b` a comparison is one with `b`, after `c ? a : b` too. `Joined`
says which tree the longer text has, and `exists_joined` that it has one. What is open depends on
the text and not on the tree, since the parentheses around an operand leave no trace in the tree;
`open_induction` goes along it.

A comparison joined to a text has a value exactly if the text has one, because the operators that
bind more loosely have values for all words.

A right operand that binds more loosely than the operator is not taken as a whole either: what
stands open at its left end goes to the operator, and its looser operators take the result. The
longer text still has a tree (`exists_between`).
-/

namespace RegisterBank.Expr

variable {op : BinaryOp} {e right joined yes no : Expr} {level : Nat}
  {cs sign rs question ys colon ns : List Char}

/-- The tree of a text of `e` with the operator and the right operand written after it. -/
inductive Joined (op : BinaryOp) (right : Expr) : Expr → Expr → Prop where
  | whole (e : Expr) : Joined op right e (.binary op e right)
  | operand {looser : BinaryOp} {left e joined : Expr} :
      looser.level < op.level → Joined op right e joined →
        Joined op right (.binary looser left e) (.binary looser left joined)
  | no {condition yes e joined : Expr} : Joined op right e joined →
      Joined op right (.choose condition yes e) (.choose condition yes joined)

theorem level_le_of_ne_power (hop : op ≠ .power) : op.level ≤ 10 := by
  cases op <;> revert hop <;> decide

/-- A text that binds as tightly as the operator is its left operand as a whole. -/
theorem Form.WrittenAs.join (op : BinaryOp) (hop : op ≠ .power)
    (h : (Form.expr level e).WrittenAs cs)
    (hle : op.level ≤ level) (hsign : Spaced op.sign sign)
    (hright : (Form.expr (op.level + 1) right).WrittenAs rs) :
    (Form.expr op.level (.binary op e right)).WrittenAs (cs ++ (sign ++ rs)) :=
  .leftward hop (h.looser hle) hsign hright

/-- Induction on what stands open at the ends of a text. Nothing does in a text that binds more
tightly than all operators that group to the left. -/
theorem Form.WrittenAs.open_induction
    {motive : {level : Nat} → {e : Expr} → {cs : List Char} →
      (Form.expr level e).WrittenAs cs → Prop}
    (closed : ∀ {level : Nat} {e : Expr} {cs : List Char}
      (h : (Form.expr level e).WrittenAs cs), 11 ≤ level → motive h)
    (tighter : ∀ {level : Nat} {e : Expr} {cs : List Char}
      (h : (Form.expr (level + 1) e).WrittenAs cs), motive h → motive h.tighter)
    (choose : ∀ {condition yes no : Expr} {cs question ys colon ns : List Char}
      (hcondition : (Form.expr 1 condition).WrittenAs cs) (hquestion : Spaced ['?'] question)
      (hyes : (Form.expr 0 yes).WrittenAs ys) (hcolon : Spaced [':'] colon)
      (hno : (Form.expr 0 no).WrittenAs ns), motive hcondition → motive hno →
        motive (.choose hcondition hquestion hyes hcolon hno))
    (leftward : ∀ {op : BinaryOp} {left right : Expr} {ls sign rs : List Char}
      (hop : op ≠ .power) (hleft : (Form.expr op.level left).WrittenAs ls)
      (hsign : Spaced op.sign sign) (hright : (Form.expr (op.level + 1) right).WrittenAs rs),
        motive hleft → motive hright → motive (.leftward hop hleft hsign hright))
    {level : Nat} {e : Expr} {cs : List Char} (h : (Form.expr level e).WrittenAs cs) :
    motive h := by
  induction h using Form.WrittenAs.expr_induction with
  | tighter h ih => exact tighter h ih
  | choose hcondition hquestion hyes hcolon hno ihcondition _ ihno =>
      exact choose hcondition hquestion hyes hcolon hno ihcondition ihno
  | leftward hop hleft hsign hright ihleft ihright =>
      exact leftward hop hleft hsign hright ihleft ihright
  | power hbase hsign hexponent => exact closed (.power hbase hsign hexponent) (by decide)
  | signed hsign hoperand => exact closed (.signed hsign hoperand) (by decide)
  | number htoken hspaced => exact closed (.number htoken hspaced) (by decide)
  | name hword hspaced => exact closed (.name hword hspaced) (by decide)
  | call hword hspaced hopening hargs hclosing =>
      exact closed (.call hword hspaced hopening hargs hclosing) (by decide)
  | parentheses hopening he hclosing =>
      exact closed (.parentheses hopening he hclosing) (by decide)

/-- An operator may be written after every text, and the longer text has a tree too. -/
theorem Form.WrittenAs.exists_joined (op : BinaryOp) (hop : op ≠ .power)
    (h : (Form.expr level e).WrittenAs cs)
    (hsign : Spaced op.sign sign) (hright : (Form.expr (op.level + 1) right).WrittenAs rs) :
    ∃ joined, Joined op right e joined ∧
      (Form.expr (min level op.level) joined).WrittenAs (cs ++ (sign ++ rs)) := by
  have htight : ∀ {k : Nat} {tree : Expr} {text : List Char},
      (Form.expr k tree).WrittenAs text → op.level ≤ k → ∃ joined, Joined op right tree joined ∧
        (Form.expr (min k op.level) joined).WrittenAs (text ++ (sign ++ rs)) := by
    intro k tree text h hle
    rw [min_eq_right hle]
    exact ⟨_, .whole tree, h.join op hop hle hsign hright⟩
  induction h using Form.WrittenAs.open_induction with
  | closed h hlevel => exact htight h ((level_le_of_ne_power hop).trans (by omega))
  | @tighter level e cs h ih =>
      rcases le_or_gt op.level level with hle | hlt
      · exact htight (.tighter h) hle
      · obtain ⟨joined, hjoined, hwritten⟩ := ih
        rw [min_eq_left (Nat.succ_le_of_lt hlt)] at hwritten
        rw [min_eq_left hlt.le]
        exact ⟨joined, hjoined, .tighter hwritten⟩
  | choose hcondition hquestion hyes hcolon _ _ ih =>
      obtain ⟨joined, hjoined, hwritten⟩ := ih
      rw [min_eq_left (Nat.zero_le _)] at hwritten ⊢
      simp only [List.append_assoc]
      exact ⟨_, .no hjoined, .choose hcondition hquestion hyes hcolon hwritten⟩
  | @leftward looser _ _ _ _ _ hlooser hleft hsign' hright' _ ih =>
      rcases le_or_gt op.level looser.level with hle | hlt
      · exact htight (.leftward hlooser hleft hsign' hright') hle
      · obtain ⟨joined, hjoined, hwritten⟩ := ih
        rw [min_eq_left (Nat.succ_le_of_lt hlt)] at hwritten
        rw [min_eq_left hlt.le]
        simp only [List.append_assoc]
        exact ⟨_, .operand hlt hjoined, .leftward hlooser hleft hsign' hwritten⟩

/-- A choice may be written after every text. Behind a choice it is one of the last branch. -/
theorem Form.WrittenAs.exists_choice (h : (Form.expr level e).WrittenAs cs)
    (hquestion : Spaced ['?'] question) (hyes : (Form.expr 0 yes).WrittenAs ys)
    (hcolon : Spaced [':'] colon) (hno : (Form.expr 0 no).WrittenAs ns) :
    ∃ joined, (Form.expr 0 joined).WrittenAs (cs ++ (question ++ (ys ++ (colon ++ ns)))) := by
  induction h using Form.WrittenAs.open_induction with
  | closed h hlevel => exact ⟨_, .choose (h.looser (by omega)) hquestion hyes hcolon hno⟩
  | tighter _ ih => exact ih
  | choose hcondition hquestion' hyes' hcolon' _ _ ih =>
      obtain ⟨joined, hwritten⟩ := ih
      simp only [List.append_assoc]
      exact ⟨_, .choose hcondition hquestion' hyes' hcolon' hwritten⟩
  | @leftward looser _ _ _ _ _ hlooser hleft hsign hright =>
      have hlevel : 1 ≤ looser.level := by cases looser <;> decide
      have hwhole := Form.WrittenAs.leftward hlooser hleft hsign hright
      exact ⟨_, .choose (hwhole.looser hlevel) hquestion hyes hcolon hno⟩

/-- An operator may be written between any two texts, and the longer text has a tree. -/
theorem Form.WrittenAs.exists_between (op : BinaryOp) (hop : op ≠ .power)
    (h : (Form.expr 0 e).WrittenAs cs) (hsign : Spaced op.sign sign)
    (hright : (Form.expr level right).WrittenAs rs) :
    ∃ joined, (Form.expr 0 joined).WrittenAs (cs ++ (sign ++ rs)) := by
  induction hright using Form.WrittenAs.open_induction with
  | @closed k _ _ hright hk =>
      have hlevel : op.level + 1 ≤ k := (Nat.succ_le_succ (level_le_of_ne_power hop)).trans hk
      obtain ⟨joined, -, hwritten⟩ := h.exists_joined op hop hsign (hright.looser hlevel)
      exact ⟨joined, hwritten.looser (Nat.zero_le _)⟩
  | tighter _ ih => exact ih
  | choose _ hquestion hyes hcolon hno ih =>
      -- The operator belongs to the condition.
      obtain ⟨joined, hwritten⟩ := ih
      have hchosen := hwritten.exists_choice hquestion hyes hcolon hno
      simpa only [List.append_assoc] using hchosen
  | leftward hlooser _ hsign' hright' ih =>
      obtain ⟨joined, hwritten⟩ := ih
      obtain ⟨joined', -, hwritten'⟩ := hwritten.exists_joined _ hlooser hsign' hright'
      rw [Nat.zero_min] at hwritten'
      simp only [List.append_assoc] at hwritten'
      exact ⟨joined', hwritten'⟩

/-- The operators that bind more loosely than a comparison have a value for all words. -/
theorem exists_binaryValue_eq_ok (h : op.level < BinaryOp.greater.level) (x y : Int) :
    ∃ v, binaryValue op x y = .ok v := by
  cases op <;> first | exact ⟨_, rfl⟩ | exact absurd h (by decide)

/-- With a comparison written after it a text has a value exactly if it has one alone. -/
theorem Joined.exists_eval_iff {scope : String → Lookup} (h : Joined .greater right e joined)
    {y : Int} (hright : right.eval scope = .ok y) :
    (∃ v, joined.eval scope = .ok v) ↔ ∃ v, e.eval scope = .ok v := by
  induction h with
  | whole e =>
      simp only [eval_binary_eq_ok_iff]
      constructor
      · rintro ⟨-, x, -, hx, -⟩
        exact ⟨x, hx⟩
      · rintro ⟨x, hx⟩
        exact ⟨_, x, y, hx, hright, rfl⟩
  | operand hlooser _ ih =>
      simp only [eval_binary_eq_ok_iff]
      constructor
      · rintro ⟨-, x, y, hx, hy, -⟩
        obtain ⟨z, hz⟩ := ih.1 ⟨y, hy⟩
        obtain ⟨v, hv⟩ := exists_binaryValue_eq_ok hlooser x z
        exact ⟨v, x, z, hx, hz, hv⟩
      · rintro ⟨-, x, y, hx, hy, -⟩
        obtain ⟨z, hz⟩ := ih.2 ⟨y, hy⟩
        obtain ⟨v, hv⟩ := exists_binaryValue_eq_ok hlooser x z
        exact ⟨v, x, z, hx, hz, hv⟩
  | no _ ih =>
      simp only [eval_choose_eq_ok_iff]
      constructor
      · rintro ⟨v, x, hx, ⟨hx', hv⟩ | ⟨hx', hv⟩⟩
        · exact ⟨v, x, hx, .inl ⟨hx', hv⟩⟩
        · obtain ⟨w, hw⟩ := ih.1 ⟨v, hv⟩
          exact ⟨w, x, hx, .inr ⟨hx', hw⟩⟩
      · rintro ⟨v, x, hx, ⟨hx', hv⟩ | ⟨hx', hv⟩⟩
        · exact ⟨v, x, hx, .inl ⟨hx', hv⟩⟩
        · obtain ⟨w, hw⟩ := ih.2 ⟨v, hv⟩
          exact ⟨w, x, hx, .inr ⟨hx', hw⟩⟩

end RegisterBank.Expr
