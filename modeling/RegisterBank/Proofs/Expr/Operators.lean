import RegisterBank.Proofs.Expr.Token.Gap

/-!
# Readers of operators

The signs of some operators begin the signs of others, so the readers look one character further.
Where what follows a sign cannot prolong it (`EndsSign`), the operator of that sign is found at its
own level and none is found at the tighter levels, which are tried first.
-/

namespace RegisterBank.Expr

variable {cs rest : List Char}

/-- The characters that can stand second in the sign of an operator. -/
def signTails : List Char :=
  ['|', '&', '=', '<', '>', '*']

/-- The characters cannot prolong the sign of an operator that stands before them. -/
def EndsSign (rest : List Char) : Prop :=
  ∀ c, rest.head? = some c → c ∉ signTails

theorem not_mem_signTails_of_isGap {c : Char} (h : Text.isGap c = true) : c ∉ signTails := by
  intro hc
  simp only [signTails, List.mem_cons, List.not_mem_nil, or_false] at hc
  rcases hc with rfl | rfl | rfl | rfl | rfl | rfl <;> exact absurd h (by decide)

theorem EndsSign.append_of_isGap {gap : List Char} (hgap : IsGap gap) (hrest : EndsSign rest) :
    EndsSign (gap ++ rest) :=
  head?_append_of_isGap hgap (fun _ => not_mem_signTails_of_isGap) hrest

/-! ## Operators with two operands -/

theorem Operator.eq_append_of_after? {o : Operator} (h : o.after? cs = some rest) :
    cs = o.sign ++ rest := by
  unfold Operator.after? at h
  split at h
  · rename_i found hfound
    split at h
    · cases h
    · cases h
      exact after?_eq_some_iff.1 hfound
  · cases h

/-- The table of the readers agrees with the grammar. -/
theorem leftLevels_spec (k : Fin 10) : ∀ o ∈ leftLevels[k],
    o.op ≠ .power ∧ o.op.level = k + 1 ∧ o.sign = o.op.sign := by
  revert k
  decide

theorem drop_leftLevels (k : Fin 10) :
    leftLevels.drop k = leftLevels[k] :: leftLevels.drop (k + 1) :=
  List.drop_eq_getElem_cons k.isLt

theorem operator?_sound {k : Fin 10} {op : BinaryOp}
    (h : operator? leftLevels[k] cs = some (op, rest)) :
    op ≠ .power ∧ op.level = k + 1 ∧ ∃ spaced, Spaced op.sign spaced ∧ cs = spaced ++ rest := by
  obtain ⟨o, ho, hfound⟩ := List.exists_of_findSome?_eq_some h
  obtain ⟨found, hafter, heq⟩ := Option.map_eq_some_iff.1 hfound
  cases heq
  obtain ⟨hpower, hlevel, hsign⟩ := leftLevels_spec k o ho
  have hcs := Operator.eq_append_of_after? hafter
  rw [hsign] at hcs
  exact ⟨hpower, hlevel, exists_spaced_append_skipGaps hcs⟩

/-- The operator is not read where the sign `s` stands, because its own sign does not begin `s`, or
because it must not be followed by what comes next in `s`. -/
def Operator.PassesOver (o : Operator) (s : List Char) : Prop :=
  ¬ o.sign <+: s ∨ (o.notBefore.isSome ∧ (s.drop o.sign.length).head? = o.notBefore)

instance (o : Operator) (s : List Char) : Decidable (o.PassesOver s) :=
  inferInstanceAs (Decidable (_ ∨ _))

/-- A sign that does not begin `s` is not found where `s` stands, not even beyond its end. -/
theorem after?_append_eq_none_of_subset {front s : List Char}
    (htails : front ⊆ signTails) (hbegins : ¬ front <+: s) (hrest : EndsSign rest) :
    after? front (s ++ rest) = none := by
  induction front generalizing s with
  | nil => exact absurd List.nil_prefix hbegins
  | cons f front ih =>
      rw [List.cons_subset] at htails
      cases s with
      | nil =>
          cases rest with
          | nil => rfl
          | cons c rest =>
              have hne : f ≠ c := by
                rintro rfl
                exact hrest f rfl htails.1
              rw [List.nil_append, after?, if_neg hne]
      | cons c s =>
          rw [List.cons_append, after?]
          split
          · rename_i heq
            refine ih htails.2 ?_
            intro htail
            exact hbegins (List.cons_prefix_cons.2 ⟨heq, htail⟩)
          · rfl

theorem after?_append_eq_none {front s : List Char} (hs : s ≠ [])
    (htails : front.tail ⊆ signTails) (hbegins : ¬ front <+: s)
    (hrest : EndsSign rest) : after? front (s ++ rest) = none := by
  cases front with
  | nil => exact absurd List.nil_prefix hbegins
  | cons f front =>
      cases s with
      | nil => exact absurd rfl hs
      | cons c s =>
          rw [List.cons_append, after?]
          split
          · rename_i heq
            refine after?_append_eq_none_of_subset htails ?_ hrest
            intro htail
            exact hbegins (List.cons_prefix_cons.2 ⟨heq, htail⟩)
          · rfl

theorem Operator.after?_eq_none {o : Operator} {s : List Char} (hs : s ≠ [])
    (htails : o.sign.tail ⊆ signTails) (h : o.PassesOver s) (hrest : EndsSign rest) :
    o.after? (s ++ rest) = none := by
  unfold Operator.after?
  by_cases hbegins : o.sign <+: s
  · obtain ⟨t, rfl⟩ := hbegins
    rcases h with h | ⟨hsome, hhead⟩
    · exact absurd (List.prefix_append _ _) h
    · rw [List.drop_left] at hhead
      rw [List.append_assoc, after?_append]
      cases t with
      | nil =>
          rw [← hhead] at hsome
          cases hsome
      | cons c t =>
          have hnext : (c :: t ++ rest).head? = o.notBefore := hhead
          simp only [hsome, hnext, and_self, if_true]
  · rw [after?_append_eq_none hs htails hbegins hrest]

theorem Operator.after?_self {o : Operator} (hnot : o.notBefore.toList ⊆ signTails)
    (hrest : EndsSign rest) : o.after? (o.sign ++ rest) = some rest := by
  unfold Operator.after?
  rw [after?_append]
  have hfree : ¬ (o.notBefore.isSome ∧ rest.head? = o.notBefore) := by
    rintro ⟨hsome, hhead⟩
    obtain ⟨c, hc⟩ := Option.isSome_iff_exists.1 hsome
    exact hrest c (hhead.trans hc) (hnot (Option.mem_toList.2 hc))
  simp only [if_neg hfree]

/-- Every sign of the table is read to its end and guarded only against its own continuations. -/
theorem leftLevels_tails (k : Fin 10) : ∀ o ∈ leftLevels[k],
    o.sign.tail ⊆ signTails ∧ o.notBefore.toList ⊆ signTails := by
  revert k
  decide

/-- At the level of an operator, those that are tried before it pass over its sign. -/
theorem leftLevels_passesOver_before {op : BinaryOp} (hop : op ≠ .power) (k : Fin 10)
    (hk : op.level = k + 1) :
    (∀ o ∈ leftLevels[k].takeWhile (·.op ≠ op), o.PassesOver op.sign) ∧
      (leftLevels[k].dropWhile (·.op ≠ op)).head?.map Operator.op = some op := by
  cases op <;> revert k <;> revert hop <;> decide

/-- All operators of tighter levels pass over the sign of an operator. -/
theorem leftLevels_passesOver_tighter {op : BinaryOp} (k : Fin 10) (hk : op.level ≤ k) :
    ∀ o ∈ leftLevels[k], o.PassesOver op.sign := by
  cases op <;> revert k <;> decide

theorem sign_ne_nil (op : BinaryOp) : op.sign ≠ [] := by
  cases op <;> decide

/-- An operator is found at its own level. -/
theorem operator?_complete {op : BinaryOp} (hop : op ≠ .power) {k : Fin 10}
    (hk : op.level = k + 1) (hcs : skipGaps cs = op.sign ++ rest) (hrest : EndsSign rest) :
    operator? leftLevels[k] cs = some (op, skipGaps rest) := by
  obtain ⟨hbefore, hfound⟩ := leftLevels_passesOver_before hop k hk
  obtain ⟨o, ho, hoop⟩ := Option.map_eq_some_iff.1 hfound
  obtain ⟨later, hlater⟩ := List.head?_eq_some_iff.1 ho
  have hsplit : leftLevels[k] = leftLevels[k].takeWhile (·.op ≠ op) ++ o :: later := by
    rw [← hlater, List.takeWhile_append_dropWhile]
  have hmem : o ∈ leftLevels[k] := by
    rw [hsplit]
    simp
  have hsign : op.sign = o.sign := by
    rw [(leftLevels_spec k o hmem).2.2, hoop]
  unfold operator?
  rw [List.findSome?_eq_some_iff]
  refine ⟨_, o, later, hsplit, ?_, ?_⟩
  · rw [hcs, hsign, Operator.after?_self (leftLevels_tails k o hmem).2 hrest, Option.map_some,
      hoop]
  · intro o' ho'
    have hmem' : o' ∈ leftLevels[k] := (List.takeWhile_sublist _).subset ho'
    rw [hcs, Operator.after?_eq_none (sign_ne_nil op) (leftLevels_tails k o' hmem').1
      (hbefore o' ho') hrest, Option.map_none]

/-- No operator of a tighter level is found where an operator stands. -/
theorem operator?_eq_none_of_tighter {op : BinaryOp} {k : Fin 10} (hk : op.level ≤ k)
    (hcs : skipGaps cs = op.sign ++ rest) (hrest : EndsSign rest) :
    operator? leftLevels[k] cs = none := by
  unfold operator?
  rw [List.findSome?_eq_none_iff]
  intro o ho
  rw [hcs, Operator.after?_eq_none (sign_ne_nil op) (leftLevels_tails k o ho).1
    (leftLevels_passesOver_tighter k hk o ho) hrest, Option.map_none]

/-- The characters that the sign of an operator with two operands can begin with. -/
def signHeads : List Char :=
  ['|', '&', '^', '=', '!', '<', '>', '+', '-', '*', '/', '%']

theorem leftLevels_head (k : Fin 10) : ∀ o ∈ leftLevels[k],
    o.sign.head? ∈ signHeads.map some := by
  revert k
  decide

theorem after?_eq_none_of_head?_ne {front : List Char} (hfront : front ≠ [])
    (h : cs.head? ≠ front.head?) : after? front cs = none := by
  cases front with
  | nil => exact absurd rfl hfront
  | cons f front =>
      cases cs with
      | nil => rfl
      | cons c cs =>
          have hne : f ≠ c := by
            rintro rfl
            exact h rfl
          rw [after?, if_neg hne]

/-- No operator is found where none can begin. -/
theorem operator?_eq_none_of_head {k : Fin 10}
    (h : (skipGaps cs).head? ∉ signHeads.map some) : operator? leftLevels[k] cs = none := by
  unfold operator?
  rw [List.findSome?_eq_none_iff]
  intro o ho
  have hhead := leftLevels_head k o ho
  have hne : o.sign ≠ [] := by
    intro hnil
    rw [hnil] at hhead
    revert hhead
    decide
  have hafter : Expr.after? o.sign (skipGaps cs) = none := by
    refine after?_eq_none_of_head?_ne hne ?_
    intro heq
    exact h (heq ▸ hhead)
  rw [Operator.after?, hafter, Option.map_none]

/-! ## Operators with one operand -/

theorem unaryOperator?_sound {op : UnaryOp} (h : unaryOperator? cs = some (op, rest)) :
    ∃ spaced, Spaced op.sign spaced ∧ cs = spaced ++ rest := by
  unfold unaryOperator? at h
  split at h
  · rename_i tail hcs
    cases h
    exact exists_spaced_append_skipGaps hcs
  · rename_i tail hcs
    cases h
    exact exists_spaced_append_skipGaps hcs
  · rename_i tail hcs
    split at h
    · cases h
    · cases h
      exact exists_spaced_append_skipGaps hcs
  · cases h

theorem unaryOperator?_complete {op : UnaryOp} {spaced : List Char}
    (hspaced : Spaced op.sign spaced) (hcs : skipGaps cs = skipGaps (spaced ++ rest))
    (hrest : EndsSign rest) : unaryOperator? cs = some (op, skipGaps rest) := by
  have hfound : ∀ after, IsGap after → skipGaps cs = op.sign ++ (after ++ rest) →
      unaryOperator? cs = some (op, skipGaps rest) := by
    intro after hafter heq
    unfold unaryOperator?
    rw [heq]
    cases op with
    | negate => simp only [UnaryOp.sign, List.singleton_append, skipGaps_append hafter]
    | invert => simp only [UnaryOp.sign, List.singleton_append, skipGaps_append hafter]
    | not =>
        have hhead : (after ++ rest).head? ≠ some '=' :=
          fun hc => hrest.append_of_isGap hafter '=' hc (by decide)
        simp only [UnaryOp.sign, List.singleton_append, if_neg hhead, skipGaps_append hafter]
  cases op <;> obtain ⟨after, hafter, heq⟩ := hspaced.skipGaps_append (by decide) rest <;>
    exact hfound after hafter (hcs.trans heq)

theorem unaryOperator?_eq_none (h : (skipGaps cs).head? ∉ ['-', '~', '!'].map some) :
    unaryOperator? cs = none := by
  unfold unaryOperator?
  split <;> simp_all

end RegisterBank.Expr
