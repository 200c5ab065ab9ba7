import Mathlib.Data.List.DropRight
import RegisterBank.Proofs.Expr.Grammar

/-!
# Gaps, signs and the ends of tokens

A sign is found together with the gaps around it, and nothing has to be known of what follows. A
number or a name is found whole only if what follows cannot prolong it (`EndsToken`).
-/

namespace RegisterBank.Expr

variable {cs rest : List Char}

/-! ## Gaps and signs -/

theorem isGap_nil : IsGap [] := by
  intro c hc
  cases hc

theorem skipGaps_append {gap : List Char} (h : IsGap gap) (cs : List Char) :
    skipGaps (gap ++ cs) = skipGaps cs :=
  List.dropWhile_append_of_pos h

theorem skipGaps_cons_of_not {c : Char} (h : Text.isGap c = false) (cs : List Char) :
    skipGaps (c :: cs) = c :: cs := by
  simp [skipGaps, h]

@[simp] theorem skipGaps_skipGaps (cs : List Char) : skipGaps (skipGaps cs) = skipGaps cs :=
  List.dropWhile_idempotent _ _

/-- What is skipped is a gap. -/
theorem exists_gap_append_skipGaps (cs : List Char) :
    ∃ gap, IsGap gap ∧ cs = gap ++ skipGaps cs := by
  refine ⟨cs.takeWhile Text.isGap, ?_, ?_⟩
  · intro c hc
    exact List.mem_takeWhile_imp hc
  · exact List.takeWhile_append_dropWhile.symm

/-- After the gap before a token the token itself begins. -/
theorem Spaced.skipGaps_append {c : Char} {token : List Char} (hspaced : Spaced (c :: token) cs)
    (hc : Text.isGap c = false) (rest : List Char) :
    ∃ after, IsGap after ∧ skipGaps (cs ++ rest) = c :: token ++ (after ++ rest) := by
  obtain ⟨before, after, hbefore, hafter, rfl⟩ := hspaced
  refine ⟨after, hafter, ?_⟩
  rw [List.append_assoc, Expr.skipGaps_append hbefore, List.cons_append, List.cons_append,
    skipGaps_cons_of_not hc, List.append_assoc, List.cons_append]

theorem Spaced.length_pos {c : Char} {token : List Char} (hspaced : Spaced (c :: token) cs) :
    0 < cs.length := by
  obtain ⟨before, after, -, -, rfl⟩ := hspaced
  simp only [List.length_append, List.length_cons]
  omega

theorem spaced_self (token : List Char) : Spaced token token :=
  ⟨[], [], isGap_nil, isGap_nil, by simp⟩

/-- A token with one space on both sides. -/
theorem spaced_between (token : List Char) : Spaced token (' ' :: (token ++ [' '])) := by
  have hspace : IsGap [' '] := List.forall_mem_singleton.2 (by decide)
  exact ⟨[' '], [' '], hspace, hspace, rfl⟩

theorem Spaced.append_gap {token gap : List Char} (hspaced : Spaced token cs) (hgap : IsGap gap) :
    Spaced token (cs ++ gap) := by
  obtain ⟨before, after, hbefore, hafter, rfl⟩ := hspaced
  refine ⟨before, after ++ gap, hbefore, ?_, by simp only [List.append_assoc]⟩
  intro c hc
  rcases List.mem_append.1 hc with hc | hc
  · exact hafter c hc
  · exact hgap c hc

/-- A token that begins after a leading gap, taken with that gap only. -/
theorem exists_spaced_append {token : List Char} (h : skipGaps cs = token ++ rest) :
    ∃ spaced, Spaced token spaced ∧ cs = spaced ++ rest := by
  obtain ⟨before, hbefore, hcs⟩ := exists_gap_append_skipGaps cs
  refine ⟨before ++ (token ++ []), ⟨before, [], hbefore, isGap_nil, rfl⟩, ?_⟩
  rw [List.append_nil, List.append_assoc, ← h, ← hcs]

/-- A token that begins after a leading gap, taken with the gap after it too. -/
theorem exists_spaced_append_skipGaps {token : List Char} (h : skipGaps cs = token ++ rest) :
    ∃ spaced, Spaced token spaced ∧ cs = spaced ++ skipGaps rest := by
  obtain ⟨spaced, hspaced, rfl⟩ := exists_spaced_append h
  obtain ⟨after, hafter, hrest⟩ := exists_gap_append_skipGaps rest
  refine ⟨spaced ++ after, hspaced.append_gap hafter, ?_⟩
  rw [List.append_assoc, ← hrest]

theorem sign?_sound {sign : List Char} (h : sign? sign cs = some rest) :
    ∃ spaced, Spaced sign spaced ∧ cs = spaced ++ rest := by
  obtain ⟨found, hfound, rfl⟩ := Option.map_eq_some_iff.1 h
  exact exists_spaced_append_skipGaps (after?_eq_some_iff.1 hfound)

/-- The gap after a sign is read with it. -/
theorem skipGaps_eq_of_sign? {sign : List Char} (h : sign? sign cs = some rest) :
    skipGaps rest = rest := by
  obtain ⟨found, -, rfl⟩ := Option.map_eq_some_iff.1 h
  exact skipGaps_skipGaps found

theorem sign?_complete {c : Char} {sign spaced : List Char} (hspaced : Spaced (c :: sign) spaced)
    (hc : Text.isGap c = false) (hcs : skipGaps cs = skipGaps (spaced ++ rest)) :
    sign? (c :: sign) cs = some (skipGaps rest) := by
  obtain ⟨after, hafter, heq⟩ := hspaced.skipGaps_append hc rest
  rw [sign?, hcs, heq, after?_append, Option.map_some, skipGaps_append hafter]

/-! ## The end of a token -/

/-- The characters cannot prolong a number or a name that stands before them. -/
def EndsToken (rest : List Char) : Prop :=
  ∀ c, rest.head? = some c → isWordChar c = false ∧ c ≠ baseMark

theorem endsToken_cons {c : Char} (h : isWordChar c = false ∧ c ≠ baseMark) (rest : List Char) :
    EndsToken (c :: rest) := by
  intro d hd
  obtain rfl : c = d := Option.some.inj hd
  exact h

theorem isWordChar_of_isDigit {c : Char} (h : c.isDigit = true) : isWordChar c = true := by
  simp [isWordChar, Char.isAlphanum, h]

theorem isWordChar_of_isBasedDigit {c : Char} (h : isBasedDigit c = true) :
    isWordChar c = true := by
  unfold isBasedDigit Text.digitValue? at h
  unfold isWordChar Char.isAlphanum Char.isAlpha Char.isUpper Char.isLower Char.isDigit
  simp only [Char.le_def, UInt32.le_iff_toNat_le, ge_iff_le, Bool.or_eq_true, Bool.and_eq_true,
    decide_eq_true_eq] at h ⊢
  grind

/-- A row of characters of one kind ends where a character of another kind, or none, follows. -/
theorem takeWhile_append_eq {p : Char → Bool} {front : List Char}
    (hfront : ∀ c ∈ front, p c = true) (hrest : ∀ c, rest.head? = some c → p c = false) :
    (front ++ rest).takeWhile p = front ∧ (front ++ rest).dropWhile p = rest := by
  rw [List.takeWhile_append_of_pos hfront, List.dropWhile_append_of_pos hfront]
  cases rest with
  | nil => simp
  | cons c rest =>
      have hc : p c = false := hrest c rfl
      simp [hc]

theorem EndsToken.not_isDigit (h : EndsToken rest) :
    ∀ c, rest.head? = some c → c.isDigit = false := by
  intro c hc
  have hword := (h c hc).1
  rw [Bool.eq_false_iff] at hword ⊢
  exact fun hdigit => hword (isWordChar_of_isDigit hdigit)

theorem EndsToken.not_isBasedDigit (h : EndsToken rest) :
    ∀ c, rest.head? = some c → isBasedDigit c = false := by
  intro c hc
  have hword := (h c hc).1
  rw [Bool.eq_false_iff] at hword ⊢
  exact fun hdigit => hword (isWordChar_of_isBasedDigit hdigit)

theorem EndsToken.not_isWordChar (h : EndsToken rest) :
    ∀ c, rest.head? = some c → isWordChar c = false :=
  fun c hc => (h c hc).1

theorem head?_append_of_isGap {P : Char → Prop} {gap : List Char} (hgap : IsGap gap)
    (hP : ∀ c, Text.isGap c = true → P c) (hrest : ∀ c, rest.head? = some c → P c) :
    ∀ c, (gap ++ rest).head? = some c → P c := by
  cases gap with
  | nil => exact hrest
  | cons d gap =>
      intro c hc
      obtain rfl : d = c := Option.some.inj hc
      exact hP d (hgap d (by simp))

theorem EndsToken.append_of_isGap {gap : List Char} (hgap : IsGap gap) (hrest : EndsToken rest) :
    EndsToken (gap ++ rest) := by
  refine head?_append_of_isGap hgap ?_ hrest
  intro c hc
  simp only [Text.isGap, Bool.or_eq_true, beq_iff_eq] at hc
  rcases hc with ((rfl | rfl) | rfl) | rfl <;> decide

end RegisterBank.Expr
