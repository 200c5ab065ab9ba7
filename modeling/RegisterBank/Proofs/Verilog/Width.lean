import RegisterBank.Proofs.Arithmetic.Word
import RegisterBank.Proofs.Expr.Blank
import RegisterBank.Proofs.Expr.Joining
import RegisterBank.Proofs.Expr.Numeral
import RegisterBank.Verilog.Width

/-!
# The value of a width

A width is a text that can be read as an expression (`HasValue`). The text for the larger of two
widths has the value of a choice between them, also where it has been folded to a number
(`hasValue_larger_iff_of_ne`). The choice is made by a comparison that is written without
parentheses, so it is surely between the two values where the first width binds as tightly as a
comparison and the second one more tightly (`hasValue_larger_iff_of_tight`).
-/

namespace RegisterBank.Verilog

open RegisterBank.Expr (Form GapsOnly IsGap Joined)

variable {scope : String → Lookup} {a b text : String} {e f joined : Expr} {v x y : Int}
  {level : Nat} {cs : List Char}

/-- Read as an expression, the text has the value. -/
def HasValue (scope : String → Lookup) (text : String) (v : Int) : Prop :=
  ∃ e, Expr.parse text.toList = .ok e ∧ e.eval scope = .ok v

theorem HasValue.unique {w : Int} (h : HasValue scope text v) (h' : HasValue scope text w) :
    v = w := by
  obtain ⟨e, he, hv⟩ := h
  obtain ⟨e', he', hw⟩ := h'
  cases he.symm.trans he'
  exact Except.ok.inj (hv.symm.trans hw)

theorem HasValue.iff_eq {w : Int} (h : HasValue scope text w) :
    HasValue scope text v ↔ v = w :=
  ⟨fun hv => hv.unique h, fun hv => hv ▸ h⟩

theorem hasValue_iff (h : (Form.expr level e).WrittenAs text.toList) :
    HasValue scope text v ↔ e.eval scope = .ok v := by
  have hparse := Expr.parse_eq_ok_of_writtenAs (h.looser (Nat.zero_le level))
  constructor
  · rintro ⟨e', he', hv⟩
    cases hparse.symm.trans he'
    exact hv
  · exact fun hv => ⟨e, hparse, hv⟩

/-! ## Numbers as texts -/

/-- A trimmed text with the gaps that were around it. -/
theorem exists_gaps_trimChars (h : GapsOnly cs) :
    ∃ before after, IsGap before ∧ IsGap after ∧ cs = before ++ (Text.trimChars cs ++ after) := by
  obtain ⟨before, hbefore, hcs⟩ := Expr.exists_gap_append_skipGaps cs
  let rest := (Expr.skipGaps cs).reverse
  refine ⟨before, (rest.takeWhile Text.isBlank).reverse, hbefore, ?_, ?_⟩
  · intro c hc
    have hmem := List.mem_reverse.1 hc
    refine h c ?_ (List.mem_takeWhile_imp hmem)
    have hrest := List.mem_reverse.1 ((List.takeWhile_sublist _).subset hmem)
    exact (List.dropWhile_sublist _).subset hrest
  · have hsplit : (rest.dropWhile Text.isBlank).reverse ++ (rest.takeWhile Text.isBlank).reverse =
        Expr.skipGaps cs := by
      rw [← List.reverse_append, List.takeWhile_append_dropWhile, List.reverse_reverse]
    rw [Text.trimChars, Expr.dropWhile_isBlank h, hsplit, ← hcs]

theorem signed?_cases (h : Text.signed? cs = some x) :
    (∃ digits, ∃ n : Nat, cs = '-' :: digits ∧ Text.natural? 10 digits = some n ∧ x = -n) ∨
      (∃ digits, cs = '+' :: digits) ∨ ∃ n : Nat, Text.natural? 10 cs = some n ∧ x = n := by
  unfold Text.signed? at h
  split at h
  · rename_i digits
    obtain ⟨v, hv, rfl⟩ := Option.map_eq_some_iff.1 h
    obtain ⟨n, hn, hpure⟩ := Option.bind_eq_some_iff.1 hv
    cases hpure
    exact .inl ⟨digits, n, rfl, hn, rfl⟩
  · rename_i digits
    exact .inr (.inl ⟨digits, rfl⟩)
  · obtain ⟨n, hn, rfl⟩ := Option.map_eq_some_iff.1 h
    exact .inr (.inr ⟨n, hn, rfl⟩)

/-- A text that can be read and is a number has this number as its value, and binds as tightly as a
sign. -/
theorem writtenAs_of_numeric? (h : (Form.expr 0 e).WrittenAs text.toList)
    (hx : numeric? text = some x) :
    (Form.expr 12 e).WrittenAs text.toList ∧ (∀ scope, e.eval scope = .ok x) ∧
      Word.InRange x.natAbs := by
  obtain ⟨x', hsigned, hcheck⟩ := Option.bind_eq_some_iff.1 hx
  obtain ⟨hrange, rfl⟩ := Word.check?_eq_some_iff.1 hcheck
  have htrimmed := Expr.writtenAs_trimChars h
  obtain ⟨before, after, hbefore, hafter, htext⟩ := exists_gaps_trimChars h.gapsOnly
  rcases signed?_cases hsigned with ⟨digits, n, hdigits, hn, rfl⟩ | ⟨digits, hdigits⟩ |
    ⟨n, hn, rfl⟩
  · rw [hdigits] at htrimmed htext
    have hnrange : Word.InRange n := by
      by_contra hnot
      exact Expr.not_writtenAs_minus hn hnot htrimmed
    have hwritten : (Form.expr 12 (.unary .negate (.number n))).WrittenAs text.toList :=
      Expr.writtenAs_minus hn hnrange ⟨before, after, hbefore, hafter, htext⟩
    obtain rfl := h.unique (hwritten.looser (Nat.zero_le 12))
    exact ⟨hwritten, fun _ => Expr.eval_negate_number hnrange, by simpa using hnrange⟩
  · rw [hdigits] at htrimmed
    have hskip : Expr.skipGaps ('+' :: digits) = '+' :: digits :=
      Expr.skipGaps_cons_of_not (by decide) digits
    exact absurd (by decide) (htrimmed.head?_not_mem_nonStarters (c := '+') (by rw [hskip]; rfl))
  · have hwritten : (Form.expr 13 (.number n)).WrittenAs text.toList :=
      .number (Expr.isNumber_of_natural? hn hrange) ⟨before, after, hbefore, hafter, htext⟩
    obtain rfl := h.unique (hwritten.looser (Nat.zero_le 13))
    exact ⟨.tighter hwritten, fun _ => rfl, by simpa using hrange⟩

theorem hasValue_toString (hx : Word.InRange x.natAbs) :
    HasValue scope (toString x) v ↔ v = x := by
  have hwritten := Expr.writtenAs_numeral hx (Expr.spaced_self (toString x).toList)
  exact ((hasValue_iff hwritten).2 (Expr.eval_numeral hx scope)).iff_eq

theorem inRange_natAbs_max (hx : Word.InRange x.natAbs) (hy : Word.InRange y.natAbs) :
    Word.InRange (max x y).natAbs := by
  rcases max_choice x y with hmax | hmax <;> rwa [hmax]

/-! ## The larger of two widths -/

/-- The text of a comparison. -/
def comparison (a b : String) : String :=
  a ++ (" > " ++ b)

theorem comparison_toList (a b : String) :
    (comparison a b).toList = a.toList ++ ([' ', '>', ' '] ++ b.toList) := by
  simp [comparison]

theorem exists_comparison (ha : (Form.expr level e).WrittenAs a.toList)
    (hb : (Form.expr 8 f).WrittenAs b.toList) :
    ∃ joined, Joined .greater f e joined ∧
      (Form.expr (min level 7) joined).WrittenAs (comparison a b).toList := by
  rw [comparison_toList]
  exact ha.exists_joined .greater (by decide) (Expr.spaced_between _) hb

/-- The text of a choice of the larger one. -/
def choiceText (a b : String) : String :=
  "((" ++ (comparison a b ++ (") ? " ++ (a ++ (" : " ++ (b ++ ")")))))

theorem writtenAs_choiceText (ha : (Form.expr 0 e).WrittenAs a.toList)
    (hb : (Form.expr 0 f).WrittenAs b.toList)
    (hcomparison : (Form.expr 0 joined).WrittenAs (comparison a b).toList) :
    (Form.expr 13 (.choose joined e f)).WrittenAs (choiceText a b).toList := by
  have hopening := Expr.spaced_self ['(']
  have hclosing := Expr.spaced_self [')']
  have hcondition := Form.WrittenAs.parentheses hopening hcomparison hclosing
  have hchoose := Form.WrittenAs.choose (hcondition.looser (by decide))
    (Expr.spaced_between ['?']) ha (Expr.spaced_between [':']) hb
  have hwhole := Form.WrittenAs.parentheses hopening hchoose hclosing
  simpa [choiceText] using hwhole

/-- A comparison of widths of which the first binds as tightly compares their values. -/
theorem hasValue_comparison_iff (ha : (Form.expr 7 e).WrittenAs a.toList)
    (hb : (Form.expr 8 f).WrittenAs b.toList) (hx : HasValue scope a x)
    (hy : HasValue scope b y) :
    HasValue scope (comparison a b) v ↔ v = Expr.truth (x > y) := by
  have hwritten : (Form.expr 7 (.binary .greater e f)).WrittenAs (comparison a b).toList :=
    comparison_toList a b ▸ ha.join .greater (by decide) le_rfl (Expr.spaced_between _) hb
  rw [hasValue_iff ha] at hx
  rw [hasValue_iff hb] at hy
  rw [hasValue_iff hwritten, Expr.eval_binary_eq_ok_iff]
  constructor
  · rintro ⟨x', y', hx', hy', hv⟩
    cases hx.symm.trans hx'
    cases hy.symm.trans hy'
    exact (Except.ok.inj hv).symm
  · rintro rfl
    exact ⟨x, y, hx, hy, rfl⟩

/-- A choice by the comparison of the values is the larger value. -/
theorem choice_iff_eq_max (ha : (Form.expr 7 e).WrittenAs a.toList)
    (hb : (Form.expr 8 f).WrittenAs b.toList) (hx : HasValue scope a x)
    (hy : HasValue scope b y) :
    ((∃ w ≠ 0, HasValue scope (comparison a b) w ∧ HasValue scope a v) ∨
        HasValue scope (comparison a b) 0 ∧ v = y) ↔ v = max x y := by
  simp only [hasValue_comparison_iff ha hb hx hy]
  by_cases hgreater : x > y
  · rw [max_eq_left hgreater.le, Expr.truth, decide_eq_true hgreater]
    constructor
    · rintro (⟨w, -, -, hv⟩ | ⟨hzero, -⟩)
      · exact hv.unique hx
      · cases hzero
    · rintro rfl
      exact .inl ⟨1, one_ne_zero, rfl, hx⟩
  · rw [max_eq_right (not_lt.1 hgreater), Expr.truth, decide_eq_false hgreater]
    constructor
    · rintro (⟨w, hw, hzero, -⟩ | ⟨-, hv⟩)
      · exact absurd hzero hw
      · exact hv
    · exact fun hv => .inr ⟨rfl, hv⟩

/-- Any two widths can be compared, however the comparison reads. -/
theorem exists_writtenAs_comparison (ha : (Form.expr 0 e).WrittenAs a.toList)
    (hb : (Form.expr 0 f).WrittenAs b.toList) :
    ∃ joined, (Form.expr 0 joined).WrittenAs (comparison a b).toList := by
  rw [comparison_toList]
  exact ha.exists_between .greater (by decide) (Expr.spaced_between _) hb

theorem hasValue_choiceText_iff (ha : (Form.expr 0 e).WrittenAs a.toList)
    (hb : (Form.expr 0 f).WrittenAs b.toList) :
    HasValue scope (choiceText a b) v ↔
      (∃ w ≠ 0, HasValue scope (comparison a b) w ∧ HasValue scope a v) ∨
        HasValue scope (comparison a b) 0 ∧ HasValue scope b v := by
  obtain ⟨joined, hcomparison⟩ := exists_writtenAs_comparison ha hb
  rw [hasValue_iff (writtenAs_choiceText ha hb hcomparison), Expr.eval_choose_eq_ok_iff]
  simp only [hasValue_iff hcomparison, hasValue_iff ha, hasValue_iff hb]
  constructor
  · rintro ⟨w, hw, ⟨hne, hv⟩ | ⟨rfl, hv⟩⟩
    · exact .inl ⟨w, hne, hw, hv⟩
    · exact .inr ⟨hw, hv⟩
  · rintro (⟨w, hne, hw, hv⟩ | ⟨hw, hv⟩)
    · exact ⟨w, hw, .inl ⟨hne, hv⟩⟩
    · exact ⟨0, hw, .inr ⟨rfl, hv⟩⟩

theorem larger_cases (hne : a ≠ b) :
    (∃ x y, numeric? a = some x ∧ numeric? b = some y ∧ larger a b = toString (max x y)) ∨
      larger a b = choiceText a b := by
  unfold larger
  rw [if_neg hne]
  split
  · rename_i x y hx hy
    exact .inl ⟨x, y, hx, hy, by rw [max_def]⟩
  · exact .inr (by simp [choiceText, comparison, toString, String.append_assoc])

/-- The larger of two widths can be read, however it reads. -/
theorem exists_writtenAs_larger (ha : (Form.expr 0 e).WrittenAs a.toList)
    (hb : (Form.expr 0 f).WrittenAs b.toList) :
    ∃ joined, (Form.expr 0 joined).WrittenAs (larger a b).toList := by
  by_cases heq : a = b
  · rw [larger, if_pos heq]
    exact ⟨e, ha⟩
  · rcases larger_cases heq with ⟨x, y, hx, hy, htext⟩ | htext
    · obtain ⟨-, -, hxrange⟩ := writtenAs_of_numeric? ha hx
      obtain ⟨-, -, hyrange⟩ := writtenAs_of_numeric? hb hy
      have hmax := Expr.writtenAs_numeral (inRange_natAbs_max hxrange hyrange)
        (Expr.spaced_self (toString (max x y)).toList)
      exact ⟨_, htext ▸ hmax.looser (Nat.zero_le 12)⟩
    · obtain ⟨joined, hcomparison⟩ := exists_writtenAs_comparison ha hb
      exact ⟨_, htext ▸ (writtenAs_choiceText ha hb hcomparison).looser (Nat.zero_le 13)⟩

/-- The larger of two different widths has the value of a choice between them by their comparison,
however the comparison reads. -/
theorem hasValue_larger_iff_of_ne (hne : a ≠ b) (ha : (Form.expr 0 e).WrittenAs a.toList)
    (hb : (Form.expr 0 f).WrittenAs b.toList) :
    HasValue scope (larger a b) v ↔
      (∃ w ≠ 0, HasValue scope (comparison a b) w ∧ HasValue scope a v) ∨
        HasValue scope (comparison a b) 0 ∧ HasValue scope b v := by
  rcases larger_cases hne with ⟨x, y, hx, hy, htext⟩ | htext
  · -- Numbers bind tightly, so the number that is written is the choice between them too.
    obtain ⟨hatight, hx, hxrange⟩ := writtenAs_of_numeric? ha hx
    obtain ⟨hbtight, hy, hyrange⟩ := writtenAs_of_numeric? hb hy
    have hx := (hasValue_iff ha).2 (hx scope)
    have hy := (hasValue_iff hb).2 (hy scope)
    simp only [hy.iff_eq]
    rw [choice_iff_eq_max (hatight.looser (by decide)) (hbtight.looser (by decide)) hx hy, htext,
      hasValue_toString (inRange_natAbs_max hxrange hyrange)]
  · rw [htext]
    exact hasValue_choiceText_iff ha hb

/-- Where the second width binds more tightly than a comparison, the same choice is made between
equal texts. -/
theorem hasValue_larger_iff (ha : (Form.expr 0 e).WrittenAs a.toList)
    (hb : (Form.expr 8 f).WrittenAs b.toList) (hy : HasValue scope b y) :
    HasValue scope (larger a b) v ↔
      (∃ w ≠ 0, HasValue scope (comparison a b) w ∧ HasValue scope a v) ∨
        HasValue scope (comparison a b) 0 ∧ v = y := by
  by_cases heq : a = b
  · subst heq
    rw [choice_iff_eq_max (hb.looser (by decide)) hb hy hy, max_self, larger, if_pos rfl]
    exact hy.iff_eq
  · rw [hasValue_larger_iff_of_ne heq ha (hb.looser (Nat.zero_le 8)), hy.iff_eq]

/-- Where the first width binds as tightly as a comparison, the larger width has the larger
value. -/
theorem hasValue_larger_iff_of_tight (ha : (Form.expr 7 e).WrittenAs a.toList)
    (hb : (Form.expr 8 f).WrittenAs b.toList) (hx : HasValue scope a x)
    (hy : HasValue scope b y) : HasValue scope (larger a b) v ↔ v = max x y := by
  rw [hasValue_larger_iff (ha.looser (by decide)) hb hy, choice_iff_eq_max ha hb hx hy]

/-- The comparison has a value where the first width has one. -/
theorem exists_hasValue_comparison (ha : (Form.expr 0 e).WrittenAs a.toList)
    (hb : (Form.expr 8 f).WrittenAs b.toList) (hx : HasValue scope a x)
    (hy : HasValue scope b y) : ∃ w, HasValue scope (comparison a b) w := by
  obtain ⟨joined, hjoined, hwritten⟩ := exists_comparison ha hb
  rw [hasValue_iff ha] at hx
  rw [hasValue_iff hb] at hy
  obtain ⟨w, hw⟩ := (hjoined.exists_eval_iff hy).2 ⟨x, hx⟩
  exact ⟨w, (hasValue_iff hwritten).2 hw⟩

/-! ## A width that binds loosely -/

/-- A bitwise "and" gives up its right operand to the comparison that it is pasted into. -/
theorem writtenAs_and_comparison :
    (Form.expr 5 (.binary .bitAnd (.name "A") (.number 2))).WrittenAs "A & 2".toList ∧
    (Form.expr 5 (.binary .bitAnd (.name "A") (.binary .greater (.number 2) (.number 1)))).WrittenAs
      (comparison "A & 2" "1").toList := by
  have hA : (Form.expr 13 (.name "A")).WrittenAs ['A'] := Expr.writtenAs_letter (by decide)
  have hone := Expr.writtenAs_toString (n := 1) (by decide)
  have htwo := Expr.writtenAs_toString (n := 2) (by decide)
  have hgreater := htwo.join .greater (by decide) (by decide) (Expr.spaced_between _)
    (hone.looser (by decide))
  constructor
  · exact hA.join .bitAnd (by decide) (by decide) (Expr.spaced_between _)
      (htwo.looser (by decide))
  · exact hA.join .bitAnd (by decide) (by decide) (Expr.spaced_between _)
      (hgreater.looser (by decide))

end RegisterBank.Verilog
