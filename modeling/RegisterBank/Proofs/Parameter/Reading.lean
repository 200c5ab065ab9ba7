import RegisterBank.Parameter.Basic
import RegisterBank.Proofs.Expr.Formula
import RegisterBank.Proofs.Failure

/-!
# Reading parameters

The field of a parameter is read from a text, where some texts mark it as not available. A formula
that was read keeps a text that is no such mark, so the field is read again from the text that its
formula keeps (`fieldOf_source`).
-/

namespace RegisterBank.Parameter

variable {text name value min max descr : String} {f : Formula} {p : Parameter}

theorem fieldOf_eq_ok_some_iff :
    fieldOf text = .ok (some f) ↔
      ¬ (Text.trim text = "NA" ∨ Text.trim text = "ND" ∨ Text.trim text = "") ∧
        Formula.parse (Text.trim text) = .ok f := by
  rw [fieldOf]
  split
  · rename_i hmark
    exact iff_of_false (fun h => nomatch h) (fun h => h.1 hmark)
  · rename_i hmark
    rw [and_iff_right hmark]
    cases Formula.parse (Text.trim text) with
    | error e => exact iff_of_false (fun h => nomatch h) (fun h => nomatch h)
    | ok found =>
        change Except.ok (some found) = .ok (some f) ↔ _
        rw [Except.ok.injEq, Except.ok.injEq, Option.some.injEq]

/-- A field is read again from the text that its formula keeps. -/
theorem fieldOf_source (h : fieldOf text = .ok (some f)) : fieldOf f.source = .ok (some f) := by
  obtain ⟨hmark, hparse⟩ := fieldOf_eq_ok_some_iff.1 h
  have hsource : f.source = Text.trim text := by
    rw [(Formula.parse_tree_of_parse_eq_ok hparse).2, Text.trim_trim]
  rw [fieldOf_eq_ok_some_iff, hsource, Text.trim_trim]
  exact ⟨hmark, hparse⟩

theorem ofTexts_eq_ok_iff :
    ofTexts name value min max descr = .ok p ↔
      fieldOf value = .ok p.fields.value ∧ fieldOf min = .ok p.fields.min ∧
        fieldOf max = .ok p.fields.max ∧ p.name = name ∧ p.descr = descr := by
  simp only [ofTexts, bind_eq_ok_iff, Except.ok.injEq]
  constructor
  · rintro ⟨value, hvalue, min, hmin, max, hmax, rfl⟩
    exact ⟨hvalue, hmin, hmax, rfl, rfl⟩
  · rintro ⟨hvalue, hmin, hmax, rfl, rfl⟩
    exact ⟨_, hvalue, _, hmin, _, hmax, rfl⟩

end RegisterBank.Parameter
