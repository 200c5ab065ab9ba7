import Mathlib.Data.List.DropRight
import RegisterBank.Expr.Formula
import RegisterBank.Proofs.Expr.Blank

/-!
# Formulas and their texts

A formula keeps the text that it was read from, without the blanks at the ends of the text. This is
a text of its tree (`Formula.writtenAs_of_parse_eq_ok`), so the formula can be read from it again
(`Formula.parse_source`). A formula has the value of its tree.
-/

namespace RegisterBank

namespace Text

theorem trimChars_trimChars (cs : List Char) : trimChars (trimChars cs) = trimChars cs := by
  let rest := cs.dropWhile isBlank
  have hleading : (trimChars cs).dropWhile isBlank = trimChars cs := by
    rw [List.dropWhile_eq_self_iff]
    intro hpos
    have hle : (trimChars cs).length ≤ rest.length :=
      (List.rdropWhile_prefix isBlank rest).length_le
    have hfirst : (trimChars cs)[0] = rest[0] :=
      (List.rdropWhile_prefix isBlank rest).getElem hpos
    rw [hfirst]
    exact List.dropWhile_eq_self_iff.1 (List.dropWhile_idempotent (p := isBlank) cs) _
  have htrailing : (trimChars cs).rdropWhile isBlank = trimChars cs :=
    List.rdropWhile_idempotent isBlank rest
  change ((trimChars cs).dropWhile isBlank).rdropWhile isBlank = trimChars cs
  rw [hleading, htrailing]

theorem trim_trim (s : String) : trim (trim s) = trim s := by
  rw [trim, trim, String.toList_ofList, trimChars_trimChars]

end Text

namespace Formula

variable {f : Formula} {env : Environment} {mode : Mode} {text : String}

/-! ## The text -/

theorem parse_tree_of_parse_eq_ok (h : parse text = .ok f) :
    Expr.parse text.toList = .ok f.tree ∧ f.source = Text.trim text := by
  unfold parse at h
  split at h
  · rename_i tree htree
    cases h
    exact ⟨htree, rfl⟩
  · cases h

/-- The text that a formula keeps is a text of its tree. -/
theorem writtenAs_of_parse_eq_ok (h : parse text = .ok f) :
    (Expr.Form.expr 0 f.tree).WrittenAs f.source.toList := by
  obtain ⟨htree, hsource⟩ := parse_tree_of_parse_eq_ok h
  rw [hsource, Text.trim, String.toList_ofList]
  exact Expr.writtenAs_trimChars (Expr.writtenAs_of_parse_eq_ok htree)

theorem parse_eq_ok_of_writtenAs {tree : Expr} (h : (Expr.Form.expr 0 tree).WrittenAs text.toList) :
    parse text = .ok ⟨Text.trim text, tree⟩ := by
  have hparse := Expr.parse_eq_ok_of_writtenAs h
  unfold parse
  split
  · rename_i tree' htree
    cases hparse.symm.trans htree
    rfl
  · rename_i offset herror
    cases hparse.symm.trans herror

/-- A formula is read again from the text that it keeps. -/
theorem parse_source (h : parse text = .ok f) : parse f.source = .ok f := by
  have hsource : Text.trim f.source = f.source := by
    rw [(parse_tree_of_parse_eq_ok h).2, Text.trim_trim]
  rw [parse_eq_ok_of_writtenAs (writtenAs_of_parse_eq_ok h), hsource]

/-! ## The value -/

theorem eval_eq_ok_iff {v : Int} :
    f.eval env mode = .ok v ↔ f.tree.eval (env.lookup mode) = .ok v := by
  rw [eval]
  split
  · rename_i w hw
    rw [hw, Except.ok.injEq, Except.ok.injEq]
  · rename_i fault hfault
    rw [hfault]
    exact iff_of_false (fun h => nomatch h) (fun h => nomatch h)

theorem evalCount_eq_ok_iff {n : Nat} :
    f.evalCount env mode = .ok n ↔ f.eval env mode = .ok (n : Int) := by
  rw [evalCount]
  split
  · rename_i e he
    rw [he]
    exact iff_of_false (fun h => nomatch h) (fun h => nomatch h)
  · rename_i v hv
    rw [hv, Except.ok.injEq]
    split
    · rw [Except.ok.injEq]
      omega
    · exact iff_of_false (fun h => nomatch h) (by omega)

end Formula

end RegisterBank
