import RegisterBank.Proofs.Text.Capitals
import RegisterBank.Text.Lines
import RegisterBank.Text.Pieces
import Mathlib.Data.List.Infix

/-!
# Reading lines back

The lines of a text are what stands between its line feeds, so a text that ends with a line feed has
an empty last line. A list of lines is read back from its text where no line has a line feed of its
own (`lines_unlines_append` and `flatMap_lines`). Otherwise each line of the text is part of one of
them, and what stands before the first line feed belongs to the first line (`lines_append`).
-/

namespace RegisterBank.Text

variable {s t : String} {ls : List String}

/-- The text has no line feed. -/
def OneLine (text : String) : Prop :=
  '\n' ∉ text.toList

instance : DecidablePred OneLine := fun text => inferInstanceAs (Decidable ('\n' ∉ text.toList))

@[simp] theorem oneLine_append : OneLine (s ++ t) ↔ OneLine s ∧ OneLine t := by
  simp [OneLine]

/-- A literal text is checked by its characters, without its encoding. -/
theorem oneLine_ofList {cs : List Char} (h : '\n' ∉ cs) : OneLine (String.ofList cs) := by
  rwa [OneLine, String.toList_ofList]

theorem oneLine_toString (n : Nat) : OneLine (toString n) := by
  intro hfeed
  rw [show (toString n).toList = Nat.toDigits 10 n from Nat.toList_repr] at hfeed
  exact absurd (Nat.isDigit_of_mem_toDigits (by decide) (Nat.le_refl _) hfeed) (by decide)

theorem IsIdentifier.oneLine (h : IsIdentifier s) : OneLine s :=
  fun hfeed => absurd (Expr.IsName.isWordChar h _ hfeed) (by decide)

theorem oneLine_intercalate {parts : List String} (hs : OneLine s)
    (hparts : ∀ part ∈ parts, OneLine part) : OneLine (s.intercalate parts) := by
  induction parts with
  | nil => exact List.not_mem_nil
  | cons part rest ih =>
      rw [List.forall_mem_cons] at hparts
      cases rest with
      | nil => simpa using hparts.1
      | cons next rest =>
          rw [String.intercalate_cons_cons, oneLine_append, oneLine_append]
          exact ⟨⟨hparts.1, hs⟩, ih hparts.2⟩

theorem oneLine_capitals (h : OneLine s) : OneLine (capitals s) := by
  rw [OneLine, capitals, String.toList_ofList, List.mem_flatMap]
  rintro ⟨c, hc, hfeed⟩
  exact newline_not_mem_capital (fun heq => h (heq ▸ hc)) hfeed

/-! ## Pieces -/

section

variable {separator : Char} {cs rest piece : List Char} {others parts : List (List Char)}

/-- What stands before all separators belongs to the first piece. -/
theorem pieces_append_of_not_mem (h : separator ∉ cs)
    (hrest : pieces separator rest = piece :: others) :
    pieces separator (cs ++ rest) = (cs ++ piece) :: others := by
  induction cs with
  | nil => exact hrest
  | cons c cs ih =>
      rw [List.mem_cons, not_or] at h
      rw [List.cons_append, pieces, if_neg (Ne.symm h.1), ih h.2]
      rfl

theorem infix_intercalate {separators : List Char} (h : piece ∈ parts) :
    piece <:+: separators.intercalate parts := by
  induction parts with
  | nil => exact absurd h List.not_mem_nil
  | cons first parts ih =>
      cases parts with
      | nil =>
          rw [List.mem_singleton] at h
          rw [h, List.intercalate_singleton]
      | cons next parts =>
          rw [List.intercalate_cons_cons]
          rcases List.mem_cons.1 h with rfl | hmem
          · rw [List.append_assoc]
            exact (List.prefix_append _ _).isInfix
          · exact (ih hmem).trans (List.suffix_append _ _).isInfix

theorem infix_of_mem_pieces (h : piece ∈ pieces separator cs) : piece <:+: cs := by
  have hinfix : piece <:+: [separator].intercalate (pieces separator cs) := infix_intercalate h
  rwa [intercalate_pieces] at hinfix

end

/-! ## Lines -/

def lines (text : String) : List String :=
  (pieces '\n' text.toList).map String.ofList

theorem lines_ne_nil (text : String) : lines text ≠ [] := by
  rw [lines, ne_eq, List.map_eq_nil_iff]
  exact pieces_ne_nil _ _

theorem lines_of_oneLine (h : OneLine s) : lines s = [s] := by
  rw [lines, pieces_of_not_mem h]
  simp

theorem lines_append {first : String} {rest : List String} (hs : OneLine s)
    (ht : lines t = first :: rest) : lines (s ++ t) = (s ++ first) :: rest := by
  obtain ⟨piece, others, hpieces, rfl, rfl⟩ := List.map_eq_cons_iff.1 ht
  rw [lines, String.toList_append, pieces_append_of_not_mem hs hpieces, List.map_cons,
    String.ofList_append, String.ofList_toList]

theorem infix_of_mem_lines {line : String} (h : line ∈ lines t) : line.toList <:+: t.toList := by
  obtain ⟨piece, hpiece, rfl⟩ := List.mem_map.1 h
  rw [String.toList_ofList]
  exact infix_of_mem_pieces hpiece

/-- A line feed ends a line. -/
theorem lines_append_newline (s t : String) : lines (s ++ "\n" ++ t) = lines s ++ lines t := by
  have hfeed : "\n".toList = ['\n'] := by decide
  simp [lines, hfeed, pieces_append_cons]

/-- A text after a list of lines has its lines after those of the list. -/
theorem lines_unlines_append (ls : List String) (t : String) :
    lines (unlines ls ++ t) = ls.flatMap lines ++ lines t := by
  induction ls with
  | nil => simp
  | cons line ls ih =>
      rw [unlines_cons, String.append_assoc, lines_append_newline, ih, List.flatMap_cons,
        List.append_assoc]

theorem flatMap_lines (h : ∀ line ∈ ls, OneLine line) : ls.flatMap lines = ls := by
  induction ls with
  | nil => rfl
  | cons line ls ih =>
      rw [List.forall_mem_cons] at h
      rw [List.flatMap_cons, lines_of_oneLine h.1, ih h.2, List.singleton_append]

/-- The lines of a file are those it was written from, and an empty one after the last line feed. -/
theorem lines_unlines (h : ∀ line ∈ ls, OneLine line) : lines (unlines ls) = ls ++ [""] := by
  have hread := lines_unlines_append ls ""
  rwa [String.append_empty, flatMap_lines h] at hread

end RegisterBank.Text
