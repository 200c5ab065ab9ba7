import RegisterBank.Header.Line
import RegisterBank.Proofs.Expr.Adjacent
import RegisterBank.Proofs.Text.Family
import RegisterBank.Proofs.Text.Lines

/-!
# Reading headers back

The headers are written in three languages. In each of them a line that defines a name begins with a
keyword and the name, and no other line does, so the definitions are read back from the text of a
header (`Dialect.read_unlines`). A value may go on in the lines after its first one; such lines are
parts of expressions, and none of them reads as a definition.
-/

namespace RegisterBank.Header

open RegisterBank.Expr (WordsApart after? isWordChar)
open Text (IsIdentifier OneLine before?)

variable {line text lead : String} {d : Definition} {cs : List Char}

/-- How the lines of a language define names: by a keyword, the name, a sign, the value and a
closing. -/
structure Dialect where
  keyword : String
  sign : String
  closing : String
  /-- No name runs into the sign. -/
  separates : ∃ c rest, sign.toList = c :: rest ∧ isWordChar c = false

namespace Dialect

/-- Macros of the hardware language. -/
def hardware : Dialect :=
  ⟨"`define ", " ", "", ' ', [], by decide, by decide⟩

/-- Local parameters of the hardware language. -/
def parameter : Dialect :=
  ⟨"localparam ", " = ", ";", ' ', "= ".toList, by decide, by decide⟩

/-- Macros of C. -/
def software : Dialect :=
  ⟨"#define ", " ", "", ' ', [], by decide, by decide⟩

/-- The line defines the name of `d` as its value. A name that stands alone has an empty value. -/
@[mk_iff]
structure Defines (l : Dialect) (line : String) (d : Definition) : Prop where
  name : IsIdentifier d.name
  text : line = l.keyword ++ d.name ++ (l.sign ++ (d.value ++ l.closing)) ∨
    d.value = "" ∧ line = l.keyword ++ d.name

/-- The value in what follows a name. -/
def value? (l : Dialect) : List Char → Option String
  | [] => some ""
  | c :: tail => (after? l.sign.toList (c :: tail)).bind fun cs =>
      before? l.closing (String.ofList cs)

/-- The definition that a line makes. -/
def definition? (l : Dialect) (line : String) : Option Definition :=
  (after? l.keyword.toList line.toList).bind fun rest =>
    let name := String.ofList (rest.takeWhile isWordChar)
    if IsIdentifier name then (l.value? (rest.dropWhile isWordChar)).map (⟨name, ·⟩) else none

/-- The definitions in a text, line by line. -/
def read (l : Dialect) (text : String) : List Definition :=
  (Text.lines text).filterMap l.definition?

variable {l : Dialect}

/-! ## One line -/

theorem value?_eq_some_iff {value : String} :
    l.value? cs = some value ↔
      cs = (l.sign ++ (value ++ l.closing)).toList ∨ value = "" ∧ cs = [] := by
  obtain ⟨c, rest, hsign, -⟩ := l.separates
  cases cs with
  | nil => simp [value?, String.toList_append, hsign, eq_comm (a := "")]
  | cons d tail =>
      simp only [value?, Option.bind_eq_some_iff, Expr.after?_eq_some_iff,
        Text.before?_eq_some_iff, String.toList_append]
      constructor
      · rintro ⟨cs, hcs, hvalue⟩
        rw [← String.toList_append, ← hvalue, String.toList_ofList]
        exact .inl hcs
      · rintro (hcs | ⟨-, hcs⟩)
        · exact ⟨_, hcs, by simp⟩
        · cases hcs

/-- The characters of a name end where a value, or nothing, follows. -/
theorem takeWhile_name {name value : String} (hname : IsIdentifier name)
    (hcs : l.value? cs = some value) :
    (name.toList ++ cs).takeWhile isWordChar = name.toList ∧
      (name.toList ++ cs).dropWhile isWordChar = cs := by
  refine Expr.takeWhile_append_eq (Expr.IsName.isWordChar hname) ?_
  intro c hc
  obtain ⟨first, rest, hsign, hword⟩ := l.separates
  rcases value?_eq_some_iff.1 hcs with rfl | ⟨-, rfl⟩
  · rw [String.toList_append, hsign] at hc
    cases hc
    exact hword
  · cases hc

theorem defines_iff_exists : l.Defines line d ↔
    IsIdentifier d.name ∧ ∃ cs, l.value? cs = some d.value ∧
      line.toList = l.keyword.toList ++ (d.name.toList ++ cs) := by
  rw [defines_iff]
  refine and_congr_right fun _ => ?_
  constructor
  · rintro (rfl | ⟨hvalue, rfl⟩)
    · exact ⟨_, value?_eq_some_iff.2 (.inl rfl), by simp⟩
    · exact ⟨[], value?_eq_some_iff.2 (.inr ⟨hvalue, rfl⟩), by simp⟩
  · rintro ⟨cs, hcs, hline⟩
    rcases value?_eq_some_iff.1 hcs with rfl | ⟨hvalue, rfl⟩
    · refine .inl (String.toList_inj.1 ?_)
      simpa using hline
    · refine .inr ⟨hvalue, String.toList_inj.1 ?_⟩
      simpa using hline

/-- The reader finds what a line defines. -/
theorem definition?_eq_some_iff : l.definition? line = some d ↔ l.Defines line d := by
  rw [defines_iff_exists]
  simp only [definition?, Option.bind_eq_some_iff, Expr.after?_eq_some_iff]
  constructor
  · rintro ⟨rest, hline, hdefinition⟩
    split at hdefinition
    · rename_i hname
      obtain ⟨value, hvalue, rfl⟩ := Option.map_eq_some_iff.1 hdefinition
      refine ⟨hname, _, hvalue, ?_⟩
      rw [String.toList_ofList, List.takeWhile_append_dropWhile, hline]
    · cases hdefinition
  · rintro ⟨hname, cs, hvalue, hline⟩
    obtain ⟨htake, hdrop⟩ := takeWhile_name hname hvalue
    refine ⟨_, hline, ?_⟩
    rw [htake, hdrop, String.ofList_toList, if_pos hname, hvalue]
    rfl

theorem definition?_eq_none_iff : l.definition? line = none ↔ ∀ d, ¬ l.Defines line d := by
  simp only [Option.eq_none_iff_forall_ne_some, ne_eq, definition?_eq_some_iff]

/-- A line that begins otherwise than with the keyword defines nothing. -/
theorem definition?_eq_none (hlead : ¬ lead.toList <+: l.keyword.toList)
    (hkeyword : ¬ l.keyword.toList <+: lead.toList) : l.definition? (lead ++ text) = none := by
  rw [definition?_eq_none_iff]
  intro d hd
  obtain ⟨-, cs, -, htext⟩ := defines_iff_exists.1 hd
  rw [String.toList_append] at htext
  rcases List.prefix_or_prefix_of_prefix (List.prefix_append _ _)
    (htext ▸ List.prefix_append _ _) with h | h
  · exact hkeyword h
  · exact hlead h

/-- A part of an expression defines no macro of the hardware language. -/
theorem definition?_hardware_eq_none (h : WordsApart line.toList) :
    hardware.definition? line = none := by
  rw [definition?_eq_none_iff]
  intro d hd
  obtain ⟨⟨c, name, hname, hstart, -⟩, cs, -, htext⟩ := defines_iff_exists.1 hd
  refine h 'e' c (by decide) (Expr.isWordChar_of_isWordStart hstart) ?_
  rw [htext, hname]
  exact ⟨"`defin".toList, name ++ cs, rfl⟩

theorem defines_hardwareMacro (hname : IsIdentifier d.name) :
    hardware.Defines d.hardwareMacro d :=
  ⟨hname, .inl (by simp [Definition.hardwareMacro, hardware, toString, String.append_assoc])⟩

theorem defines_localParameter (hname : IsIdentifier d.name) :
    parameter.Defines d.localParameter d :=
  ⟨hname, .inl (by simp [Definition.localParameter, parameter, toString, String.append_assoc])⟩

theorem defines_softwareMacro (hname : IsIdentifier d.name) :
    software.Defines d.softwareMacro d := by
  refine ⟨hname, ?_⟩
  unfold Definition.softwareMacro
  split
  · exact .inr ⟨‹_›, rfl⟩
  · exact .inl (by simp [software, toString, String.append_assoc])

end Dialect

/-! ## The lines of a header -/

/-- The definition with the first line of its value alone. -/
def Definition.firstLine (d : Definition) : Definition :=
  ⟨d.name, (Text.lines d.value).headD ""⟩

theorem Definition.firstLine_of_oneLine (h : OneLine d.value) : d.firstLine = d := by
  rw [firstLine, Text.lines_of_oneLine h]
  rfl

theorem mem_definitions {lines : List Line} : d ∈ definitions lines ↔ .define d ∈ lines := by
  rw [definitions, List.mem_filterMap]
  constructor
  · rintro ⟨line, hline, hd⟩
    cases line with
    | plain text => cases hd
    | define e =>
        cases hd
        exact hline
  · exact fun h => ⟨_, h, rfl⟩

namespace Dialect

variable {l : Dialect} {write : Definition → String} {lines : List Line}

/-- The text of the line reads as what the line defines. -/
def Faithful (l : Dialect) (write : Definition → String) (line : Line) : Prop :=
  l.read (line.text write) = (line.definition?.map Definition.firstLine).toList

theorem read_of_oneLine (h : OneLine line) : l.read line = (l.definition? line).toList := by
  rw [read, Text.lines_of_oneLine h, List.filterMap_cons, List.filterMap_nil]
  cases l.definition? line <;> rfl

theorem faithful_plain (hline : OneLine text) (hnone : l.definition? text = none) :
    l.Faithful write (.plain text) := by
  rw [Faithful, Line.text, read_of_oneLine hline, hnone]
  rfl

theorem faithful_define (hline : OneLine (write d)) (h : l.Defines (write d) d) :
    l.Faithful write (.define d) := by
  have hvalue : OneLine d.value := by
    rcases h.text with htext | ⟨hempty, -⟩
    · simp only [htext, Text.oneLine_append] at hline
      exact hline.2.2.1
    · rw [hempty]
      decide
  rw [Faithful, Line.text, read_of_oneLine hline, definition?_eq_some_iff.2 h, Line.definition?,
    Option.map_some, Definition.firstLine_of_oneLine hvalue]

/-- A list of lines is faithful if its plain lines and its definitions are. -/
theorem forall_faithful (hplain : ∀ text, .plain text ∈ lines → l.Faithful write (.plain text))
    (hdefine : ∀ d ∈ definitions lines, l.Faithful write (.define d)) :
    ∀ line ∈ lines, l.Faithful write line := by
  intro line hline
  cases line with
  | plain text => exact hplain text hline
  | define d => exact hdefine d (mem_definitions.2 hline)

/-- The further lines of an expression are no definitions. -/
theorem faithful_hardwareMacro (hname : IsIdentifier d.name) (hvalue : WordsApart d.value.toList) :
    hardware.Faithful Definition.hardwareMacro (.define d) := by
  have hmacro (value : String) :
      Definition.hardwareMacro ⟨d.name, value⟩ = "`define " ++ d.name ++ " " ++ value := by
    simp [Definition.hardwareMacro, toString]
  have hfront : OneLine ("`define " ++ d.name ++ " ") :=
    Text.oneLine_append.2 ⟨Text.oneLine_append.2 ⟨by decide, hname.oneLine⟩, by decide⟩
  obtain ⟨first, rest, hlines⟩ := List.exists_cons_of_ne_nil (Text.lines_ne_nil d.value)
  have hfirst : hardware.definition? ("`define " ++ d.name ++ " " ++ first) =
      some ⟨d.name, first⟩ := by
    rw [definition?_eq_some_iff, ← hmacro]
    exact defines_hardwareMacro hname
  have hrest : ∀ line ∈ rest, hardware.definition? line = none := by
    intro line hline
    have hmem : line ∈ Text.lines d.value := hlines ▸ List.mem_cons_of_mem first hline
    exact definition?_hardware_eq_none (hvalue.of_infix (Text.infix_of_mem_lines hmem))
  rw [Faithful, Line.text, hmacro, read, Text.lines_append hfront hlines,
    List.filterMap_cons_some hfirst, List.filterMap_eq_nil_iff.2 hrest]
  simp [Line.definition?, Definition.firstLine, hlines]

theorem definition?_empty : l.definition? "" = none := by
  rw [definition?_eq_none_iff]
  intro d hd
  obtain ⟨⟨c, name, hname, -⟩, cs, -, htext⟩ := defines_iff_exists.1 hd
  simp [hname] at htext

theorem read_unlines_eq_flatMap (ls : List String) :
    l.read (Text.unlines ls) = ls.flatMap l.read := by
  have hlast : Text.lines "" = [""] := by decide
  have hsplit := Text.lines_unlines_append ls ""
  rw [String.append_empty, hlast] at hsplit
  rw [read, hsplit, List.filterMap_append, List.filterMap_cons_none definition?_empty,
    List.filterMap_nil, List.append_nil, List.filterMap_flatMap]
  rfl

/-- The definitions of a header are read back from its text. -/
theorem read_unlines (h : ∀ line ∈ lines, l.Faithful write line) :
    l.read (Text.unlines (lines.map (Line.text write))) =
      (definitions lines).map Definition.firstLine := by
  rw [read_unlines_eq_flatMap, List.flatMap_map]
  refine (List.flatMap_congr h).trans ?_
  rw [definitions, List.map_filterMap, List.filterMap_eq_flatMap_toList]

end Dialect

end RegisterBank.Header
