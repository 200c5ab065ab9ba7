import RegisterBank.Proofs.Expr.Token.Decimal
import RegisterBank.Proofs.FileNames
import RegisterBank.Proofs.Manual.Escape
import RegisterBank.Proofs.Module.Registers
import RegisterBank.Proofs.Text.Lines

/-!
# Rows of the manual

The row of a register is its six texts, escaped, with an ampersand between any two of them. TeX
reads them back if and only if no special character in the name, the width or the description has an
odd number of backslashes before it (`generate_rows_iff`); the other three texts have no special
characters.
-/

namespace RegisterBank

open Text (OneLine)

namespace Manual

variable {s : List Char} {c : Char} {r : Register} {address n : Nat}

/-- The texts of a register as they stand between the separators of its row: in blanks, with the
indentation before the first one and the end of the row after the last one. -/
def spaced (r : Register) (address : Nat) : List String :=
  ["    " ++ r.name ++ " ", " " ++ r.access.code ++ " ", " " ++ toString address ++ " ",
    " " ++ r.width.source ++ " ", " " ++ toString r.reset ++ " ",
    " " ++ r.descr ++ " \\\\ \\hline"]

/-- No special character in a free text of the register is escaped already. -/
def CleanTexts (r : Register) : Prop :=
  Clean r.name.toList ∧ Clean r.width.source.toList ∧ Clean r.descr.toList

/-! ## Texts without special characters -/

theorem isDigit_of_isSpecial (h : isSpecial c = true) : c.isDigit = false := by
  simp only [isSpecial_iff, List.mem_cons, List.not_mem_nil, or_false] at h
  rcases h with rfl | rfl | rfl | rfl | rfl | rfl | rfl <;> rfl

theorem plain_toString (n : Nat) : Plain (toString n).toList := by
  intro c hc
  rw [show (toString n).toList = Nat.toDigits 10 n from Nat.toList_repr] at hc
  have hdigit : c.isDigit := Nat.isDigit_of_mem_toDigits (by decide) le_rfl hc
  exact Bool.eq_false_iff.2 fun h => absurd hdigit (by rw [isDigit_of_isSpecial h]; decide)

theorem plain_code (access : Access) : Plain access.code.toList := by
  cases access <;> decide

/-- The row is the escaped texts with ampersands between them. -/
theorem toList_rowText :
    (rowText (cells r address)).toList =
      ['&'].intercalate (((spaced r address).map String.toList).map escapeChars) := by
  have hindent : escapeChars "    ".toList = "    ".toList := by decide
  have hblank : escapeChars " ".toList = " ".toList := by decide
  have hend : escapeChars " \\\\ \\hline".toList = " \\\\ \\hline".toList := by decide
  have hcode := escapeChars_of_plain (plain_code r.access)
  have haddress := escapeChars_of_plain (plain_toString address)
  have hreset := escapeChars_of_plain (plain_toString r.reset)
  have hseparator : " & ".toList = " ".toList ++ '&' :: " ".toList := by decide
  simp only [rowText, cells, spaced, escape, String.intercalate_cons_cons,
    String.intercalate_singleton, List.map_cons, List.map_nil, List.intercalate_cons_cons,
    List.intercalate_singleton, String.toList_append, escapeChars_append, hindent, hblank, hend,
    hcode, haddress, hreset, String.toList_ofList, hseparator, List.append_assoc, List.cons_append,
    List.nil_append]

/-- The last characters of the texts are blanks and a letter. -/
theorem not_escapes_of_mem_spaced (h : s ∈ (spaced r address).map String.toList) :
    ¬ Escapes s := by
  have hblank : ∀ text : String, ¬ Escapes (text ++ " ").toList := by
    intro text
    rw [String.toList_append]
    exact not_escapes_append_singleton (by decide)
  have hend : ∀ text : String, ¬ Escapes (text ++ " \\\\ \\hline").toList := by
    intro text
    rw [String.toList_append,
      show " \\\\ \\hline".toList = " \\\\ \\hlin".toList ++ ['e'] by decide,
      ← List.append_assoc]
    exact not_escapes_append_singleton (by decide)
  simp only [spaced, List.map_cons, List.map_nil, List.mem_cons, List.not_mem_nil, or_false] at h
  rcases h with rfl | rfl | rfl | rfl | rfl | rfl
  exacts [hblank _, hblank _, hblank _, hblank _, hblank _, hend _]

theorem forall_clean_spaced_iff :
    (∀ s ∈ (spaced r address).map String.toList, Clean s) ↔ CleanTexts r := by
  have hspaced : ∀ (indent text stop : String), Plain indent.toList →
      ¬ Escapes indent.toList → Plain stop.toList →
      (Clean (indent ++ text ++ stop).toList ↔ Clean text.toList) := by
    intro indent text stop hindent hescapes hstop
    rw [String.toList_append, String.toList_append]
    exact clean_append_append_iff hindent hescapes hstop
  have hcode := clean_of_plain (plain_code r.access)
  have haddress := clean_of_plain (plain_toString address)
  have hreset := clean_of_plain (plain_toString r.reset)
  simp only [spaced, List.map_cons, List.map_nil, List.forall_mem_cons]
  rw [hspaced "    " r.name " " (by decide) (by decide) (by decide),
    hspaced " " r.access.code " " (by decide) (by decide) (by decide),
    hspaced " " (toString address) " " (by decide) (by decide) (by decide),
    hspaced " " r.width.source " " (by decide) (by decide) (by decide),
    hspaced " " (toString r.reset) " " (by decide) (by decide) (by decide),
    hspaced " " r.descr " \\\\ \\hline" (by decide) (by decide) (by decide)]
  constructor
  · rintro ⟨hname, -, -, hwidth, -, hdescr, -⟩
    exact ⟨hname, hwidth, hdescr⟩
  · rintro ⟨hname, hwidth, hdescr⟩
    exact ⟨hname, hcode, haddress, hwidth, hreset, hdescr, List.forall_mem_nil _⟩

/-- TeX reads the texts of a register in its row if and only if the free ones are clean. -/
theorem reads_rowText_iff :
    Reads (rowText (cells r address)).toList ((spaced r address).map String.toList) ↔
      CleanTexts r := by
  have hne : (spaced r address).map String.toList ≠ [] := List.cons_ne_nil _ _
  rw [toList_rowText, reads_join_iff hne fun s => not_escapes_of_mem_spaced,
    forall_clean_spaced_iff]

/-! ## Lines -/

theorem mem_escapeChars (h : c ∈ escapeChars s) : c = '\\' ∨ c ∈ s := by
  induction s with
  | nil => exact absurd h List.not_mem_nil
  | cons d s ih =>
      rw [escapeChars] at h
      split at h <;> simp only [List.mem_cons] at h ⊢ <;> tauto

theorem oneLine_escape {text : String} (h : OneLine text) : OneLine (escape text) := by
  intro hfeed
  rw [escape, String.toList_ofList] at hfeed
  rcases mem_escapeChars hfeed with hback | hmem
  · exact absurd hback (by decide)
  · exact h hmem

/-- The free texts of the register have no line feeds. -/
def OneLineTexts (r : Register) : Prop :=
  OneLine r.name ∧ OneLine r.width.source ∧ OneLine r.descr

instance : DecidablePred OneLineTexts := fun _ => inferInstanceAs (Decidable (_ ∧ _ ∧ _))

theorem oneLine_rowText (h : OneLineTexts r) : OneLine (rowText (cells r address)) := by
  have hcode : OneLine r.access.code := by cases r.access <;> decide
  have hindent : OneLine "    " := by decide
  have hseparator : OneLine " & " := by decide
  have hend : OneLine " \\\\ \\hline" := by decide
  obtain ⟨hname, hwidth, hdescr⟩ := h
  simp only [rowText, cells, String.intercalate_cons_cons, String.intercalate_singleton,
    Text.oneLine_append, oneLine_escape hname, oneLine_escape hwidth, oneLine_escape hdescr,
    Text.oneLine_toString, hcode, hindent, hseparator, hend, and_self]

end Manual

namespace Artifacts

open Manual

variable {m : Module} {a : Artifacts}

theorem tableFile_mem (h : generate m = .ok a) {g : Group Placement} (hg : g ∈ a.map.groups) :
    tableFile g ∈ a.files := by
  obtain ⟨fixed, hfiles, -⟩ := exists_files_eq h
  rw [hfiles]
  exact List.mem_append_right _ (List.mem_map_of_mem hg)

theorem oneLineTexts_of_mem_interruptGroup :
    ∀ r ∈ interruptGroup.members, OneLineTexts r := by
  have hwidth : OneLine (toString (32 : Int)) := by decide
  simp only [interruptGroup, List.forall_mem_cons]
  exact ⟨⟨by decide, hwidth, Text.oneLine_ofList (by decide)⟩,
    ⟨by decide, hwidth, Text.oneLine_ofList (by decide)⟩,
    ⟨by decide, hwidth, Text.oneLine_ofList (by decide)⟩, List.forall_mem_nil _⟩

theorem oneLine_versionDescr : OneLine versionDescr := by
  unfold versionDescr
  rw [Text.oneLine_append, Text.oneLine_append]
  exact ⟨⟨Text.oneLine_ofList (by decide), Text.oneLine_ofList (by decide)⟩,
    Text.oneLine_ofList (by decide)⟩

theorem oneLineTexts_versionRegister (packed : Nat) : OneLineTexts (versionRegister packed) :=
  ⟨show OneLine versionName by decide, show OneLine (toString (16 : Int)) by decide,
    oneLine_versionDescr⟩

/-- The free texts of all placed registers are lines where those of the declared registers are. -/
theorem Parts.oneLineTexts (x : Parts m a)
    (hlines : ∀ r ∈ Group.flatten m.groups, OneLineTexts r) :
    ∀ p ∈ a.map.placements, OneLineTexts p.register := by
  rw [x.map_eq]
  exact Build.forall_mem_placements hlines oneLineTexts_of_mem_interruptGroup
    oneLineTexts_versionRegister (fun _ _ h => h) x.ofModule

/-- The table of a group has one row for each register. TeX reads the name, the access, the address,
the width, the reset value and the description of the register in it if and only if no special
character of the free texts is escaped already. -/
theorem generate_rows_iff (hlines : ∀ r ∈ Group.flatten m.groups, OneLineTexts r)
    (h : generate m = .ok a) {g : Group Placement} (hg : g ∈ a.map.groups) :
    ∃ file ∈ a.files, file.name = g.name ++ "_csrs_tab.tex" ∧
      ∃ rows, Text.lines file.contents = rows ++ [""] ∧
        List.Forall₂ (fun p row =>
          Reads row.toList ((spaced p.register p.address).map String.toList) ↔
            CleanTexts p.register) g.members rows := by
  obtain ⟨x⟩ := nonempty_parts h
  refine ⟨tableFile g, tableFile_mem h hg, name_tableFile g, _, Text.lines_unlines ?_, ?_⟩
  · rw [List.forall_mem_map]
    intro p hp
    exact oneLine_rowText (x.oneLineTexts hlines p (List.mem_flatMap.2 ⟨g, hg, hp⟩))
  · rw [List.forall₂_map_right_iff, List.forall₂_same]
    exact fun p _ => reads_rowText_iff

/-- A module with special characters in the name, the width and the description of one register, and
with a register in whose description an ampersand is escaped already. -/
def gateModule : Module :=
  { name := "gate"
    version := { major := 1, minor := 0, patch := 0 }
    params := [{ name := "W", fields := .constant (some (.literal 5)) }]
    groups :=
      [⟨"load", "",
        [{ name := "duty_set", access := .read
           width := ⟨"W & 7", .binary .bitAnd (.name "W") (.number 7)⟩
           descr := "Duty in % & its \\\\\\\\$ {#}" }]⟩,
      ⟨"main", "",
        [{ name := "open", access := .write, width := .literal 8, descr := "a \\& b" }]⟩] }

theorem generate_rows_iff_gateModule :
    (∀ r ∈ Group.flatten gateModule.groups, OneLineTexts r) ∧
    ∃ a g p, generate gateModule = .ok a ∧ g ∈ a.map.groups ∧ g.members = [p] ∧
      p.register.name = "duty_set" ∧
      ∃ file ∈ a.files, file.name = g.name ++ "_csrs_tab.tex" ∧
        ∃ row, Text.lines file.contents = [row, ""] ∧
          Reads row.toList ((spaced p.register p.address).map String.toList) := by
  have hlines : ∀ r ∈ Group.flatten gateModule.groups, OneLineTexts r := by decide
  obtain ⟨a, g, p, ha, hg, hmembers, hname, hclean⟩ :
      ∃ a g p, generate gateModule = .ok a ∧ a.map.groups[0]? = some g ∧ g.members = [p] ∧
        p.register.name = "duty_set" ∧ CleanTexts p.register :=
    ⟨_, _, _, rfl, rfl, rfl, rfl, by decide, by decide, by decide⟩
  have hmem : g ∈ a.map.groups := List.mem_of_getElem? hg
  obtain ⟨file, hfile, hfileName, rows, hrows, hreads⟩ := generate_rows_iff hlines ha hmem
  rw [hmembers] at hreads
  obtain ⟨row, _, hrow, hnil, rfl⟩ := List.forall₂_cons_left_iff.1 hreads
  rw [List.forall₂_nil_left_iff.1 hnil] at hrows
  exact ⟨hlines, a, g, p, ha, hmem, hmembers, hname, file, hfile, hfileName, row, hrows,
    hrow.2 hclean⟩

/-- The ampersand that is escaped already is one separator too many. -/
theorem six_separators_gateModule :
    (∀ r ∈ Group.flatten gateModule.groups, OneLineTexts r) ∧
    ∃ a file row, generate gateModule = .ok a ∧ file ∈ a.files ∧
      file.name = "main_csrs_tab.tex" ∧ Text.lines file.contents = [row, ""] ∧
      occurrences '&' false [] row.toList = 6 := by
  obtain ⟨a, g, p, ha, hg, hmembers, hname, hlines, hcount⟩ :
      ∃ a g p, generate gateModule = .ok a ∧ a.map.groups[1]? = some g ∧ g.members = [p] ∧
        g.name = "main" ∧ OneLineTexts p.register ∧
        occurrences '&' false [] (rowText (cells p.register p.address)).toList = 6 :=
    ⟨_, _, _, rfl, rfl, rfl, rfl, by decide, by decide⟩
  have hcontents : (tableFile g).contents =
      Text.unlines [rowText (cells p.register p.address)] := by
    rw [tableFile, hmembers]
    rfl
  refine ⟨by decide, a, tableFile g, rowText (cells p.register p.address), ha,
    tableFile_mem ha (List.mem_of_getElem? hg), ?_, ?_, hcount⟩
  · rw [name_tableFile, hname]
    decide
  · rw [hcontents, Text.lines_unlines (by simpa using oneLine_rowText hlines)]
    rfl

end Artifacts

end RegisterBank
