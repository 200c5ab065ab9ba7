import RegisterBank.Build
import RegisterBank.Manual.Escape
import RegisterBank.TextFile

/-!
# Register tables for the manual

One TeX table for each group of registers, and a file that includes them all. A row has six cells:
name, access, address, width, reset value and description. Addresses are looked up by name in the
address map.
-/

namespace RegisterBank.Manual

def tableName (g : Group Placement) : String :=
  g.name ++ "_csrs_tab"

def inclusionLines (g : Group Placement) : List String :=
  ["",
    "\\begin\x7btable\x7d[H]",
    "  \\centering",
    "  \\begin\x7btabularx\x7d\x7b\\textwidth\x7d\x7b|l|c|c|c|c|X|\x7d",
    "    \\hline",
    "    \\rowcolor\x7biob-green\x7d",
    "    \x7b\\bf Name\x7d & \x7b\\bf R/W\x7d & \x7b\\bf Addr\x7d & \x7b\\bf Width\x7d & "
      ++ "\x7b\\bf Default\x7d & \x7b\\bf Description\x7d \\\\ \\hline",
    "    \\input " ++ tableName g,
    "  \\end\x7btabularx\x7d",
    "  \\caption\x7b" ++ escape g.descr ++ "\x7d",
    "  \\label\x7b" ++ tableName g ++ ":is\x7d",
    "\\end\x7btable\x7d"]

/-- The sentence before the tables. -/
def introduction : String :=
  "The software accessible registers of the core are described in the following tables. "
    ++ "The tables give information on the name, read/write capability, address, width in bits, "
    ++ "default value and a textual description."

/-- The file that includes the tables of all groups. -/
def indexFile (b : Build) : TextFile :=
  .ofLines "csrs.tex"
    ([introduction] ++ b.map.groups.flatMap inclusionLines ++ ["", "\\clearpage"])

/-- The cells of a register whose address has been looked up. -/
def cells (r : Register) (address : Nat) : List String :=
  [escape r.name, r.access.code, toString address, escape r.width.source, toString r.reset,
    escape r.descr]

def rowText (cells : List String) : String :=
  "    " ++ String.intercalate " & " cells ++ " \\\\ \\hline"

def row (b : Build) (p : Placement) : Except Error String :=
  match b.map.addressOf? p.register.name with
  | some address => .ok (rowText (cells p.register address))
  | none => .error (.address p.register.name .unplaced)

def groupFile (b : Build) (g : Group Placement) : Except Error TextFile := do
  let rows ← g.members.mapM (row b)
  .ok (.ofLines (tableName g ++ ".tex") rows)

def files (b : Build) : Except Error (List TextFile) := do
  let tables ← b.map.groups.mapM (groupFile b)
  .ok (indexFile b :: tables)

end RegisterBank.Manual
