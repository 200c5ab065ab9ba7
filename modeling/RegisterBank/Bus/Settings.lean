import RegisterBank.Bus.Interface

/-!
# Build settings

How registers are placed and which bus the register file has.
-/

namespace RegisterBank

structure Settings where
  /-- Whether addresses are chosen automatically. If not, every register but the version register
  carries one. -/
  autoAddress : Bool := true
  /-- Whether registers that are only read and registers that are only written may share
  addresses. -/
  overlap : Bool := false
  interface : Interface := .native
  /-- The width of a bus word in bits. -/
  dataWidth : Nat := 32
  /-- Whether the module has the interrupt registers. -/
  interrupts : Bool := false
  deriving DecidableEq, Repr

namespace Settings

def busBytes (s : Settings) : Nat :=
  s.dataWidth / 8

/-- The bus widths that a register file can have. -/
def dataWidths : List Nat :=
  [8, 16, 32, 64]

/-- Refuses a bus of any other width. -/
def validate (s : Settings) : Except Error Unit :=
  if s.dataWidth ∈ dataWidths then .ok () else .error (.configuration (.dataWidth s.dataWidth))

end Settings

end RegisterBank
