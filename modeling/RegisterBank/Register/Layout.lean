import RegisterBank.Arithmetic.Block
import RegisterBank.Register.Basic

/-!
# Register layouts

The layout of a register is the space that it takes: whole bytes for each item, and a span of a
power of two for all items together. A register has different layouts in different modes; space is
reserved by its layout in the mode of the greatest parameter values.
-/

namespace RegisterBank

structure Layout where
  /-- The bytes of one item. -/
  bytes : Nat
  /-- The logarithm to base two of the number of items. -/
  logItems : Nat
  /-- The logarithm to base two of the span in bytes. -/
  addrWidth : Nat
  deriving DecidableEq, Repr

namespace Layout

/-- The greatest depth of an array, as a logarithm. -/
def depthLimit : Nat := 32

/-- The greatest depth of an array whose items are instantiated one by one, as a logarithm. -/
def instantiatedLimit : Nat := 10

/-- The width of the largest address space in bits. -/
def addrLimit : Nat := 32

def items (l : Layout) : Nat :=
  1 <<< l.logItems

/-- The bytes reserved for all items. -/
def span (l : Layout) : Nat :=
  1 <<< l.addrWidth

/-- The bytes that hold an item of so many bits. Three bytes are padded to four. -/
def wholeBytes (bits : Nat) : Nat :=
  if (bits + 7) / 8 = 3 then 4 else (bits + 7) / 8

/-- The layout of items of so many bytes. -/
def ofSizes (bytes logItems : Nat) : Layout :=
  ⟨bytes, logItems, logItems + Block.ceilLog2 bytes⟩

/-- The layout of a register in a mode. -/
def of (r : Register) (env : Environment) (mode : Mode) : Except Error Layout := do
  let bits ← r.width.eval env mode
  if bits < 1 then
    .error (.configuration (.registerWidth r.name bits mode))
  else
    let logItems ← r.logItems.evalCount env mode
    let layout := ofSizes (wholeBytes bits.toNat) logItems
    if logItems > depthLimit then
      .error (.configuration (.depth r.name logItems))
    else if r.auto ∧ logItems > instantiatedLimit then
      .error (.configuration (.instantiatedDepth r.name logItems instantiatedLimit))
    else if layout.addrWidth > addrLimit then
      .error (.configuration (.span r.name layout.addrWidth addrLimit))
    else .ok layout

end Layout

end RegisterBank
