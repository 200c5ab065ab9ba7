import RegisterBank.Build

/-!
# Elements

An element is a piece of a register with an address decode of its own. The items of an array that
the register file holds are elements one by one; any other register is one element with its whole
span.
-/

namespace RegisterBank.Hardware

/-- A piece of a register, with the addresses that select it. -/
structure Element where
  name : String
  address : Nat
  length : Nat
  deriving DecidableEq, Repr

/-- One past the last address of the element. -/
def Element.stop (e : Element) : Nat :=
  e.address + e.length

def Element.Holds (e : Element) (address : Nat) : Prop :=
  e.address ≤ address ∧ address < e.stop

instance (e : Element) (address : Nat) : Decidable (e.Holds address) :=
  inferInstanceAs (Decidable (_ ∧ _))

def itemElement (p : Placement) (i : Nat) : Element :=
  ⟨s!"{p.register.name}_{i}", p.address + i * p.layout.bytes, p.layout.bytes⟩

def wholeElement (p : Placement) : Element :=
  ⟨p.register.name, p.address, p.layout.span⟩

/-- The elements of a register in the order of their addresses. -/
def elements (p : Placement) : List Element :=
  if p.register.auto ∧ 1 < p.layout.items then (List.range p.layout.items).map (itemElement p)
  else [wholeElement p]

end RegisterBank.Hardware
