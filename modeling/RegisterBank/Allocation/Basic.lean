import RegisterBank.Bus.Settings
import RegisterBank.Register.Layout

/-!
# Address allocation

Registers are placed one after the other, in order of declaration, each at a multiple of its span
and at or after the first address that is free for its access direction. The allocator only keeps
the two cursors, the next free addresses for reading and for writing. Without overlap both cursors
move together, so no two registers share an address; with overlap only registers that share a
direction are kept apart.

In automatic mode the allocator chooses the least fitting address and no register may ask for one.
In manual mode every register has to ask for one, and it is checked. The version register is always
placed automatically.
-/

namespace RegisterBank

/-- Which registers may share addresses. -/
inductive Overlap where
  /-- None. -/
  | never
  /-- Registers that are only read with registers that are only written. -/
  | acrossDirections
  deriving DecidableEq, Repr

/-- The next free address in each direction. -/
structure Cursors where
  read : Nat := 0
  write : Nat := 0
  deriving DecidableEq, Repr

namespace Cursors

/-- The greater of the two cursors. -/
def top (c : Cursors) : Nat :=
  if c.read ≤ c.write then c.write else c.read

/-- The first address that a register of the given access may use. -/
def floor (c : Cursors) : Access → Nat
  | .read => c.read
  | .write => c.write
  | .readWrite => c.top

/-- The cursors of the register's directions move to its end. -/
def advance (c : Cursors) : Access → Nat → Cursors
  | .read, stop => { c with read := stop }
  | .write, stop => { c with write := stop }
  | .readWrite, stop => ⟨stop, stop⟩

/-- Without overlap both cursors move to the greater one. -/
def settle (c : Cursors) : Overlap → Cursors
  | .never => ⟨c.top, c.top⟩
  | .acrossDirections => c

end Cursors

/-- A register at its address. -/
structure Placement where
  /-- The declaration with its address filled in. -/
  register : Register
  address : Nat
  layout : Layout
  deriving Repr

namespace Placement

/-- One past the last byte of the register. -/
def stop (p : Placement) : Nat :=
  p.address + p.layout.span

/-- Whether software addresses the register with an index. -/
def isArray (p : Placement) : Bool :=
  p.layout.items > 1

end Placement

/-- Groups of placed registers and the width of the address that covers them. -/
structure AddressMap where
  groups : List (Group Placement)
  addrWidth : Nat
  deriving Repr

namespace AddressMap

/-- The placed registers in order. -/
def placements (map : AddressMap) : List Placement :=
  Group.flatten map.groups

/-- The first register of a name. -/
def find? (map : AddressMap) (name : String) : Option Placement :=
  map.placements.find? (·.register.name == name)

def addressOf? (map : AddressMap) (name : String) : Option Nat :=
  (map.find? name).map (·.address)

/-- The table in which every register asks for the address that it has. -/
def pinned (map : AddressMap) : Table :=
  map.groups.map (Group.map (·.register))

end AddressMap

/-- How a run of the allocator treats addresses. -/
structure Policy where
  /-- Whether addresses are chosen automatically. -/
  automatic : Bool
  overlap : Overlap
  deriving DecidableEq, Repr

/-- The policy that the settings of a build select. -/
def Settings.policy (s : Settings) : Policy :=
  ⟨s.autoAddress, if s.overlap then .acrossDirections else .never⟩

namespace Policy

variable (policy : Policy) (env : Environment)

/-- The address that a register asks for, where it may and has to. -/
def request (r : Register) : Except Error (Option Nat) :=
  if r.isVersion then .ok none
  else
    match policy.automatic, r.address with
    | true, some address => .error (.address r.name (.unwanted address))
    | false, none => .error (.address r.name .missing)
    | _, address => .ok address

/-- The address of a register of a layout, at or after `floor`. -/
def addressFor (r : Register) (layout : Layout) (floor : Nat) : Except Error Nat := do
  match ← policy.request r with
  | some address =>
    if address % layout.span ≠ 0 then
      .error (.address r.name (.unaligned address layout.span))
    else if address < floor then
      .error (.address r.name (.overlapping address floor))
    else .ok address
  | none =>
    match Block.ceil? floor layout.addrWidth with
    | some address => .ok address
    | none => .error (.address r.name .exhausted)

/-- Places one register and moves the cursors. -/
def place (cursors : Cursors) (r : Register) : Except Error (Placement × Cursors) := do
  let layout ← Layout.of r env .max
  let address ← policy.addressFor r layout (cursors.floor r.access)
  let stop := address + layout.span
  if stop ≤ 1 <<< Layout.addrLimit then
    .ok (⟨{ r with address := some address }, address, layout⟩,
      (cursors.advance r.access stop).settle policy.overlap)
  else .error (.address r.name (.outside address layout.span))

/-- Places registers one after the other. -/
def placeAll : Cursors → List Register → Except Error (List Placement × Cursors)
  | cursors, [] => .ok ([], cursors)
  | cursors, r :: rest => do
    let (placement, cursors) ← policy.place env cursors r
    let (placements, cursors) ← placeAll cursors rest
    .ok (placement :: placements, cursors)

/-- Places the registers of groups one after the other. -/
def placeGroups : Cursors → Table → Except Error (List (Group Placement) × Cursors)
  | cursors, [] => .ok ([], cursors)
  | cursors, g :: rest => do
    let (members, cursors) ← policy.placeAll env cursors g.members
    let (groups, cursors) ← placeGroups cursors rest
    .ok (⟨g.name, g.descr, members⟩ :: groups, cursors)

/-- Places every register of a table. -/
def allocate (table : Table) : Except Error AddressMap :=
  if (Group.flatten table).isEmpty then .error (.configuration .emptyTable)
  else do
    let (groups, cursors) ← policy.placeGroups env {} table
    .ok ⟨groups, Block.ceilLog2 cursors.top⟩

end Policy

end RegisterBank
