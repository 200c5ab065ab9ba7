import RegisterBank.Build

/-!
# Software accessors

Software sees a register through a setter, if it can be written, and a getter, if it can be read. An
accessor moves one item, as the word type of exactly its bytes; a register without such a word type
has none. The item `i` of an array is at the address of the register plus `i` shifted left by the
logarithm of the bytes of an item.
-/

namespace RegisterBank.Software

/-- The unsigned word types. -/
inductive WordType where
  | byte
  | half
  | word
  | double
  deriving DecidableEq, Repr

namespace WordType

def name : WordType → String
  | byte => "uint8_t"
  | half => "uint16_t"
  | word => "uint32_t"
  | double => "uint64_t"

def bytes : WordType → Nat
  | byte => 1
  | half => 2
  | word => 4
  | double => 8

def ofBytes? (n : Nat) : Option WordType :=
  [byte, half, word, double].find? (·.bytes == n)

end WordType

/-- A register with the word type of its items. -/
structure Accessor where
  placement : Placement
  type : WordType
  deriving Repr

def accessor (p : Placement) : Except Error Accessor :=
  match WordType.ofBytes? p.layout.bytes with
  | some type => .ok ⟨p, type⟩
  | none => .error (.wordType p.register.name p.layout.bytes)

/-- The accessors of the registers in order. -/
def accessors : List Placement → Except Error (List Accessor)
  | [] => .ok []
  | p :: rest => do
    let first ← accessor p
    let others ← accessors rest
    .ok (first :: others)

/-- The shift that turns an index into a distance in bytes. -/
def indexShift (p : Placement) : Nat :=
  Block.ceilLog2 p.layout.bytes

/-- The address of an item as software computes it. -/
def itemAddress (p : Placement) (i : Nat) : Nat :=
  p.address + i <<< indexShift p

/-- The expression of an item's address, where a macro holds the address of the register and `addr`
the index. -/
def addressText (addressMacro : String) (p : Placement) : String :=
  if p.isArray then s!"({addressMacro}) + (addr << {indexShift p})" else s!"({addressMacro})"

/-- The macro of the register's address. -/
def addressMacro (b : Build) (p : Placement) : String :=
  b.stem ++ p.macroName ++ "_ADDR"

/-- The macro of the register's width. -/
def widthMacro (b : Build) (p : Placement) : String :=
  b.stem ++ p.macroName ++ "_W"

/-- The head of a function in C. -/
structure Prototype where
  result : String
  name : String
  arguments : List String
  deriving DecidableEq, Repr

/-- The head of the function as it is written. -/
def Prototype.text (p : Prototype) : String :=
  s!"{p.result} {p.name}(" ++ String.intercalate ", " p.arguments ++ ")"

def indexArguments (p : Placement) : List String :=
  if p.isArray then ["int addr"] else []

namespace Accessor

variable (b : Build) (extra : List String) (a : Accessor)

/-- The setter; `extra` arguments come last. -/
def setter : Prototype :=
  { result := "void"
    name := b.stem ++ "SET_" ++ a.placement.macroName
    arguments := s!"{a.type.name} value" :: indexArguments a.placement ++ extra }

def getter : Prototype :=
  { result := a.type.name
    name := b.stem ++ "GET_" ++ a.placement.macroName
    arguments := indexArguments a.placement ++ extra }

/-- The functions that the register has. -/
def prototypes : List Prototype :=
  (if a.placement.register.access.writes then [a.setter b extra] else [])
    ++ if a.placement.register.access.reads then [a.getter b extra] else []

end Accessor

/-- A function in C with the one statement of its body. -/
structure Function where
  head : Prototype
  statement : String
  deriving DecidableEq, Repr

/-- The lines of a function and an empty line after it. -/
def Function.lines (f : Function) : List String :=
  [f.head.text ++ " \x7b", "  " ++ f.statement, "\x7d", ""]

namespace Accessor

variable (b : Build) (a : Accessor)

/-- The functions for registers in the address space of the processor. -/
def embeddedFunctions : List Function :=
  let address := addressText (addressMacro b a.placement) a.placement
  (if a.placement.register.access.writes then
      [⟨a.setter b [], s!"(*((volatile {a.type.name} *)((base) + {address})) = (value));"⟩]
    else [])
  ++ if a.placement.register.access.reads then
      [⟨a.getter b [], s!"return (*((volatile {a.type.name} *)((base) + {address})));"⟩]
    else []

/-- The argument through which simulated registers are reached. -/
def handle : String :=
  "iob_native_t *native_if"

def simulationFunctions : List Function :=
  let address := addressText (addressMacro b a.placement) a.placement
  (if a.placement.register.access.writes then
      [⟨a.setter b [handle],
        s!"iob_write({address}, value, {widthMacro b a.placement}, native_if);"⟩]
    else [])
  ++ if a.placement.register.access.reads then
      [⟨a.getter b [handle], s!"return ({a.type.name})iob_read({address}, native_if);"⟩]
    else []

end Accessor

end RegisterBank.Software
