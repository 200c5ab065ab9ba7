import RegisterBank.Module.Basic

/-!
# Module descriptions

A description states a module field by field as it was written, nothing checked but the kinds of the
fields. `Description.toModule` turns it into a `Module`, or gives the first fault: a required field
that is missing, an unknown word, a formula that cannot be read.
-/

namespace RegisterBank

/-- A quantity that may be stated as an integer or as a text. -/
inductive Quantity where
  | integer (value : Int)
  | text (value : String)
  deriving DecidableEq, Repr

namespace Quantity

def toText : Quantity → String
  | integer value => toString value
  | text value => value

def formula : Quantity → Except Error Formula
  | integer value => .ok (.literal value)
  | text value => Formula.parse value

end Quantity

structure ParameterEntry where
  name : Option String := none
  value : Option Quantity := none
  min : Option Quantity := none
  max : Option Quantity := none
  descr : String := ""
  deriving Repr

structure RegisterEntry where
  name : Option String := none
  access : Option String := none
  width : Option Quantity := none
  reset : Option Int := none
  address : Option Int := none
  logItems : Option Quantity := none
  auto : Option Bool := none
  descr : String := ""
  deriving Repr

structure GroupEntry where
  name : Option String := none
  descr : String := ""
  registers : List RegisterEntry := []
  deriving Repr

structure Description where
  name : Option String := none
  version : Option String := none
  interface : Option String := none
  autoAddress : Option Bool := none
  overlap : Option Bool := none
  interrupts : Option Bool := none
  dataWidth : Option Nat := none
  params : List ParameterEntry := []
  groups : List GroupEntry := []
  deriving Repr

/-- The value of a field that has to be present. -/
def requiredField {α : Type} (field : String) : Option α → Except Error α
  | some value => .ok value
  | none => .error (.configuration (.missingField field))

/-- Adds the register's name to a configuration fault. -/
def Error.inRegister (name : String) : Error → Error
  | .configuration fault => .configuration (.inRegister name fault)
  | e => e

def Version.parseText (text : String) : Except Error Version :=
  match Version.ofDescription text with
  | .ok v => .ok v
  | .error fault => .error (.configuration (.versionText text fault))

namespace ParameterEntry

/-- The text of a field; an absent field is empty. -/
def fieldText : Option Quantity → String
  | some q => q.toText
  | none => ""

def toParameter (e : ParameterEntry) : Except Error Parameter := do
  let name ← requiredField "confs.name" e.name
  Parameter.ofTexts name (fieldText e.value) (fieldText e.min) (fieldText e.max) e.descr

end ParameterEntry

namespace RegisterEntry

def resetValue (name : String) (value : Int) : Except Error Nat :=
  if 0 ≤ value then .ok value.toNat else .error (.configuration (.negativeReset name))

/-- The described depth; an array of one item where none is stated. -/
def depth : Option Quantity → Except Error Formula
  | some q => q.formula
  | none => .ok (.literal 0)

/-- The described address. Minus one stands for none. -/
def placeAt (name : String) : Option Int → Except Error (Option Nat)
  | none => .ok none
  | some address =>
    if address = -1 then .ok none
    else if 0 ≤ address then .ok (some address.toNat)
    else .error (.address name (.invalid address))

def toRegister (e : RegisterEntry) : Except Error Register := do
  let name ← requiredField "csrs.regs.name" e.name
  let access ← ((requiredField "type" e.access).bind Access.parse).mapError (Error.inRegister name)
  let width ← (requiredField "n_bits" e.width).mapError (Error.inRegister name)
  let width ← width.formula
  let reset ← resetValue name (e.reset.getD 0)
  let logItems ← depth e.logItems
  let address ← placeAt name e.address
  .ok { name, access, width, reset, address, logItems, auto := e.auto.getD true, descr := e.descr }

end RegisterEntry

namespace GroupEntry

/-- The described group. It has at least one register. -/
def toGroup (e : GroupEntry) : Except Error (Group Register) := do
  let name ← requiredField "csrs.name" e.name
  if e.registers.isEmpty then .error (.configuration (.emptyGroup name))
  else do
    let members ← e.registers.mapM RegisterEntry.toRegister
    .ok ⟨name, e.descr, members⟩

end GroupEntry

namespace Description

/-- The described settings; what is not stated keeps its default. -/
def settings (d : Description) : Except Error Settings := do
  let base : Settings := {}
  let interface ← match d.interface with
    | some text => Interface.parse text
    | none => .ok base.interface
  let settings : Settings :=
    { autoAddress := d.autoAddress.getD base.autoAddress
      overlap := d.overlap.getD base.overlap
      interface
      dataWidth := d.dataWidth.getD base.dataWidth
      interrupts := d.interrupts.getD base.interrupts }
  settings.validate
  .ok settings

def toModule (d : Description) : Except Error Module := do
  let name ← requiredField "name" d.name
  let text ← requiredField "version" d.version
  let version ← Version.parseText text
  let settings ← d.settings
  if d.groups.isEmpty then .error (.configuration (.noGroups name))
  else do
    let params ← d.params.mapM ParameterEntry.toParameter
    let groups ← d.groups.mapM GroupEntry.toGroup
    .ok { name, version, params, groups, settings }

end Description

end RegisterBank
