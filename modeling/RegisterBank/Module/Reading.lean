import RegisterBank.Module.Description
import RegisterBank.Toml.Reader

/-!
# Reading module descriptions

A module description is a TOML document. Its tables may have the known fields only, and each field
has a fixed kind. A table inside an array may also be written as an array of its fields in order,
where only the last fields, those with a default, may be left out.
-/

namespace RegisterBank.Description

open Toml (Value)

abbrev Fields := List (String × Value)

def text? : Value → Option String
  | .string text => some text
  | _ => none

def integer? : Value → Option Int
  | .integer v => some v
  | _ => none

/-- A natural number of 32 bits. -/
def word? : Value → Option Nat
  | .integer v => if 0 ≤ v ∧ v < UInt32.size then some v.toNat else none
  | _ => none

def boolean? : Value → Option Bool
  | .boolean b => some b
  | _ => none

def quantity? : Value → Option Quantity
  | .integer v => some (.integer v)
  | .string text => some (.text text)
  | _ => none

/-- A field that may be absent; its value is of the right kind. -/
def field? {α : Type} (kind : Value → Option α) (name : String) (fields : Fields) :
    Option (Option α) :=
  match fields.lookup name with
  | none => some none
  | some v => (kind v).map some

/-- The items of an array; an absent array has none. -/
def items? {α : Type} (kind : Value → Option α) (name : String) (fields : Fields) :
    Option (List α) :=
  match fields.lookup name with
  | none => some []
  | some (.array items) => items.mapM kind
  | some _ => none

/-- The fields of a table, or of an array that states at least the first `count` of them. -/
def fields? (names : List String) (count : Nat) : Value → Option Fields
  | .table entries =>
    if entries.all (fun (name, _) => names.contains name) then some entries else none
  | .array items => if count ≤ items.length then some (names.zip items) else none
  | _ => none

def parameter? (v : Value) : Option ParameterEntry := do
  let fields ← fields? ["name", "val", "min", "max", "descr"] 4 v
  let name ← field? text? "name" fields
  let value ← field? quantity? "val" fields
  let min ← field? quantity? "min" fields
  let max ← field? quantity? "max" fields
  let descr ← field? text? "descr" fields
  some { name, value, min, max, descr := descr.getD "" }

def register? (v : Value) : Option RegisterEntry := do
  let fields ← fields?
    ["name", "type", "n_bits", "rst_val", "addr", "log2n_items", "autoreg", "descr"] 7 v
  let name ← field? text? "name" fields
  let access ← field? text? "type" fields
  let width ← field? quantity? "n_bits" fields
  let reset ← field? integer? "rst_val" fields
  let address ← field? integer? "addr" fields
  let logItems ← field? quantity? "log2n_items" fields
  let auto ← field? boolean? "autoreg" fields
  let descr ← field? text? "descr" fields
  some { name, access, width, reset, address, logItems, auto, descr := descr.getD "" }

def group? (v : Value) : Option GroupEntry := do
  let fields ← fields? ["name", "descr", "regs"] 1 v
  let name ← field? text? "name" fields
  let descr ← field? text? "descr" fields
  let registers ← items? register? "regs" fields
  some { name, descr := descr.getD "", registers }

/-- The description that the root table of a document states. -/
def ofToml? (root : Fields) : Option Description := do
  let fields ← fields?
    ["name", "version", "csr_if", "autoaddr", "rw_overlap", "interrupt_csrs", "data_w", "confs",
      "csrs"] 0 (.table root)
  let name ← field? text? "name" fields
  let version ← field? text? "version" fields
  let interface ← field? text? "csr_if" fields
  let autoAddress ← field? boolean? "autoaddr" fields
  let overlap ← field? boolean? "rw_overlap" fields
  let interrupts ← field? boolean? "interrupt_csrs" fields
  let dataWidth ← field? word? "data_w" fields
  let params ← items? parameter? "confs" fields
  let groups ← items? group? "csrs" fields
  some { name, version, interface, autoAddress, overlap, interrupts, dataWidth, params, groups }

/-- The description that a text states. -/
def parse (text : String) : Except Error Description :=
  match (Toml.read text).bind ofToml? with
  | some d => .ok d
  | none => .error .description

end RegisterBank.Description

namespace RegisterBank.Module

/-- The module that a text describes. -/
def parse (text : String) : Except Error Module := do
  let d ← Description.parse text
  d.toModule

end RegisterBank.Module
