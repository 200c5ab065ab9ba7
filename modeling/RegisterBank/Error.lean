import RegisterBank.Expr.Eval
import RegisterBank.Version.Reading

/-!
# Errors

Everything that can stop a build, by cause. `Error.message` gives the wording. An error is final:
no result is kept beside it.
-/

namespace RegisterBank

/-- Why an expression gives no usable number. -/
inductive ExpressionFault where
  /-- The text is no expression; reading stopped at this byte. -/
  | malformed (offset : Nat)
  | evaluation (mode : Mode) (fault : EvalFault)
  /-- The value has to be a count and is negative. -/
  | negative
  /-- The parameters cannot be put into an order in which each depends on earlier ones only. -/
  | cycle (mode : Mode) (names : List String)
  deriving DecidableEq, Repr

/-- Why a register cannot be placed at an address. -/
inductive PlacementFault where
  | unaligned (address span : Nat)
  | overlapping (address floor : Nat)
  /-- No aligned address is left. -/
  | exhausted
  /-- The register ends after the 32-bit address space. -/
  | outside (address span : Nat)
  /-- An address is given where addresses are chosen automatically. -/
  | unwanted (address : Nat)
  | missing
  /-- The described address is negative. -/
  | invalid (address : Int)
  | unplaced
  deriving DecidableEq, Repr

/-- What is wrong with a description. -/
inductive ConfigurationFault where
  | access (text : String)
  | interface (text : String)
  | dataWidth (bits : Nat)
  | noRegisters (moduleName : String)
  | unnamedRegister
  | repeatedRegister (name : String)
  | repeatedParameter (name : String)
  | versionRange (version : Version)
  | versionText (text : String) (fault : Version.Fault)
  | missingField (field : String)
  | noGroups (moduleName : String)
  | emptyGroup (name : String)
  | negativeReset (register : String)
  | registerWidth (register : String) (bits : Int) (mode : Mode)
  | depth (register : String) (logItems : Nat)
  | instantiatedDepth (register : String) (logItems limit : Nat)
  | span (register : String) (addrWidth limit : Nat)
  | emptyTable
  | wideWrite (register : String) (bytes busBytes : Nat)
  | resetWidth (register : String) (value : Nat) (bits : Int)
  | unreadable (path : String)
  /-- A fault found while one register was read. -/
  | inRegister (register : String) (fault : ConfigurationFault)
  deriving DecidableEq, Repr

/-- An error that ends a build. -/
inductive Error where
  | configuration (fault : ConfigurationFault)
  | address (register : String) (fault : PlacementFault)
  | expression (text substituted : String) (fault : ExpressionFault)
  /-- No word type of software has the width of the register. -/
  | wordType (register : String) (bytes : Nat)
  /-- The text is no module description. -/
  | description
  deriving DecidableEq, Repr

def ExpressionFault.message : ExpressionFault → String
  | malformed offset => s!"syntax error at offset {offset}"
  | evaluation mode fault => fault.message mode
  | negative => "expected a non-negative value"
  | cycle mode names =>
    s!"parameter dependency cycle ({mode.word}) through " ++ String.intercalate ", " names

def PlacementFault.message : PlacementFault → String
  | unaligned address span => s!"address {address} is not aligned to its {span}-byte span"
  | overlapping address floor =>
    s!"address {address} overlaps previous registers (next free address is {floor})"
  | exhausted => "no aligned address left"
  | outside address span =>
    s!"address {address} with a {span}-byte span leaves the 32-bit address space"
  | unwanted address => s!"manual address {address} while in automatic addressing mode"
  | missing => "missing address while in manual addressing mode"
  | invalid address => s!"invalid address {address}"
  | unplaced => "register missing from the resolved table"

def ConfigurationFault.message : ConfigurationFault → String
  | access text => s!"unsupported access type `{text}` (expected R, W or RW)"
  | interface text => s!"unknown CSR interface `{text}` (expected native, apb, axil or axi)"
  | dataWidth bits => s!"bus data width {bits} is not one of 8, 16, 32, 64"
  | noRegisters name => s!"module `{name}` declares no registers"
  | unnamedRegister => "register with an empty name"
  | repeatedRegister name => s!"register `{name}` is declared more than once"
  | repeatedParameter name => s!"parameter `{name}` is declared more than once"
  | versionRange version =>
    s!"version {version.text} does not fit the version register (components must be below 100)"
  | versionText text fault => s!"invalid module version `{text}`: {fault.message}"
  | missingField field => s!"missing required field `{field}`"
  | noGroups name => s!"module `{name}` has no CSR groups"
  | emptyGroup name => s!"group `{name}` has no registers"
  | negativeReset register => s!"register `{register}`: negative reset value"
  | registerWidth register bits mode =>
    s!"register `{register}` is {bits} bits wide in {mode.word} mode"
  | depth register logItems => s!"register `{register}` has 2^{logItems} elements"
  | instantiatedDepth register logItems limit =>
    s!"auto register `{register}` has 2^{logItems} elements, at most 2^{limit} are instantiated"
  | span register addrWidth limit =>
    s!"register `{register}` spans 2^{addrWidth} bytes, more than the {limit}-bit address space"
  | emptyTable => "empty register table"
  | wideWrite register bytes busBytes =>
    s!"write register `{register}` is {bytes} bytes wide, wider than the {busBytes}-byte bus"
  | resetWidth register value bits =>
    s!"register `{register}` reset value {value} does not fit in {bits} bits"
  | unreadable path => s!"cannot read {path}"
  | inRegister register fault => s!"register `{register}`: {fault.message}"

def Error.message : Error → String
  | configuration fault => s!"configuration error: {fault.message}"
  | address register fault => s!"address error in register `{register}`: {fault.message}"
  | expression text substituted fault =>
    s!"expression error: `{text}` evaluated to `{substituted}`: {fault.message}"
  | wordType register bytes =>
    s!"type error in register `{register}`: {bytes} bytes has no matching word type"
  | description => "failed to deserialize module description"

end RegisterBank
