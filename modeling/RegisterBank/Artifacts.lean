import RegisterBank.Hardware.RegisterFile
import RegisterBank.Header.Files
import RegisterBank.Manual.Files
import RegisterBank.Software.Files
import RegisterBank.Verilog.Render

/-!
# Artifacts

Everything that is generated for a module: the address map, the register file, and all files. If any
of them cannot be generated, none is.
-/

namespace RegisterBank

/-- What is generated for one module. -/
structure Artifacts where
  map : AddressMap
  hardware : Verilog.Fragment
  files : List TextFile
  deriving Repr

namespace Artifacts

/-- The first file of a name. -/
def file? (a : Artifacts) (name : String) : Option TextFile :=
  a.files.find? (·.name == name)

def ofBuild (b : Build) : Except Error Artifacts := do
  let hardware ← Hardware.fragment b
  let headers ← Header.files b
  let software ← Software.files b
  let manual ← Manual.files b
  let moduleName := b.top ++ "_csrs"
  let moduleFile : TextFile := ⟨moduleName ++ ".v", hardware.render moduleName⟩
  .ok ⟨b.map, hardware, moduleFile :: headers ++ software ++ manual⟩

def generate (m : Module) : Except Error Artifacts := do
  let b ← Build.ofModule m
  ofBuild b

end Artifacts

end RegisterBank
