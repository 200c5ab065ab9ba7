import RegisterBank.Error

/-!
# Bus interfaces

The protocol at the boundary of the register file. All but the native one are converted to the
internal bus by a converter core in front of it.
-/

namespace RegisterBank

/-- The external bus protocol. -/
inductive Interface where
  /-- The internal bus itself. -/
  | native
  | apb
  | axiLite
  | axi
  deriving DecidableEq, Repr

namespace Interface

def name : Interface → String
  | native => "native"
  | apb => "apb"
  | axiLite => "axil"
  | axi => "axi"

/-- What the names of the protocol's signals begin with. -/
def stem : Interface → String
  | native => "iob"
  | apb => "apb"
  | axiLite => "axil"
  | axi => "axi"

/-- The core that converts the protocol into the internal bus. -/
def converter? : Interface → Option String
  | native => none
  | apb => some "apb2iob"
  | axiLite => some "axil2iob"
  | axi => some "axi2iob"

/-- The protocol that a name stands for, whatever the case of its letters. -/
def parse (text : String) : Except Error Interface :=
  let name := Text.asciiLower text
  if name = "native" ∨ name = "iob" then .ok native
  else if name = "apb" then .ok apb
  else if name = "axil" ∨ name = "axi-lite" ∨ name = "axi_lite" then .ok axiLite
  else if name = "axi" then .ok axi
  else .error (.configuration (.interface name))

end Interface

end RegisterBank
