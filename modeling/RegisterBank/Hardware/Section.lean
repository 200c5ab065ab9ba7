import RegisterBank.Verilog.Fragment
import RegisterBank.Verilog.Phrase

/-!
# Sections of a register file

Each register, and each part of the protocol, contributes wires, instances, lines of logic and lines
of the process that forms the response. Sections are put together in order.
-/

namespace RegisterBank.Hardware

/-- What one part adds to the register file. -/
structure Section where
  wires : List Verilog.Wire := []
  instances : List Verilog.Instance := []
  /-- Continuous assignments. -/
  logic : List Verilog.Phrase := []
  /-- Lines of the response process. -/
  response : List Verilog.Phrase := []
  deriving DecidableEq, Repr

namespace Section

def append (s t : Section) : Section :=
  ⟨s.wires ++ t.wires, s.instances ++ t.instances, s.logic ++ t.logic, s.response ++ t.response⟩

instance : Append Section :=
  ⟨append⟩

def concat (sections : List Section) : Section :=
  ⟨sections.flatMap (·.wires), sections.flatMap (·.instances), sections.flatMap (·.logic),
    sections.flatMap (·.response)⟩

/-- The ports that the lines of the section mention. -/
def ports (s : Section) : List String :=
  (s.logic ++ s.response).flatMap (·.ports)

@[simp] theorem wires_append (s t : Section) : (s ++ t).wires = s.wires ++ t.wires := rfl

@[simp] theorem instances_append (s t : Section) :
    (s ++ t).instances = s.instances ++ t.instances := rfl

@[simp] theorem logic_append (s t : Section) : (s ++ t).logic = s.logic ++ t.logic := rfl

@[simp] theorem response_append (s t : Section) :
    (s ++ t).response = s.response ++ t.response := rfl

@[simp] theorem concat_nil : concat [] = {} := rfl

@[simp] theorem concat_cons (s : Section) (sections : List Section) :
    concat (s :: sections) = s ++ concat sections := rfl

theorem mem_ports_append {s t : Section} {name : String} :
    name ∈ (s ++ t).ports ↔ name ∈ s.ports ∨ name ∈ t.ports := by
  simp only [ports, logic_append, response_append, List.mem_flatMap, List.mem_append]
  constructor
  · rintro ⟨phrase, (h | h) | h | h, hname⟩
    · exact .inl ⟨phrase, .inl h, hname⟩
    · exact .inr ⟨phrase, .inl h, hname⟩
    · exact .inl ⟨phrase, .inr h, hname⟩
    · exact .inr ⟨phrase, .inr h, hname⟩
  · rintro (⟨phrase, h | h, hname⟩ | ⟨phrase, h | h, hname⟩)
    · exact ⟨phrase, .inl (.inl h), hname⟩
    · exact ⟨phrase, .inr (.inl h), hname⟩
    · exact ⟨phrase, .inl (.inr h), hname⟩
    · exact ⟨phrase, .inr (.inr h), hname⟩

theorem mem_ports_concat {sections : List Section} {name : String} :
    name ∈ (concat sections).ports ↔ ∃ s ∈ sections, name ∈ s.ports := by
  induction sections with
  | nil => simp [ports]
  | cons s sections ih => simp [mem_ports_append, ih]

end Section

end RegisterBank.Hardware
