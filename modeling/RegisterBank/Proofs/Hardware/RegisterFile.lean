import Mathlib.Data.List.Basic
import RegisterBank.Hardware.RegisterFile
import RegisterBank.Proofs.Failure

/-!
# The parts of the register file

The write decode of a table is that of its writable registers one after the other, and the read
decode that of its readable ones. `logic_body` and `response_body` say that nothing else stands
beside the protocol: among the assignments the data and decodes of the written elements and what the
read slots take their bits from, and in the process that forms the response the ready lines of the
written elements and then the read slots.
-/

namespace RegisterBank.Hardware

variable {b : Build} {p : Placement} {ps : List Placement} {bus : Nat}

/-- The registers that software can write. -/
def writable (ps : List Placement) : List Placement :=
  ps.filter (·.register.access.writes)

/-- The registers that software can read. -/
def readable (ps : List Placement) : List Placement :=
  ps.filter (·.register.access.reads)

/-- The write slices of all registers. -/
def tableSlices (bus : Nat) (ps : List Placement) : List WriteSlice :=
  (writable ps).flatMap (writeSlices bus)

/-- The read slots of all registers. -/
def tableSlots (bus : Nat) (ps : List Placement) : List ReadSlot :=
  (readable ps).flatMap (readSlots bus)

theorem mem_writable : p ∈ writable ps ↔ p ∈ ps ∧ p.register.access.writes = true :=
  List.mem_filter

theorem mem_readable : p ∈ readable ps ↔ p ∈ ps ∧ p.register.access.reads = true :=
  List.mem_filter

theorem flatMap_filter_eq {α β : Type} (f : α → List β) (keep : α → Bool) (xs : List α) :
    (xs.filter keep).flatMap f = xs.flatMap fun x => if keep x then f x else [] := by
  induction xs with
  | nil => rfl
  | cons x xs ih =>
      cases hx : keep x <;> simp [hx, ih]

theorem response_concat (sections : List Section) :
    (Section.concat sections).response = sections.flatMap (·.response) := rfl

theorem response_writePart (bus : Nat) (p : Placement) :
    (writePart bus p).response =
      if p.register.access.writes then
        (writeSlices bus p).flatMap fun s => (sliceSection p s).response
      else [] := by
  unfold writePart
  split
  · rw [Section.response_append, writeSection, response_concat, List.flatMap_map]
    rfl
  · rfl

theorem response_readSection (bus : Nat) (p : Placement) :
    (readSection bus p).response = (readSlots bus p).flatMap fun s => (slotSection s).response := by
  have hstrobe : (if waits p.register then strobeSection p else {}).response = [] := by
    split <;> rfl
  have hread : ∀ r : ElementRead, (elementReadSection r).response =
      r.slots.flatMap fun s => (slotSection s).response := by
    intro r
    unfold elementReadSection
    rw [Section.response_append, response_concat, List.flatMap_map]
    cases r.extension <;> rfl
  rw [readSection, Section.response_append, hstrobe, response_concat, List.flatMap_map, readSlots,
    List.flatMap_assoc]
  simp only [hread, List.nil_append]

theorem response_readPart (bus : Nat) (p : Placement) :
    (readPart bus p).response =
      if p.register.access.reads then (readSlots bus p).flatMap fun s => (slotSection s).response
      else [] := by
  have hremark : (if p.register.access.writes then {} else remarkSection p).response = [] := by
    split <;> rfl
  unfold readPart
  split
  · rw [Section.response_append, hremark, response_readSection]
    rfl
  · rfl

/-- The response process has the ready lines of the written elements and then the read slots, in
order of declaration. -/
theorem response_body (b : Build) :
    (body b).response =
      ((writable b.placements).flatMap fun p =>
        (writeSlices b.busBytes p).flatMap fun s => (sliceSection p s).response) ++
      (tableSlots b.busBytes b.placements).flatMap fun s => (slotSection s).response := by
  have hbus : (busSection b.design.settings.interface).response = [] := by
    cases b.design.settings.interface <;> rfl
  have haddress : addressSection.response = [] := rfl
  have hresponse : responseSection.response = [] := rfl
  simp only [body, Section.response_append, hbus, haddress, hresponse, response_concat,
    List.flatMap_map, response_writePart, response_readPart, tableSlots, readable, writable,
    flatMap_filter_eq, List.flatMap_assoc, List.nil_append, List.append_nil]
  congr 1
  apply List.flatMap_congr
  intro p _
  split <;> rfl

theorem logic_concat (sections : List Section) :
    (Section.concat sections).logic = sections.flatMap (·.logic) := rfl

theorem logic_writePart (bus : Nat) (p : Placement) :
    (writePart bus p).logic =
      if p.register.access.writes then
        (remarkSection p).logic ++ (writeSlices bus p).flatMap fun s => (sliceSection p s).logic
      else [] := by
  unfold writePart
  split
  · rw [Section.logic_append, writeSection, logic_concat, List.flatMap_map]
  · rfl

theorem logic_readSection (bus : Nat) (p : Placement) :
    (readSection bus p).logic =
      (if waits p.register then (strobeSection p).logic else []) ++
        (registerReads bus p).flatMap fun r =>
          r.extension.toList.flatMap fun x => (extensionSection x).logic := by
  have hslots : ∀ slots : List ReadSlot, (Section.concat (slots.map slotSection)).logic = [] := by
    intro slots
    rw [logic_concat, List.flatMap_map]
    exact List.flatMap_eq_nil_iff.2 fun _ _ => rfl
  have hread : ∀ r : ElementRead, (elementReadSection r).logic =
      r.extension.toList.flatMap fun x => (extensionSection x).logic := by
    intro r
    rw [elementReadSection, Section.logic_append, hslots, List.append_nil]
    cases r.extension with
    | none => rfl
    | some x => exact (List.flatMap_singleton (fun x => (extensionSection x).logic) x).symm
  rw [readSection, Section.logic_append, logic_concat, List.flatMap_map]
  simp only [hread]
  split <;> rfl

theorem logic_readPart (bus : Nat) (p : Placement) :
    (readPart bus p).logic =
      if p.register.access.reads then
        (if p.register.access.writes then [] else (remarkSection p).logic) ++
          (readSection bus p).logic
      else [] := by
  unfold readPart
  split
  · rw [Section.logic_append]
    split <;> rfl
  · rfl

/-- The assignments of the protocol, of the writable registers and of the readable ones, in order of
declaration. -/
theorem logic_body (b : Build) :
    (body b).logic =
      (busSection b.design.settings.interface).logic ++ addressSection.logic ++
      ((writable b.placements).flatMap fun p =>
        (remarkSection p).logic ++
          (writeSlices b.busBytes p).flatMap fun s => (sliceSection p s).logic) ++
      (readable b.placements).flatMap fun p =>
        (if p.register.access.writes then [] else (remarkSection p).logic) ++
          (readSection b.busBytes p).logic := by
  have hresponse : responseSection.logic = [] := rfl
  simp only [body, Section.logic_append, hresponse, logic_concat, List.flatMap_map,
    logic_writePart, logic_readPart, readable, writable, flatMap_filter_eq, List.append_nil]

theorem writable_cons_of_pos (h : p.register.access.writes = true) :
    writable (p :: ps) = p :: writable ps :=
  List.filter_cons_of_pos h

theorem writable_cons_of_neg (h : ¬ p.register.access.writes = true) :
    writable (p :: ps) = writable ps :=
  List.filter_cons_of_neg h

theorem checkWrites_eq_ok_iff :
    checkWrites b ps = .ok () ↔ ∀ p ∈ writable ps, checkWrite b p = .ok () := by
  induction ps with
  | nil => simp [checkWrites, writable]
  | cons p ps ih =>
      by_cases hwrites : p.register.access.writes = true
      · rw [checkWrites, if_pos hwrites, bind_eq_ok_iff, writable_cons_of_pos hwrites,
          List.forall_mem_cons, ← ih]
        constructor
        · rintro ⟨⟨⟩, hp, hps⟩
          exact ⟨hp, hps⟩
        · rintro ⟨hp, hps⟩
          exact ⟨(), hp, hps⟩
      · rw [checkWrites, if_neg hwrites, writable_cons_of_neg hwrites, ← ih]

/-- A table is refused for one of its writable registers. -/
theorem exists_of_checkWrites_eq_error {e : Error} (h : checkWrites b ps = .error e) :
    ∃ p ∈ writable ps, checkWrite b p = .error e := by
  induction ps with
  | nil => cases h
  | cons p ps ih =>
      rw [checkWrites] at h
      by_cases hwrites : p.register.access.writes = true
      · rw [if_pos hwrites] at h
        rw [writable_cons_of_pos hwrites, List.exists_mem_cons_iff]
        rcases bind_eq_error_iff.1 h with hp | ⟨⟨⟩, -, hps⟩
        · exact .inl hp
        · exact .inr (ih hps)
      · rw [if_neg hwrites] at h
        rw [writable_cons_of_neg hwrites]
        exact ih h

theorem fragment_eq_ok_iff {f : Verilog.Fragment} :
    fragment b = .ok f ↔
      (∀ p ∈ writable b.placements, checkWrite b p = .ok ()) ∧ f = fragmentOf b := by
  rw [fragment, bind_eq_ok_iff, ← checkWrites_eq_ok_iff]
  constructor
  · rintro ⟨⟨⟩, hchecked, h⟩
    cases h
    exact ⟨hchecked, rfl⟩
  · rintro ⟨hchecked, rfl⟩
    exact ⟨(), hchecked, rfl⟩

/-- A register that software can write has items that fit into a bus word. -/
theorem bytes_le_of_checkWrite_eq_ok (h : checkWrite b p = .ok ()) :
    p.layout.bytes ≤ b.busBytes := by
  rw [checkWrite, ite_error_eq_ok_iff] at h
  exact Nat.not_lt.1 h.1

end RegisterBank.Hardware
