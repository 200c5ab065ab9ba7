import RegisterBank.Proofs.Artifacts
import RegisterBank.Proofs.Hardware.Element
import RegisterBank.Proofs.Hardware.Role
import RegisterBank.Proofs.Text.Capitals
import Mathlib.Algebra.Order.Group.Multiset

/-!
# Identifiers that are declared once

A register file declares the identifiers of the bus and, for each element of each register, those of
the roles of the element. The identifiers of a register differ from each other, and so do those of
the bus. Two registers can have an identifier in common. The first item of an array `taps` is named
`taps_0`, which may be the name of another register. A register `a_wdata` is shown to user logic as
`a_wdata_o`, and so is the data of writes to a register `a` of user logic. A register can also have
an identifier of the bus, as a register `clk` has that of the clock.
-/

namespace RegisterBank.Hardware

open Text (Family)
open Text.Family (Apart gaps)
open Role hiding gaps mem_gaps_endings
open Verilog (Signal)

variable {p q : Placement} {ps : List Placement} {bus : Nat} {rs ss : List Role}

/-- The identifiers that a fragment declares: those of its ports, and then those of its wires. -/
def identifiers (f : Verilog.Fragment) : List String :=
  (f.ports.flatMap (·.signals)).map (·.portName) ++ f.wires.map (·.name)

def instanceNames (f : Verilog.Fragment) : List String :=
  f.instances.map (·.name)

/-! ## The names of elements -/

/-- The families of names that the elements of a register have with these endings. -/
def families (ds : List String) (p : Placement) : List Family :=
  (elements p).map fun e => ⟨e.name, ds⟩

/-- The identifiers that roles give to the elements of a register. -/
def roleNames (rs : List Role) (p : Placement) : List String :=
  (families (rs.flatMap endings) p).flatMap Family.names

theorem roleNames_eq (rs : List Role) (p : Placement) :
    roleNames rs p = (elements p).flatMap fun e => (rs.flatMap endings).map (e.name ++ ·) := by
  rw [roleNames, families, List.flatMap_map]
  rfl

/-- A register of user logic is one element. -/
theorem roleNames_of_not_auto (hauto : p.register.auto = false) :
    roleNames rs p = (rs.flatMap endings).map (p.register.name ++ ·) := by
  simp [roleNames_eq, elements, wholeElement, hauto]

theorem perm_roleNames_append (rs ss : List Role) (p : Placement) :
    (roleNames rs p ++ roleNames ss p).Perm (roleNames (rs ++ ss) p) := by
  simp only [roleNames_eq, List.flatMap_append, List.map_append]
  exact List.flatMap_append_perm _ _ _

/-! ## The identifiers of the parts -/

theorem portName_output (name width : String) :
    (Signal.output name width).portName = name ++ "_o" := rfl

theorem portName_input (name width : String) :
    (Signal.input name width).portName = name ++ "_i" := rfl

theorem map_portName_registerPort? (p : Placement) :
    ((registerPort? p).toList.flatMap (·.signals)).map (·.portName) =
      roleNames (portRoles p) p := by
  unfold registerPort? portRoles writeSignals readSignals
  cases hversion : p.register.isVersion with
  | true => simp [roleNames_eq]
  | false =>
      cases hauto : p.register.auto with
      | true =>
          cases hwrites : p.register.access.writes <;> cases hreads : p.register.access.reads <;>
            simp [roleNames_eq, endings, portName_output, portName_input, List.map_eq_flatMap,
              List.flatMap_assoc]
      | false =>
          rw [roleNames_of_not_auto hauto]
          cases hwrites : p.register.access.writes <;> cases hreads : p.register.access.reads <;>
            simp [toString, endings, portName_output, portName_input, String.append_assoc]

theorem wires_concat (sections : List Section) :
    (Section.concat sections).wires = sections.flatMap (·.wires) := rfl

theorem instances_concat (sections : List Section) :
    (Section.concat sections).instances = sections.flatMap (·.instances) := rfl

theorem wires_remarkSection (p : Placement) : (remarkSection p).wires = [] := rfl

theorem map_name_sliceSection (p : Placement) (s : WriteSlice) :
    (sliceSection p s).wires.map (·.name) =
      ((written :: if p.register.auto then [stored] else []).flatMap endings).map
        (s.element.name ++ ·) := by
  cases hauto : p.register.auto <;>
    simp [hauto, toString, sliceSection, decodeSection, storedSection, forwardedSection,
      Verilog.Wire.net, endings]

theorem map_name_writePart (bus : Nat) (p : Placement) :
    (writePart bus p).wires.map (·.name) = roleNames (writeRoles p) p := by
  unfold writePart writeRoles
  cases hwrites : p.register.access.writes with
  | false => simp [roleNames_eq]
  | true =>
      simp [writeSection, wires_concat, wires_remarkSection, writeSlices, roleNames_eq,
        List.flatMap_map, List.map_flatMap, map_name_sliceSection]

theorem map_name_slots (slots : List ReadSlot) :
    (Section.concat (slots.map slotSection)).wires.map (·.name) = slots.map (·.name) := by
  simp [wires_concat, List.flatMap_map, slotSection, Verilog.Wire.var, ← List.map_eq_flatMap]

theorem map_name_elementReadSection (bus : Nat) (p : Placement) (e : Element) :
    (elementReadSection (elementRead bus p e)).wires.map (·.name) =
      (wordRole bus p).endings.map (e.name ++ ·) := by
  rw [elementReadSection, Section.wires_append, List.map_append, map_name_slots]
  unfold elementRead wordRole
  by_cases hle : p.layout.bytes ≤ bus <;>
    simp [hle, toString, endings, extensionSection, Verilog.Wire.net, String.append_assoc]

theorem map_name_readPart (bus : Nat) (p : Placement) :
    (readPart bus p).wires.map (·.name) = roleNames (readRoles bus p) p := by
  have hremark : (if p.register.access.writes then {} else remarkSection p).wires = [] := by
    split <;> rfl
  have hwords : (registerReads bus p).flatMap (fun r => (elementReadSection r).wires.map (·.name)) =
      roleNames [wordRole bus p] p := by
    rw [roleNames_eq, registerReads, List.flatMap_map, List.flatMap_singleton]
    exact List.flatMap_congr fun e _ => map_name_elementReadSection bus p e
  unfold readPart readRoles readSection
  cases hreads : p.register.access.reads with
  | false => simp [roleNames_eq]
  | true =>
      cases hwaits : waits p.register with
      | false =>
          simp [hremark, wires_concat, List.flatMap_map, List.map_flatMap, hwords]
      | true =>
          have hauto : p.register.auto = false := by
            cases hauto : p.register.auto <;> simp [waits, hauto] at hwaits ⊢
          rw [roleNames_of_not_auto hauto] at hwords ⊢
          simp [hremark, wires_concat, List.flatMap_map, List.map_flatMap, hwords, endings,
            strobeSection, toString, Verilog.Wire.net]

/-! ## The identifiers of the register file -/

theorem perm_flatMap_roleNames (ps : List Placement) (rs ss : Placement → List Role) :
    (ps.flatMap (fun p => roleNames (rs p) p) ++ ps.flatMap fun p => roleNames (ss p) p).Perm
      (ps.flatMap fun p => roleNames (rs p ++ ss p) p) :=
  (List.flatMap_append_perm _ _ _).trans
    (List.Perm.flatMap_left _ fun p _ => perm_roleNames_append (rs p) (ss p) p)

theorem map_portName_ports (b : Build) :
    ((fragmentOf b).ports.flatMap (·.signals)).map (·.portName) =
      (busSignals b.design.settings.interface).map (·.portName) ++
        b.placements.flatMap fun p => roleNames (portRoles p) p := by
  simp only [fragmentOf, List.flatMap_append, List.map_append, busSignals,
    List.filterMap_eq_flatMap_toList, List.flatMap_assoc, List.map_flatMap,
    ← map_portName_registerPort?]

theorem map_name_wires (b : Build) :
    (fragmentOf b).wires.map (·.name) =
      ((busSection b.design.settings.interface).wires ++ addressSection.wires).map (·.name) ++
        b.placements.flatMap (fun p => roleNames (writeRoles p) p) ++
        b.placements.flatMap (fun p => roleNames (readRoles b.busBytes p) p) ++
        responseSection.wires.map (·.name) := by
  simp only [fragmentOf, body, Section.wires_append, wires_concat, List.map_append,
    List.flatMap_map, List.map_flatMap, map_name_writePart, map_name_readPart]

/-- A register file declares the identifiers of the bus and those of the roles of its registers. -/
theorem perm_identifiers_fragmentOf (b : Build) :
    (identifiers (fragmentOf b)).Perm
      (busIdentifiers b.design.settings.interface ++
        b.placements.flatMap fun p => roleNames (roles b.busBytes p) p) := by
  have hroles := ((perm_flatMap_roleNames b.placements portRoles writeRoles).append_right _).trans
    (perm_flatMap_roleNames b.placements (fun p => portRoles p ++ writeRoles p)
      (readRoles b.busBytes))
  refine .trans ?_ (hroles.append_left _)
  rw [identifiers, map_portName_ports, map_name_wires, busIdentifiers]
  simp only [List.map_append, ← Multiset.coe_eq_coe, ← Multiset.coe_add]
  ac_rfl

/-! ## Identifiers of different registers -/

/-- The families of the elements of a register are apart, if those of items have no proper gaps. -/
theorem pairwise_apart_families {ds : List String}
    (hitems : p.register.auto = true → ∀ z ∈ gaps ds ds, z = "") :
    (families ds p).Pairwise Apart := by
  by_cases h : p.register.auto = true ∧ 1 < p.layout.items
  · rw [families, elements_eq_items h.1 h.2, List.map_map, List.pairwise_map]
    refine List.pairwise_lt_range.imp ?_
    intro i j hij
    have hne : (itemElement p i).name ≠ (itemElement p j).name := by
      intro h
      exact hij.ne (repr_inj.1 ((String.append_right_inj _).1 h))
    refine Family.apart_iff.2 ⟨?_, ?_⟩
    · intro z hz heq
      simp [hitems h.1 z hz, hne.symm] at heq
    · intro z hz heq
      simp [hitems h.1 z hz, hne] at heq
  · rw [families, elements_eq_whole h]
    exact List.pairwise_singleton _ _

theorem apart_iff_of_mem_families {ds es : List String} :
    (∀ f ∈ families ds p, ∀ g ∈ families es q, Apart f g) ↔
      (∀ e ∈ elements p, ∀ f ∈ elements q, ∀ z ∈ gaps ds es, f.name ≠ e.name ++ z) ∧
        ∀ f ∈ elements q, ∀ e ∈ elements p, ∀ z ∈ gaps es ds, e.name ≠ f.name ++ z := by
  simp only [families, List.forall_mem_map, Family.apart_iff]
  constructor
  · intro h
    exact ⟨fun e he f hf => (h e he f hf).1, fun f hf e he => (h e he f hf).2⟩
  · rintro ⟨hfirst, hsecond⟩ e he f hf
    exact ⟨hfirst e he f hf, hsecond f hf e he⟩

/-- Registers of different names have names of elements in common only over a gap. -/
theorem nodup_flatMap_families_iff {ds : Placement → List String}
    (hne : ps.Pairwise fun p q => p.register.name ≠ q.register.name)
    (hds : ∀ p ∈ ps, (ds p).Nodup)
    (hitems : ∀ p ∈ ps, p.register.auto = true → ∀ z ∈ gaps (ds p) (ds p), z = "") :
    (ps.flatMap fun p => (families (ds p) p).flatMap Family.names).Nodup ↔
      ∀ p ∈ ps, ∀ q ∈ ps, p.register.name ≠ q.register.name →
        ∀ e ∈ elements p, ∀ f ∈ elements q, ∀ z ∈ gaps (ds p) (ds q), f.name ≠ e.name ++ z := by
  have hendings : ∀ f ∈ ps.flatMap (fun p => families (ds p) p), f.endings.Nodup := by
    simp only [families, List.forall_mem_flatMap, List.forall_mem_map]
    exact fun p hp _ _ => hds p hp
  rw [← List.flatMap_assoc, Family.nodup_flatMap_names_iff hendings, List.pairwise_flatMap,
    and_iff_right fun p hp => pairwise_apart_families (hitems p hp)]
  rw [← Text.pairwise_and_swap_iff fun p _ h => absurd rfl h]
  simp only [apart_iff_of_mem_families]
  constructor
  · intro h
    exact h.imp fun h => ⟨fun _ => h.1, fun _ => h.2⟩
  · intro h
    exact (h.and hne).imp fun h => ⟨h.1.1 h.2, h.1.2 h.2.symm⟩

theorem nodup_flatMap_roleNames_iff (bus : Nat)
    (hne : ps.Pairwise fun p q => p.register.name ≠ q.register.name) :
    (ps.flatMap fun p => roleNames (roles bus p) p).Nodup ↔
      ∀ p ∈ ps, ∀ q ∈ ps, p.register.name ≠ q.register.name →
        ∀ e ∈ elements p, ∀ f ∈ elements q, ∀ r ∈ roles bus p, ∀ s ∈ roles bus q,
          ∀ z ∈ r.gaps s, f.name ≠ e.name ++ z := by
  refine (nodup_flatMap_families_iff hne (fun p _ => nodup_flatMap_endings (pairwise_roles bus p))
    ?_).trans ?_
  · intro p _ hauto z hz
    obtain ⟨r, hr, s, hs, hz⟩ := mem_gaps_flatMap.1 hz
    exact forall_mem_gaps_roles bus hauto r hr s hs z hz
  · simp only [mem_gaps_flatMap]
    constructor
    · intro h p hp q hq hne e he f hf r hr s hs z hz
      exact h p hp q hq hne e he f hf z ⟨r, hr, s, hs, hz⟩
    · rintro h p hp q hq hne e he f hf z ⟨r, hr, s, hs, hz⟩
      exact h p hp q hq hne e he f hf r hr s hs z hz

/-- The identifiers of registers are not those of the bus, and differ from each other. -/
@[mk_iff]
structure IdentifiersApart (s : Settings) (ps : List Placement) : Prop where
  bus : ∀ p ∈ ps, ∀ n ∈ roleNames (roles s.busBytes p) p, n ∉ busIdentifiers s.interface
  register : ∀ p ∈ ps, ∀ q ∈ ps, p.register.name ≠ q.register.name →
    ∀ e ∈ elements p, ∀ f ∈ elements q, ∀ r ∈ roles s.busBytes p, ∀ r' ∈ roles s.busBytes q,
      ∀ z ∈ r.gaps r', f.name ≠ e.name ++ z

instance (s : Settings) (ps : List Placement) : Decidable (IdentifiersApart s ps) :=
  decidable_of_iff' _ (identifiersApart_iff s ps)

theorem nodup_identifiers_iff {b : Build} (hb : b.Checked) :
    (identifiers (fragmentOf b)).Nodup ↔
      IdentifiersApart b.design.settings b.placements := by
  have hne := hb.names.imp Register.Distinct.name_ne
  rw [(perm_identifiers_fragmentOf b).nodup_iff, List.nodup_append',
    and_iff_right (nodup_busIdentifiers _), nodup_flatMap_roleNames_iff b.busBytes hne,
    identifiersApart_iff, and_comm, List.disjoint_right, List.forall_mem_flatMap]
  rfl

/-! ## Instances -/

/-- The registers whose values the register file stores. -/
def storedRegisters (ps : List Placement) : List Placement :=
  (writable ps).filter (·.register.auto)

theorem mem_storedRegisters :
    p ∈ storedRegisters ps ↔ p ∈ writable ps ∧ p.register.auto = true :=
  List.mem_filter

/-- The instances that every register file of the interface has. -/
def busInstances (interface : Interface) : List String :=
  ((busSection interface).instances ++ addressSection.instances ++ responseSection.instances).map
    (·.name)

theorem nodup_busInstances (interface : Interface) : (busInstances interface).Nodup := by
  cases interface <;> decide

theorem before?_busInstances (interface : Interface) :
    ∀ n ∈ busInstances interface, Text.before? "_datareg" n = none := by
  cases interface <;> decide

/-- The storages of a register that the register file stores, one for each element. -/
def storageNames (p : Placement) : List String :=
  (families ["_datareg"] p).flatMap Family.names

theorem instances_sliceSection (p : Placement) (s : WriteSlice) :
    (sliceSection p s).instances = if p.register.auto then [storage p s] else [] := by
  cases hauto : p.register.auto <;>
    simp [hauto, sliceSection, decodeSection, storedSection, forwardedSection]

theorem instances_writePart (bus : Nat) (p : Placement) :
    (writePart bus p).instances =
      if p.register.access.writes then
        if p.register.auto then (writeSlices bus p).map (storage p) else []
      else [] := by
  have hremark : (remarkSection p).instances = [] := rfl
  unfold writePart writeSection
  cases hwrites : p.register.access.writes with
  | false => rfl
  | true =>
      cases hauto : p.register.auto <;>
        simp [hremark, instances_concat, List.flatMap_map, instances_sliceSection, hauto,
          ← List.map_eq_flatMap]

theorem map_name_storages (bus : Nat) (p : Placement) :
    ((writeSlices bus p).map (storage p)).map (·.name) = storageNames p := by
  simp [writeSlices, storage, storageNames, families, Family.names, toString, List.flatMap_map,
    Function.comp_def, ← List.map_eq_flatMap]

theorem instances_readPart (bus : Nat) (p : Placement) : (readPart bus p).instances = [] := by
  have hstrobe : (if waits p.register then strobeSection p else {}).instances = [] := by
    split <;> rfl
  have hremark : (if p.register.access.writes then {} else remarkSection p).instances = [] := by
    split <;> rfl
  have hread (r : ElementRead) : (elementReadSection r).instances = [] := by
    cases hextension : r.extension <;>
      simp [elementReadSection, hextension, instances_concat, List.flatMap_map, slotSection,
        extensionSection]
  unfold readPart readSection
  split <;> simp [hremark, hstrobe, hread, instances_concat, List.flatMap_map]

/-- The instances of a register file are those of the bus and the storages of the elements that it
holds, with the registers of the response at the end. -/
theorem instances_fragmentOf (b : Build) :
    (fragmentOf b).instances =
      (busSection b.design.settings.interface).instances ++ addressSection.instances ++
        (storedRegisters b.placements).flatMap
          (fun p => (writeSlices b.busBytes p).map (storage p)) ++
        responseSection.instances := by
  have hread : b.placements.flatMap (fun p => (readPart b.busBytes p).instances) = [] := by
    simp [instances_readPart]
  simp only [fragmentOf, body, Section.instances_append, instances_concat, List.flatMap_map, hread,
    List.append_nil, storedRegisters, writable, flatMap_filter_eq, instances_writePart]

theorem perm_instanceNames_fragmentOf (b : Build) :
    (instanceNames (fragmentOf b)).Perm
      (busInstances b.design.settings.interface ++
        (storedRegisters b.placements).flatMap storageNames) := by
  rw [instanceNames, instances_fragmentOf, busInstances]
  simp only [List.map_append, List.map_flatMap, map_name_storages, ← Multiset.coe_eq_coe,
    ← Multiset.coe_add]
  ac_rfl

theorem nodup_instanceNames_iff {b : Build} (hb : b.Checked) :
    (instanceNames (fragmentOf b)).Nodup ↔
      ∀ p ∈ storedRegisters b.placements, ∀ q ∈ storedRegisters b.placements,
        p.register.name ≠ q.register.name →
          ∀ e ∈ elements p, ∀ f ∈ elements q, f.name ≠ e.name := by
  have hne : (storedRegisters b.placements).Pairwise fun p q => p.register.name ≠ q.register.name :=
    ((hb.names.imp Register.Distinct.name_ne).filter _).filter _
  have hgaps : gaps ["_datareg"] ["_datareg"] = [""] := by decide
  have hstorages := nodup_flatMap_families_iff hne (fun _ _ => List.nodup_singleton "_datareg")
    (by simp [hgaps])
  simp only [hgaps, List.mem_singleton, forall_eq, String.append_empty] at hstorages
  have hdisjoint : (busInstances b.design.settings.interface).Disjoint
      ((storedRegisters b.placements).flatMap storageNames) := by
    intro n hbus hstored
    simp only [storageNames, families, List.mem_flatMap, List.mem_map, Family.names] at hstored
    obtain ⟨p, -, _, ⟨e, -, rfl⟩, _, hending, rfl⟩ := hstored
    rw [List.mem_singleton.1 hending] at hbus
    exact Text.ne_append_of_before? (before?_busInstances _ _ hbus) rfl
  rw [(perm_instanceNames_fragmentOf b).nodup_iff, List.nodup_append',
    and_iff_right (nodup_busInstances _), and_iff_left hdisjoint]
  exact hstorages

end RegisterBank.Hardware

namespace RegisterBank.Artifacts

open Hardware

variable {m : Module} {a : Artifacts}

/-- In the register file of a generated module, when is no identifier declared twice? Exactly if no
element of a register has an identifier of the bus, and no two registers have elements of which one
is named as the other with a gap of their roles after it. The instances have different names exactly
if no two stored registers have elements of the same name. -/
theorem generate_nodup_identifiers_iff (h : generate m = .ok a) :
    ((identifiers a.hardware).Nodup ↔ IdentifiersApart m.settings a.map.placements) ∧
      ((instanceNames a.hardware).Nodup ↔
        ∀ p ∈ storedRegisters a.map.placements, ∀ q ∈ storedRegisters a.map.placements,
          p.register.name ≠ q.register.name →
            ∀ e ∈ elements p, ∀ f ∈ elements q, f.name ≠ e.name) := by
  obtain ⟨b, hb, rfl, hmap, hhardware⟩ := exists_checked_of_generate_eq_ok h
  rw [hhardware, ← hmap]
  exact ⟨nodup_identifiers_iff hb, nodup_instanceNames_iff hb⟩

theorem generate_nodup_identifiers_iff_mixedModule :
    ∃ a, generate mixedModule = .ok a ∧ (identifiers a.hardware).Nodup ∧
      (instanceNames a.hardware).Nodup := by
  obtain ⟨a, ha, hidentifiers, hinstances⟩ :
      ∃ a, generate mixedModule = .ok a ∧
        IdentifiersApart mixedModule.settings a.map.placements ∧
        ∀ p ∈ storedRegisters a.map.placements, ∀ q ∈ storedRegisters a.map.placements,
          p.register.name ≠ q.register.name →
            ∀ e ∈ elements p, ∀ f ∈ elements q, f.name ≠ e.name :=
    ⟨_, rfl, by decide +kernel, by decide⟩
  have hiff := generate_nodup_identifiers_iff ha
  exact ⟨a, ha, hiff.1.2 hidentifiers, hiff.2.2 hinstances⟩

/-- A module with a register named as the clock, and a register named as the first item of an
array. -/
def clockModule : Module :=
  { name := "clocked"
    version := { major := 1, minor := 0, patch := 0 }
    groups :=
      [⟨"main", "",
        [{ name := "clk", access := .read, width := .literal 8 },
          { name := "taps", access := .readWrite, width := .literal 8, logItems := .literal 1 },
          { name := "taps_0", access := .readWrite, width := .literal 8 }]⟩] }

theorem not_nodup_identifiers_clockModule :
    (∀ r ∈ Group.flatten clockModule.groups, Text.IsIdentifier r.name) ∧
      ∃ a, generate clockModule = .ok a ∧ ¬ (identifiers a.hardware).Nodup ∧
        ¬ (instanceNames a.hardware).Nodup :=
  ⟨by decide, _, rfl, by decide +kernel, by decide⟩

end RegisterBank.Artifacts
