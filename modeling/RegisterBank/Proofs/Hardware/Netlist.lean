import RegisterBank.Proofs.Hardware.Identifiers

/-!
# Closed netlists

A register file is closed if the instances are connected to declared signals only and the logic
mentions declared ports only (`Closed`). The ports that the decode of a register uses belong to its
roles at the boundary, so they are declared with the register. The version register is the
exception. It has no port at all, and its read decode uses none, but its write decode does, where
software can write it. Such a register file is closed only if other registers happen to have these
ports (`WritesDeclared`).
-/

namespace RegisterBank.Hardware

open Role hiding gaps mem_gaps_endings
open Verilog (Fragment Phrase Piece)

variable {b : Build} {p : Placement} {rs : List Role} {bus : Nat} {name : String}

/-- The ports of a fragment. -/
def portNames (f : Fragment) : List String :=
  (f.ports.flatMap (·.signals)).map (·.portName)

/-- The lines of the snippet of a build, with the ports that they mention. -/
def phrases (b : Build) : List Phrase :=
  (body b).logic ++ responseOpening.map Phrase.plain ++ (body b).response ++
    stateMachine.map Phrase.plain

theorem snippet_fragmentOf (b : Build) :
    (fragmentOf b).snippet = Text.unlines ((phrases b).map (·.line)) := by
  have hplain : ∀ lines : List String, (lines.map Phrase.plain).map (·.line) = lines := by
    intro lines
    simp [Function.comp_def]
  simp only [fragmentOf, phrases, List.map_append, hplain]

/-- Whatever an instance is connected to is declared, and every port that a line mentions is one of
the fragment. -/
structure Closed (f : Fragment) (phrases : List Phrase) : Prop where
  connected : ∀ i ∈ f.instances, ∀ c ∈ i.connections, c.2 ∈ identifiers f
  mentioned : ∀ phrase ∈ phrases, ∀ name ∈ phrase.ports, name ∈ portNames f

/-! ## Declared names -/

theorem mem_roleNames : name ∈ roleNames rs p ↔
    ∃ e ∈ elements p, ∃ r ∈ rs, ∃ d ∈ r.endings, e.name ++ d = name := by
  simp only [roleNames_eq, List.mem_flatMap, List.mem_map]
  constructor
  · rintro ⟨e, he, d, ⟨r, hr, hd⟩, rfl⟩
    exact ⟨e, he, r, hr, d, hd, rfl⟩
  · rintro ⟨e, he, r, hr, d, hd, rfl⟩
    exact ⟨e, he, d, ⟨r, hr, hd⟩, rfl⟩

theorem mem_identifiers : name ∈ identifiers (fragmentOf b) ↔
    name ∈ busIdentifiers b.design.settings.interface ∨
      ∃ p ∈ b.placements, name ∈ roleNames (roles b.busBytes p) p := by
  rw [(perm_identifiers_fragmentOf b).mem_iff, List.mem_append, List.mem_flatMap]

theorem mem_portNames : name ∈ portNames (fragmentOf b) ↔
    name ∈ (busSignals b.design.settings.interface).map (·.portName) ∨
      ∃ p ∈ b.placements, name ∈ roleNames (portRoles p) p := by
  rw [portNames, map_portName_ports, List.mem_append, List.mem_flatMap]

/-! ## The parts of the protocol -/

theorem connected_bus (interface : Interface) :
    ∀ i ∈ (busSection interface).instances ++ addressSection.instances ++ responseSection.instances,
      ∀ c ∈ i.connections, c.2 ∈ busIdentifiers interface := by
  cases interface <;> decide +kernel

theorem mentioned_bus (interface : Interface) :
    ∀ n ∈ (busSection interface).ports, n ∈ (busSignals interface).map (·.portName) := by
  cases interface <;> decide +kernel

theorem clock_mem_busIdentifiers (interface : Interface) :
    ∀ c ∈ Verilog.clockConnections, c.2 ∈ busIdentifiers interface := by
  cases interface <;> decide +kernel

theorem ports_eq_nil : addressSection.ports = [] ∧ responseSection.ports = [] ∧
    ∀ p, (remarkSection p).ports = [] :=
  ⟨rfl, rfl, fun _ => rfl⟩

/-! ## What the decode of a register mentions -/

theorem mem_ports_sliceSection {s : WriteSlice} : name ∈ (sliceSection p s).ports ↔
    p.register.auto = false ∧ ∃ d ∈ forwarded.endings, s.element.name ++ d = name := by
  have hdecode : (decodeSection s).ports = [] := rfl
  rw [sliceSection, Section.mem_ports_append, hdecode]
  cases hauto : p.register.auto with
  | true =>
      have hstored : (storedSection p s).ports = [] := rfl
      simp [hstored]
  | false =>
      have hforwarded : (forwardedSection s).ports =
          [s.element.name ++ "_wen_o", s.element.name ++ "_wdata_o",
            s.element.name ++ "_wready_i"] := rfl
      simp [hforwarded, endings, eq_comm, or_comm, or_left_comm]

/-- The write part mentions the ports by which a register of user logic is written. -/
theorem mem_ports_writePart : name ∈ (writePart bus p).ports ↔
    p.register.access.writes = true ∧ p.register.auto = false ∧
      name ∈ roleNames [forwarded] p := by
  unfold writePart
  split
  · rename_i hwrites
    rw [Section.mem_ports_append, ports_eq_nil.2.2, writeSection, Section.mem_ports_concat,
      mem_roleNames]
    simp [writeSlices, mem_ports_sliceSection, hwrites, and_left_comm]
  · rename_i hwrites
    simp [hwrites, Section.ports]

/-- The role by which a register is read. -/
def readRole (p : Placement) : Role :=
  if p.register.auto then if p.register.access.writes then shown else sampled else answered

theorem mem_ports_slotSection {s : ReadSlot} : name ∈ (slotSection s).ports ↔
    s.source.piece.port? = some name ∨
      ∃ n, s.handshake = some n ∧ (n ++ "_rvalid_i" = name ∨ n ++ "_rready_i" = name) := by
  cases hhandshake : s.handshake <;>
    simp [Section.ports, slotSection, handshakeLines, hhandshake, Phrase.ports, Piece.port?,
      Phrase.plain, toString, eq_comm]

theorem mem_ports_extensionSection {x : Extension} :
    name ∈ (extensionSection x).ports ↔ x.source.port? = some name := by
  simp [Section.ports, extensionSection, Phrase.ports, Piece.port?]

/-- Reads of an element mention what it is read from, and the handshake of the register. -/
theorem of_mem_ports_elementRead {e : Element}
    (h : name ∈ (elementReadSection (elementRead bus p e)).ports) :
    (readSource p e).port? = some name ∨ waits p.register = true ∧
      (p.register.name ++ "_rvalid_i" = name ∨ p.register.name ++ "_rready_i" = name) := by
  have hhandshake : ∀ {n}, (if waits p.register then some p.register.name else none) = some n →
      waits p.register = true ∧ p.register.name = n := by
    intro n hn
    rwa [Option.ite_none_right_eq_some, Option.some.injEq] at hn
  rw [elementReadSection, Section.mem_ports_append, Section.mem_ports_concat] at h
  unfold elementRead at h
  by_cases hle : p.layout.bytes ≤ bus
  · simp only [if_pos hle, List.map_cons, List.map_nil, List.mem_singleton, exists_eq_left,
      mem_ports_slotSection] at h
    rcases h with hnone | hsource | ⟨n, hn, hname⟩
    · cases hnone
    · exact .inl hsource
    · obtain ⟨hwaits, rfl⟩ := hhandshake hn
      exact .inr ⟨hwaits, hname⟩
  · simp only [if_neg hle, mem_ports_extensionSection, List.mem_map] at h
    rcases h with hsource | ⟨_, ⟨s, ⟨k, -, rfl⟩, rfl⟩, hs⟩
    · exact .inl hsource
    · rcases mem_ports_slotSection.1 hs with hnone | ⟨n, hn, hname⟩
      · cases hnone
      · obtain ⟨hwaits, rfl⟩ := hhandshake hn
        exact .inr ⟨hwaits, hname⟩

theorem waits_eq_true_iff {r : Register} :
    waits r = true ↔ r.auto = false ∧ r.isVersion = false := by
  simp [waits]

/-- A register of user logic is read by the ports of its handshake. -/
theorem mem_roleNames_of_waits (h : waits p.register = true) {d : String}
    (hd : d ∈ answered.endings) : p.register.name ++ d ∈ roleNames [readRole p] p := by
  obtain ⟨hauto, -⟩ := waits_eq_true_iff.1 h
  have hrole : readRole p = answered := by
    rw [readRole, hauto]
    rfl
  rw [roleNames_of_not_auto hauto, hrole]
  exact List.mem_map_of_mem (by simpa using hd)

theorem port?_readSource (p : Placement) (e : Element) :
    (readSource p e).port? =
      if p.register.isVersion then none
      else if p.register.auto then some (e.name ++ if p.register.access.writes then "_o" else "_i")
      else some (p.register.name ++ "_rdata_i") := by
  unfold readSource
  cases hversion : p.register.isVersion <;> cases hauto : p.register.auto <;>
    cases hwrites : p.register.access.writes <;>
      simp [hversion, hauto, hwrites, Piece.port?, toString]

/-- What an element is read from belongs to the role by which its register is read. -/
theorem of_port?_readSource {e : Element} (he : e ∈ elements p)
    (h : (readSource p e).port? = some name) :
    p.register.isVersion = false ∧ name ∈ roleNames [readRole p] p := by
  rw [port?_readSource] at h
  cases hversion : p.register.isVersion with
  | true =>
      rw [hversion, if_pos rfl] at h
      cases h
  | false =>
      refine ⟨rfl, ?_⟩
      rw [hversion, if_neg Bool.false_ne_true] at h
      cases hauto : p.register.auto with
      | false =>
          rw [hauto, if_neg Bool.false_ne_true, Option.some.injEq] at h
          rw [← h]
          exact mem_roleNames_of_waits (waits_eq_true_iff.2 ⟨hauto, hversion⟩) (by decide)
      | true =>
          rw [hauto, if_pos rfl, Option.some.injEq] at h
          rw [mem_roleNames, ← h]
          refine ⟨e, he, readRole p, List.mem_singleton_self _, _, ?_, rfl⟩
          rw [readRole, hauto]
          cases p.register.access.writes <;> decide

/-- The read part mentions only the ports by which a register other than the version register is
read. -/
theorem of_mem_ports_readPart (h : name ∈ (readPart bus p).ports) :
    p.register.access.reads = true ∧ p.register.isVersion = false ∧
      name ∈ roleNames [readRole p] p := by
  have hremark : (if p.register.access.writes then {} else remarkSection p).ports = [] := by
    split <;> rfl
  unfold readPart at h
  split at h
  · rename_i hreads
    refine ⟨hreads, ?_⟩
    rw [Section.mem_ports_append, hremark, or_iff_right List.not_mem_nil, readSection,
      Section.mem_ports_append, Section.mem_ports_concat] at h
    rcases h with hstrobe | ⟨_, hsection, hname⟩
    · split at hstrobe
      · rename_i hwaits
        have hstrobes : (strobeSection p).ports = [p.register.name ++ "_ren_o"] := rfl
        rw [hstrobes, List.mem_singleton] at hstrobe
        rw [hstrobe]
        exact ⟨(waits_eq_true_iff.1 hwaits).2, mem_roleNames_of_waits hwaits (by decide)⟩
      · cases hstrobe
    · obtain ⟨_, hread, rfl⟩ := List.mem_map.1 hsection
      obtain ⟨e, he, rfl⟩ := List.mem_map.1 hread
      rcases of_mem_ports_elementRead hname with hsource | ⟨hwaits, rfl | rfl⟩
      · exact of_port?_readSource he hsource
      · exact ⟨(waits_eq_true_iff.1 hwaits).2, mem_roleNames_of_waits hwaits (by decide)⟩
      · exact ⟨(waits_eq_true_iff.1 hwaits).2, mem_roleNames_of_waits hwaits (by decide)⟩
  · cases h

/-! ## Closed register files -/

/-- The lines of the snippet mention the ports of the bus and those of the decode of the
registers. -/
theorem mentioned_iff : (∃ phrase ∈ phrases b, name ∈ phrase.ports) ↔
    name ∈ (busSection b.design.settings.interface).ports ∨
      (∃ p ∈ b.placements, name ∈ (writePart b.busBytes p).ports) ∨
        ∃ p ∈ b.placements, name ∈ (readPart b.busBytes p).ports := by
  have hplain : ∀ lines : List String, ¬ ∃ phrase ∈ lines.map Phrase.plain,
      name ∈ phrase.ports := by
    rintro lines ⟨phrase, hphrase, hname⟩
    obtain ⟨line, -, rfl⟩ := List.mem_map.1 hphrase
    cases hname
  have hbody : (∃ phrase ∈ phrases b, name ∈ phrase.ports) ↔ name ∈ (body b).ports := by
    simp only [phrases, List.mem_append, or_and_right, exists_or, hplain, or_false, Section.ports,
      List.mem_flatMap]
  rw [hbody, body]
  simp only [Section.mem_ports_append, Section.mem_ports_concat, ports_eq_nil, List.not_mem_nil,
    or_false, List.mem_map, exists_exists_and_eq_and, or_assoc]

/-- The ports that writes of a register use are declared. -/
structure WritesDeclared (f : Fragment) (p : Placement) : Prop where
  stored : p.register.auto = true → ∀ n ∈ roleNames [shown] p, n ∈ identifiers f
  forwarded : p.register.auto = false → ∀ n ∈ roleNames [forwarded] p, n ∈ portNames f

theorem roleNames_subset {r : Role} (hr : r ∈ rs) (h : name ∈ roleNames [r] p) :
    name ∈ roleNames rs p := by
  obtain ⟨e, he, r', hr', d, hd, rfl⟩ := mem_roleNames.1 h
  obtain rfl := List.mem_singleton.1 hr'
  exact mem_roleNames.2 ⟨e, he, r', hr, d, hd, rfl⟩

theorem mem_portNames_of_role {r : Role} (hp : p ∈ b.placements) (hr : r ∈ portRoles p)
    (h : name ∈ roleNames [r] p) : name ∈ portNames (fragmentOf b) :=
  mem_portNames.2 (.inr ⟨p, hp, roleNames_subset hr h⟩)

theorem mem_identifiers_of_role {r : Role} (hp : p ∈ b.placements) (hr : r ∈ roles b.busBytes p)
    (h : name ∈ roleNames [r] p) : name ∈ identifiers (fragmentOf b) :=
  mem_identifiers.2 (.inr ⟨p, hp, roleNames_subset hr h⟩)

/-- A register that is not the version register has the ports by which it is read. -/
theorem readRole_mem_portRoles (hversion : p.register.isVersion = false)
    (hreads : p.register.access.reads = true) : readRole p ∈ portRoles p := by
  rw [portRoles, hversion, hreads, readRole]
  cases p.register.access.writes <;> cases p.register.auto <;> decide

/-- A register that is not the version register has the ports by which it is written. -/
theorem writesDeclared_of_not_isVersion (hp : p ∈ writable b.placements)
    (hversion : p.register.isVersion = false) : WritesDeclared (fragmentOf b) p := by
  obtain ⟨hp, hwrites⟩ := mem_writable.1 hp
  constructor
  · intro hauto n hn
    have hrole : shown ∈ portRoles p := by simp [portRoles, hversion, hwrites, hauto]
    exact mem_identifiers_of_role hp (by simp [roles, hrole]) hn
  · intro hauto n hn
    exact mem_portNames_of_role hp (by simp [portRoles, hversion, hwrites, hauto]) hn

theorem forall_mem_roleNames_shown {P : String → Prop} :
    (∀ n ∈ roleNames [shown] p, P n) ↔ ∀ e ∈ elements p, P (e.name ++ "_o") := by
  have hnames : roleNames [shown] p = (elements p).map fun e => e.name ++ "_o" := by
    simp [roleNames_eq, endings, ← List.map_eq_flatMap]
  rw [hnames, List.forall_mem_map]

/-- A storage is connected to the clock, to wires of its element, and to the port that shows it. -/
theorem connected_storage_iff (hp : p ∈ storedRegisters b.placements) {s : WriteSlice}
    (hs : s.element ∈ elements p) :
    (∀ c ∈ (storage p s).connections, c.2 ∈ identifiers (fragmentOf b)) ↔
      s.element.name ++ "_o" ∈ identifiers (fragmentOf b) := by
  obtain ⟨hwritable, hauto⟩ := mem_storedRegisters.1 hp
  obtain ⟨hplaced, hwrites⟩ := mem_writable.1 hwritable
  have hclock : ∀ c ∈ Verilog.clockConnections, c.2 ∈ identifiers (fragmentOf b) :=
    fun c hc => mem_identifiers.2 (.inl (clock_mem_busIdentifiers _ c hc))
  have hname : ∀ r ∈ writeRoles p, ∀ d ∈ r.endings,
      s.element.name ++ d ∈ identifiers (fragmentOf b) := by
    intro r hr d hd
    exact mem_identifiers_of_role hplaced (List.mem_append_left _ (List.mem_append_right _ hr))
      (mem_roleNames.2 ⟨_, hs, r, List.mem_singleton_self r, d, hd, rfl⟩)
  have henable : s.element.name ++ "_wen" ∈ identifiers (fragmentOf b) :=
    hname stored (by simp [writeRoles, hwrites, hauto]) _ (by decide)
  have hdata : s.element.name ++ "_wdata" ∈ identifiers (fragmentOf b) :=
    hname written (by simp [writeRoles, hwrites]) _ (by decide)
  change (∀ c ∈ Verilog.clockConnections ++ [("en_i", s.element.name ++ "_wen"),
    ("data_i", s.element.name ++ "_wdata"), ("data_o", s.element.name ++ "_o")], _) ↔ _
  rw [List.forall_mem_append, and_iff_right hclock]
  simp [henable, hdata]

theorem connected_iff (b : Build) :
    (∀ i ∈ (fragmentOf b).instances, ∀ c ∈ i.connections, c.2 ∈ identifiers (fragmentOf b)) ↔
      ∀ p ∈ storedRegisters b.placements, ∀ n ∈ roleNames [shown] p,
        n ∈ identifiers (fragmentOf b) := by
  have hbus : ∀ i ∈ (busSection b.design.settings.interface).instances ++
      addressSection.instances ++ responseSection.instances,
      ∀ c ∈ i.connections, c.2 ∈ identifiers (fragmentOf b) :=
    fun i hi c hc => mem_identifiers.2 (.inl (connected_bus _ i hi c hc))
  rw [List.forall_mem_append] at hbus
  rw [instances_fragmentOf, List.forall_mem_append, List.forall_mem_append,
    and_iff_right hbus.1, and_iff_left hbus.2, List.forall_mem_flatMap]
  refine forall₂_congr fun p hp => ?_
  rw [forall_mem_roleNames_shown, List.forall_mem_map, writeSlices, List.forall_mem_map]
  exact forall₂_congr fun e he => connected_storage_iff hp he

theorem mentioned_iff_forwarded (b : Build) :
    (∀ phrase ∈ phrases b, ∀ name ∈ phrase.ports, name ∈ portNames (fragmentOf b)) ↔
      ∀ p ∈ writable b.placements, p.register.auto = false → ∀ n ∈ roleNames [forwarded] p,
        n ∈ portNames (fragmentOf b) := by
  have hmentioned : (∀ phrase ∈ phrases b, ∀ name ∈ phrase.ports,
      name ∈ portNames (fragmentOf b)) ↔
      ∀ name, (∃ phrase ∈ phrases b, name ∈ phrase.ports) → name ∈ portNames (fragmentOf b) :=
    ⟨fun h name ⟨phrase, hphrase, hname⟩ => h phrase hphrase name hname,
      fun h phrase hphrase name hname => h name ⟨phrase, hphrase, hname⟩⟩
  rw [hmentioned]
  simp only [mentioned_iff]
  constructor
  · intro h p hp hauto n hn
    obtain ⟨hplaced, hwrites⟩ := mem_writable.1 hp
    exact h n (.inr (.inl ⟨p, hplaced, mem_ports_writePart.2 ⟨hwrites, hauto, hn⟩⟩))
  · rintro h n (hbus | ⟨p, hp, hn⟩ | ⟨p, hp, hn⟩)
    · exact mem_portNames.2 (.inl (mentioned_bus _ n hbus))
    · obtain ⟨hwrites, hauto, hn⟩ := mem_ports_writePart.1 hn
      exact h p (mem_writable.2 ⟨hp, hwrites⟩) hauto n hn
    · obtain ⟨hreads, hversion, hn⟩ := of_mem_ports_readPart hn
      exact mem_portNames_of_role hp (readRole_mem_portRoles hversion hreads) hn

/-- Only writes can make a register file open. -/
theorem closed_iff_writesDeclared (b : Build) :
    Closed (fragmentOf b) (phrases b) ↔
      ∀ p ∈ writable b.placements, WritesDeclared (fragmentOf b) p := by
  constructor
  · rintro ⟨hconnected, hmentioned⟩ p hp
    exact
      { stored := fun hauto =>
          (connected_iff b).1 hconnected p (mem_storedRegisters.2 ⟨hp, hauto⟩)
        forwarded := (mentioned_iff_forwarded b).1 hmentioned p hp }
  · intro h
    constructor
    · rw [connected_iff]
      intro p hp
      obtain ⟨hwritable, hauto⟩ := mem_storedRegisters.1 hp
      exact (h p hwritable).stored hauto
    · rw [mentioned_iff_forwarded]
      exact fun p hp => (h p hp).forwarded

end RegisterBank.Hardware

namespace RegisterBank.Artifacts

open Hardware

variable {m : Module} {a : Artifacts} {b : Build}

/-- When is the register file of a generated module closed? Exactly if the ports that writes of the
version register use, where software can write it, are declared for other registers. Everything
else that the instances and the lines of the snippet use is declared. -/
theorem generate_closed_iff (h : generate m = .ok a) (hb : Build.ofModule m = .ok b) :
    a.hardware.snippet = Text.unlines ((phrases b).map (·.line)) ∧
      (Closed a.hardware (phrases b) ↔
        ∀ p ∈ writable a.map.placements, p.register.isVersion = true →
          WritesDeclared a.hardware p) := by
  obtain ⟨x⟩ := nonempty_parts h
  cases hb.symm.trans x.ofModule
  rw [x.hardware_eq, x.map_eq]
  refine ⟨snippet_fragmentOf x.build, (closed_iff_writesDeclared x.build).trans ?_⟩
  constructor
  · exact fun hall p hp _ => hall p hp
  · intro hversion p hp
    cases hp' : p.register.isVersion with
    | true => exact hversion p hp hp'
    | false => exact writesDeclared_of_not_isVersion hp hp'

theorem generate_closed_iff_mixedModule :
    ∃ a b, generate mixedModule = .ok a ∧ Build.ofModule mixedModule = .ok b ∧
      Closed a.hardware (phrases b) := by
  obtain ⟨a, b, ha, hb, hversion⟩ :
      ∃ a b, generate mixedModule = .ok a ∧ Build.ofModule mixedModule = .ok b ∧
        ∀ p ∈ writable a.map.placements, p.register.isVersion = false :=
    ⟨_, _, rfl, rfl, by decide +kernel⟩
  refine ⟨a, b, ha, hb, (generate_closed_iff ha hb).2.2 ?_⟩
  intro p hp htrue
  rw [hversion p hp] at htrue
  cases htrue

/-- A module that lets software write its version register. -/
def labelModule (auto : Bool) : Module :=
  { name := "label"
    version := { major := 1, minor := 2, patch := 0 }
    groups :=
      [⟨"main", "",
        [{ name := "version", access := .write, width := .literal 16, auto },
          { name := "lamp", access := .write, width := .literal 8 }]⟩] }

/-- The storage of the version register drives a port that is not there. Where user logic holds the
register, the logic mentions three such ports. -/
theorem not_closed_labelModule :
    (∃ a b, generate (labelModule true) = .ok a ∧ Build.ofModule (labelModule true) = .ok b ∧
      (∃ i ∈ a.hardware.instances, ("data_o", "version_o") ∈ i.connections) ∧
      "version_o" ∉ identifiers a.hardware ∧ ¬ Closed a.hardware (phrases b)) ∧
    ∃ a b, generate (labelModule false) = .ok a ∧ Build.ofModule (labelModule false) = .ok b ∧
      (∃ phrase ∈ phrases b, "version_wen_o" ∈ phrase.ports) ∧
      "version_wen_o" ∉ portNames a.hardware ∧ ¬ Closed a.hardware (phrases b) := by
  constructor
  · obtain ⟨a, b, ha, hb, hdriven, hmissing⟩ :
        ∃ a b, generate (labelModule true) = .ok a ∧ Build.ofModule (labelModule true) = .ok b ∧
          (∃ i ∈ a.hardware.instances, ("data_o", "version_o") ∈ i.connections) ∧
          "version_o" ∉ identifiers a.hardware :=
      ⟨_, _, rfl, rfl, by decide +kernel, by decide +kernel⟩
    refine ⟨a, b, ha, hb, hdriven, hmissing, fun hclosed => ?_⟩
    obtain ⟨i, hi, hc⟩ := hdriven
    exact hmissing (hclosed.connected i hi _ hc)
  · obtain ⟨a, b, ha, hb, hmentioned, hmissing⟩ :
        ∃ a b, generate (labelModule false) = .ok a ∧ Build.ofModule (labelModule false) = .ok b ∧
          (∃ phrase ∈ phrases b, "version_wen_o" ∈ phrase.ports) ∧
          "version_wen_o" ∉ portNames a.hardware :=
      ⟨_, _, rfl, rfl, by decide +kernel, by decide +kernel⟩
    refine ⟨a, b, ha, hb, hmentioned, hmissing, fun hclosed => ?_⟩
    obtain ⟨phrase, hphrase, hname⟩ := hmentioned
    exact hmissing (hclosed.mentioned phrase hphrase _ hname)

end RegisterBank.Artifacts
