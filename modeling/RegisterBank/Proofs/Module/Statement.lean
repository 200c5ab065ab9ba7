import RegisterBank.Proofs.Parameter.Words
import RegisterBank.Proofs.Register.Stated
import RegisterBank.Proofs.Version.Reading

/-!
# Descriptions that state a module

A module that was put together from formulas can be written down field by field. Every description
that states its fields describes this module and no other (`Module.Built.describes`): each formula
is read again from its text, a text that is marked as not available is none that a formula keeps,
and a full version is not completed.
-/

namespace RegisterBank

/-! ## What entries state -/

/-- An integer states the formula of a word; a text states the formula that keeps it. -/
inductive Quantity.States : Quantity → Formula → Prop where
  | literal (v : Int) : States (.integer v) (.literal v)
  | source {text : String} {f : Formula} :
      Formula.parse text = .ok f → States (.text f.source) f

namespace ParameterEntry

/-- A field that is not available is left out or marked; another one is stated by the text that its
formula keeps. -/
inductive FieldStates : Option Quantity → Option Formula → Prop where
  | absent : FieldStates none none
  | marked {mark : String} : mark ∈ ["NA", "ND", ""] → FieldStates (some (.text mark)) none
  | source {q : Quantity} {f : Formula} : q.toText = f.source → FieldStates (some q) (some f)

structure States (e : ParameterEntry) (p : Parameter) : Prop where
  name : e.name = some p.name
  value : FieldStates e.value p.fields.value
  min : FieldStates e.min p.fields.min
  max : FieldStates e.max p.fields.max
  descr : e.descr = p.descr

end ParameterEntry

namespace RegisterEntry

/-- No address is stated by leaving it out or by minus one. -/
def AddressStates (stated : Option Int) : Option Nat → Prop
  | some address => stated = some (address : Int)
  | none => stated = none ∨ stated = some (-1)

structure States (e : RegisterEntry) (r : Register) : Prop where
  name : e.name = some r.name
  access : e.access = some r.access.code
  width : ∃ q, e.width = some q ∧ q.States r.width
  reset : e.reset = some (r.reset : Int)
  address : AddressStates e.address r.address
  logItems : ∃ q, e.logItems = some q ∧ q.States r.logItems
  auto : e.auto = some r.auto
  descr : e.descr = r.descr

end RegisterEntry

structure GroupEntry.States (e : GroupEntry) (g : Group Register) : Prop where
  name : e.name = some g.name
  descr : e.descr = g.descr
  registers : List.Forall₂ RegisterEntry.States e.registers g.members

/-- The description states every field of the module. -/
structure Description.States (d : Description) (m : Module) : Prop where
  name : d.name = some m.name
  version : d.version = some m.version.text
  interface : d.interface = some m.settings.interface.name
  autoAddress : d.autoAddress = some m.settings.autoAddress
  overlap : d.overlap = some m.settings.overlap
  interrupts : d.interrupts = some m.settings.interrupts
  dataWidth : d.dataWidth = some m.settings.dataWidth
  params : List.Forall₂ ParameterEntry.States d.params m.params
  groups : List.Forall₂ GroupEntry.States d.groups m.groups

/-- The parameter was read from texts. -/
def Parameter.Stated (p : Parameter) : Prop :=
  ∃ value min max, Parameter.ofTexts p.name value min max p.descr = .ok p

/-- The module was put together from formulas that were read or are words. Its settings are valid,
its version is read from the text that shows it, every group has registers, and the numbers of the
registers are words. -/
structure Module.Built (m : Module) : Prop where
  settings : m.settings.validate = .ok ()
  version : Version.parse m.version.text.toList = .ok m.version
  params : ∀ p ∈ m.params, p.Stated
  groups_ne_nil : m.groups ≠ []
  members_ne_nil : ∀ g ∈ m.groups, g.members ≠ []
  registers : m.Stated
  reset : ∀ r ∈ Group.flatten m.groups, Word.InRange r.reset
  address : ∀ r ∈ Group.flatten m.groups, ∀ a ∈ r.address, Word.InRange a

/-! ## The description of a module -/

/-- The integer of a formula that is written as one, or the text of the formula. -/
def Formula.quantity (f : Formula) : Quantity :=
  match f.literal? with
  | some v => if f.source = toString v then .integer v else .text f.source
  | none => .text f.source

def Parameter.entry (p : Parameter) : ParameterEntry :=
  { name := some p.name
    value := p.fields.value.map fun f => .text f.source
    min := p.fields.min.map fun f => .text f.source
    max := p.fields.max.map fun f => .text f.source
    descr := p.descr }

def Register.entry (r : Register) : RegisterEntry :=
  { name := some r.name
    access := some r.access.code
    width := some r.width.quantity
    reset := some r.reset
    address := r.address.map Int.ofNat
    logItems := some r.logItems.quantity
    auto := some r.auto
    descr := r.descr }

def Group.entry (g : Group Register) : GroupEntry :=
  { name := some g.name, descr := g.descr, registers := g.members.map Register.entry }

/-- The module field by field. -/
def Module.describe (m : Module) : Description :=
  { name := some m.name
    version := some m.version.text
    interface := some m.settings.interface.name
    autoAddress := some m.settings.autoAddress
    overlap := some m.settings.overlap
    interrupts := some m.settings.interrupts
    dataWidth := some m.settings.dataWidth
    params := m.params.map Parameter.entry
    groups := m.groups.map Group.entry }

/-- The integers that a register states are words. -/
def RegisterEntry.OfWords (e : RegisterEntry) : Prop :=
  (∀ q, e.width = some q ∨ e.logItems = some q → q.IsWord) ∧
    ∀ v, e.reset = some v ∨ e.address = some v → Word.InRange v

/-- The numbers of the description are such as a description can have: integers are words, and the
width of the bus has 32 bits. -/
structure Description.Fits (d : Description) : Prop where
  dataWidth : ∀ width, d.dataWidth = some width → width < UInt32.size
  params : ∀ e ∈ d.params, ∀ q, e.value = some q ∨ e.min = some q ∨ e.max = some q → q.IsWord
  registers : ∀ g ∈ d.groups, ∀ e ∈ g.registers, e.OfWords

theorem Formula.eq_literal_of_literal?_eq_some {f : Formula} {v : Int} (h : f.literal? = some v)
    (hsource : f.source = toString v) : f = literal v := by
  obtain ⟨source, tree⟩ := f
  obtain rfl : source = toString v := hsource
  cases tree with
  | number w =>
      cases h
      rfl
  | _ => cases h

theorem Formula.Stated.states_quantity {f : Formula} (h : f.Stated) :
    f.quantity.States f ∧ f.quantity.IsWord := by
  rcases h with ⟨text, hparse⟩ | ⟨v, hv, rfl⟩
  · unfold quantity
    split
    · rename_i v hliteral
      split
      · rename_i hsource
        obtain rfl : f = literal v := eq_literal_of_literal?_eq_some hliteral hsource
        have hwords : (Expr.number v).OfWords := ofWords_of_parse_eq_ok hparse
        cases hwords with
        | number hv => exact ⟨.literal v, hv⟩
      · exact ⟨.source hparse, trivial⟩
    · exact ⟨.source hparse, trivial⟩
  · have hquantity : (literal v).quantity = .integer v := if_pos rfl
    rw [hquantity]
    exact ⟨.literal v, hv⟩

theorem ParameterEntry.fieldStates_source (field : Option Formula) :
    FieldStates (field.map fun f => .text f.source) field := by
  cases field with
  | none => exact .absent
  | some f => exact .source rfl

theorem ParameterEntry.isWord_of_map_eq_some {field : Option Formula} {q : Quantity}
    (h : (field.map fun f => Quantity.text f.source) = some q) : q.IsWord := by
  obtain ⟨f, -, rfl⟩ := Option.map_eq_some_iff.1 h
  trivial

theorem Parameter.states_entry (p : Parameter) : p.entry.States p where
  name := rfl
  value := ParameterEntry.fieldStates_source p.fields.value
  min := ParameterEntry.fieldStates_source p.fields.min
  max := ParameterEntry.fieldStates_source p.fields.max
  descr := rfl

theorem RegisterEntry.addressStates_map (address : Option Nat) :
    AddressStates (address.map Int.ofNat) address := by
  cases address with
  | none => exact .inl rfl
  | some a => rfl

theorem Register.Stated.states_entry {r : Register} (h : r.Stated) : r.entry.States r where
  name := rfl
  access := rfl
  width := ⟨_, rfl, h.width.states_quantity.1⟩
  reset := rfl
  address := RegisterEntry.addressStates_map r.address
  logItems := ⟨_, rfl, h.logItems.states_quantity.1⟩
  auto := rfl
  descr := rfl

theorem Register.Stated.ofWords_entry {r : Register} (h : r.Stated)
    (hreset : Word.InRange r.reset) (haddress : ∀ a ∈ r.address, Word.InRange a) :
    r.entry.OfWords := by
  constructor
  · rintro q (hq | hq)
    · cases hq
      exact h.width.states_quantity.2
    · cases hq
      exact h.logItems.states_quantity.2
  · rintro v (hv | hv)
    · cases hv
      exact hreset
    · obtain ⟨a, ha, rfl⟩ := Option.map_eq_some_iff.1 hv
      exact haddress a ha

theorem Group.states_entry {g : Group Register} (h : ∀ r ∈ g.members, r.Stated) :
    (Group.entry g).States g where
  name := rfl
  descr := rfl
  registers :=
    List.forall₂_map_left_iff.2 (List.forall₂_same.2 fun r hr => (h r hr).states_entry)

/-! ## The module of a description -/

theorem isEmpty_eq_false_of_forall₂ {α β : Type} {R : α → β → Prop} {xs : List α} {ys : List β}
    (h : List.Forall₂ R xs ys) (hne : ys ≠ []) : xs.isEmpty = false := by
  cases h with
  | nil => exact absurd rfl hne
  | cons => rfl

namespace Quantity

variable {q : Quantity} {f : Formula}

theorem States.formula_eq_ok (h : q.States f) : q.formula = .ok f := by
  cases h with
  | literal v => rfl
  | source hparse => exact Formula.parse_source hparse

end Quantity

namespace ParameterEntry

variable {q? : Option Quantity} {field : Option Formula} {text : String} {e : ParameterEntry}
  {p : Parameter}

theorem FieldStates.fieldOf_eq_ok (h : FieldStates q? field)
    (hread : Parameter.fieldOf text = .ok field) :
    Parameter.fieldOf (fieldText q?) = .ok field := by
  cases h with
  | absent => rfl
  | marked hmark =>
      simp only [List.mem_cons, List.not_mem_nil, or_false] at hmark
      rcases hmark with rfl | rfl | rfl <;> rfl
  | source hsource =>
      rw [fieldText, hsource]
      exact Parameter.fieldOf_source hread

theorem States.toParameter_eq_ok (h : e.States p) (hp : p.Stated) : e.toParameter = .ok p := by
  obtain ⟨value, min, max, hread⟩ := hp
  obtain ⟨hvalue, hmin, hmax, -, -⟩ := Parameter.ofTexts_eq_ok_iff.1 hread
  rw [toParameter, h.name, h.descr, requiredField, ok_bind]
  exact Parameter.ofTexts_eq_ok_iff.2 ⟨h.value.fieldOf_eq_ok hvalue, h.min.fieldOf_eq_ok hmin,
    h.max.fieldOf_eq_ok hmax, rfl, rfl⟩

end ParameterEntry

theorem Access.parse_code (a : Access) : Access.parse a.code = .ok a := by
  cases a <;> rfl

theorem Interface.parse_name (i : Interface) : Interface.parse i.name = .ok i := by
  cases i <;> rfl

namespace RegisterEntry

variable {e : RegisterEntry} {r : Register} {name : String}

theorem resetValue_natCast (name : String) (n : Nat) : resetValue name n = .ok n := by
  rw [resetValue, if_pos (Int.natCast_nonneg n), Int.toNat_natCast]

theorem placeAt_of_addressStates {stated : Option Int} {address : Option Nat}
    (h : AddressStates stated address) : placeAt name stated = .ok address := by
  cases address with
  | none =>
      rcases h with rfl | rfl
      · rfl
      · rfl
  | some a =>
      obtain rfl : stated = some (a : Int) := h
      rw [placeAt, if_neg (by omega), if_pos (Int.natCast_nonneg a), Int.toNat_natCast]

theorem States.toRegister_eq_ok (h : e.States r) : e.toRegister = .ok r := by
  obtain ⟨width, hwidth, hwidthStates⟩ := h.width
  obtain ⟨depth, hdepth, hdepthStates⟩ := h.logItems
  have haccess : ((requiredField "type" e.access).bind Access.parse).mapError
      (Error.inRegister r.name) = .ok r.access := by
    simp only [h.access, requiredField, Except.bind, Access.parse_code, Except.mapError]
  have hquantity : (requiredField "n_bits" e.width).mapError (Error.inRegister r.name) =
      .ok width := by
    simp only [hwidth, requiredField, Except.mapError]
  have hreset : resetValue r.name (e.reset.getD 0) = .ok r.reset := by
    rw [h.reset]
    exact resetValue_natCast r.name r.reset
  have hlogItems : RegisterEntry.depth e.logItems = .ok r.logItems := by
    rw [hdepth]
    exact hdepthStates.formula_eq_ok
  simp only [toRegister, h.name, requiredField, ok_bind] at haccess hquantity ⊢
  rw [haccess, ok_bind, hquantity, ok_bind, hwidthStates.formula_eq_ok, ok_bind, hreset, ok_bind,
    hlogItems, ok_bind, placeAt_of_addressStates h.address, ok_bind, h.auto, h.descr]
  rfl

end RegisterEntry

theorem GroupEntry.States.toGroup_eq_ok {e : GroupEntry} {g : Group Register} (h : e.States g)
    (hg : g.members ≠ []) : e.toGroup = .ok g := by
  have hnonempty : e.registers.isEmpty = false := isEmpty_eq_false_of_forall₂ h.registers hg
  have hmembers : e.registers.mapM RegisterEntry.toRegister = .ok g.members :=
    mapM_eq_ok_iff.2 (h.registers.imp fun _ _ hstates => hstates.toRegister_eq_ok)
  rw [toGroup, h.name, requiredField, ok_bind, hnonempty, hmembers, h.descr]
  rfl

theorem Settings.dataWidth_lt {s : Settings} (h : s.validate = .ok ()) :
    s.dataWidth < UInt32.size := by
  have hwidth := validate_eq_ok_iff.1 h
  have hall : ∀ width ∈ dataWidths, width < UInt32.size := by decide
  exact hall _ hwidth

namespace Module

variable {m : Module} {d : Description}

/-- The description of a module states it. -/
theorem Built.states_describe (h : m.Built) : m.describe.States m where
  name := rfl
  version := rfl
  interface := rfl
  autoAddress := rfl
  overlap := rfl
  interrupts := rfl
  dataWidth := rfl
  params := List.forall₂_map_left_iff.2 (List.forall₂_same.2 fun p _ => p.states_entry)
  groups := by
    refine List.forall₂_map_left_iff.2 (List.forall₂_same.2 fun g hg => ?_)
    exact Group.states_entry fun r hr => h.registers r (List.mem_flatMap.2 ⟨g, hg, hr⟩)

theorem Built.fits_describe (h : m.Built) : m.describe.Fits where
  dataWidth := by
    intro width hwidth
    cases hwidth
    exact Settings.dataWidth_lt h.settings
  params := by
    intro e he q hq
    obtain ⟨p, -, rfl⟩ := List.mem_map.1 he
    rcases hq with hq | hq | hq <;> exact ParameterEntry.isWord_of_map_eq_some hq
  registers := by
    intro e he entry hentry
    obtain ⟨g, hg, rfl⟩ := List.mem_map.1 he
    obtain ⟨r, hr, rfl⟩ := List.mem_map.1 hentry
    have hmem : r ∈ Group.flatten m.groups := List.mem_flatMap.2 ⟨g, hg, hr⟩
    exact (h.registers r hmem).ofWords_entry (h.reset r hmem) (h.address r hmem)

/-- A description that states a module describes it. -/
theorem Built.toModule_eq_ok (h : m.Built) (hd : d.States m) : d.toModule = .ok m := by
  have hversion : Version.parseText m.version.text = .ok m.version := by
    rw [Version.parseText, Version.ofDescription_of_parse_eq_ok h.version]
  have hsettings : d.settings = .ok m.settings := by
    rw [Description.settings, hd.interface, hd.autoAddress, hd.overlap, hd.interrupts, hd.dataWidth]
    simp only [Interface.parse_name, ok_bind, Option.getD_some, h.settings]
  have hgroups : d.groups.isEmpty = false := isEmpty_eq_false_of_forall₂ hd.groups h.groups_ne_nil
  have hparams : d.params.mapM ParameterEntry.toParameter = .ok m.params :=
    mapM_eq_ok_of_forall₂ hd.params fun p hp _ hstates => hstates.toParameter_eq_ok (h.params p hp)
  have hread : d.groups.mapM GroupEntry.toGroup = .ok m.groups :=
    mapM_eq_ok_of_forall₂ hd.groups fun g hg _ hstates =>
      hstates.toGroup_eq_ok (h.members_ne_nil g hg)
  simp only [Description.toModule, hd.name, hd.version, requiredField, ok_bind, hversion, hsettings,
    hgroups, hparams, hread]
  rfl

/-- A module that was put together from formulas has a description, and every description that
states its fields describes exactly this module. -/
theorem Built.describes (h : m.Built) :
    m.describe.Fits ∧ m.describe.States m ∧ ∀ d : Description, d.States m → d.toModule = .ok m :=
  ⟨h.fits_describe, h.states_describe, fun _ hd => h.toModule_eq_ok hd⟩

/-- A module with a pre-release version, a parameter without a least value, a width that is an
expression and a register with an address. -/
def timerModule : Module :=
  { name := "timer"
    version := { major := 0, minor := 1, patch := 0, preRelease := "rc.1" }
    params :=
      [{ name := "W", fields := ⟨some ⟨"N", .name "N"⟩, none, some ⟨"32", .number 32⟩⟩
         descr := "Width of the counter." }]
    groups :=
      [⟨"timer", "Timer registers.",
        [{ name := "count", access := .read, width := ⟨"W", .name "W"⟩, auto := false },
          { name := "clear", access := .write, width := .literal 1, reset := 1
            address := some 8 }]⟩]
    settings := { interface := .axiLite, dataWidth := 64 } }

/-- A description of the same module. It marks the least value as not available, and the first
register as without address. -/
def timerDescription : Description :=
  { name := some "timer"
    version := some "0.1.0-rc.1"
    interface := some "axil"
    autoAddress := some true
    overlap := some false
    interrupts := some false
    dataWidth := some 64
    params :=
      [{ name := some "W", value := some (.text "N"), min := some (.text "NA")
         max := some (.integer 32), descr := "Width of the counter." }]
    groups :=
      [{ name := some "timer", descr := "Timer registers."
         registers :=
          [{ name := some "count", access := some "R", width := some (.text "W"), reset := some 0
             address := some (-1), logItems := some (.integer 0), auto := some false },
            { name := some "clear", access := some "W", width := some (.integer 1), reset := some 1
              address := some 8, logItems := some (.integer 0), auto := some true }] }] }

theorem parse_letter {c : Char} (h : Expr.isWordStart c = true) :
    Formula.parse (String.ofList [c]) =
      .ok ⟨Text.trim (String.ofList [c]), .name (String.ofList [c])⟩ := by
  refine Formula.parse_eq_ok_of_writtenAs ?_
  rw [String.toList_ofList]
  exact (Expr.writtenAs_letter h).looser (Nat.zero_le 13)

theorem built_timerModule : timerModule.Built where
  settings := rfl
  version := rfl
  params := by
    intro p hp
    obtain rfl := List.mem_singleton.1 hp
    have hvalue : Formula.parse "N" = .ok ⟨"N", .name "N"⟩ := parse_letter (by decide)
    have hmax : Formula.parse "32" = .ok ⟨"32", .number 32⟩ :=
      Formula.parse_eq_ok_of_writtenAs
        ((Expr.writtenAs_toString (n := 32) (by decide)).looser (Nat.zero_le 13))
    have htrim : Text.trim "N" = "N" ∧ Text.trim "32" = "32" := by decide
    refine ⟨"N", "NA", "32", Parameter.ofTexts_eq_ok_iff.2 ⟨?_, rfl, ?_, rfl, rfl⟩⟩
    · rw [Parameter.fieldOf_eq_ok_some_iff, htrim.1]
      exact ⟨by decide, hvalue⟩
    · rw [Parameter.fieldOf_eq_ok_some_iff, htrim.2]
      exact ⟨by decide, hmax⟩
  groups_ne_nil := List.cons_ne_nil _ _
  members_ne_nil := by
    intro g hg
    obtain rfl := List.mem_singleton.1 hg
    exact List.cons_ne_nil _ _
  registers := by
    have hwidth : Formula.Stated ⟨"W", .name "W"⟩ := .inl ⟨"W", parse_letter (by decide)⟩
    intro r hr
    simp only [timerModule, Group.flatten_cons, Group.flatten_nil, List.append_nil, List.mem_cons,
      List.not_mem_nil, or_false] at hr
    rcases hr with rfl | rfl
    · exact ⟨hwidth, Formula.stated_literal (by decide)⟩
    · exact ⟨Formula.stated_literal (by decide), Formula.stated_literal (by decide)⟩
  reset := by decide
  address := by decide

theorem describes_timerModule :
    timerModule.Built ∧ timerDescription.States timerModule ∧
      timerDescription.toModule = .ok timerModule ∧
      timerModule.describe.toModule = .ok timerModule := by
  obtain ⟨-, hdescribe, hall⟩ := built_timerModule.describes
  have hparse : Formula.parse "W" = .ok ⟨"W", .name "W"⟩ := parse_letter (by decide)
  have hwidth : Quantity.States (.text "W") ⟨"W", .name "W"⟩ := .source hparse
  have hstates : timerDescription.States timerModule :=
    { name := rfl
      version := rfl
      interface := rfl
      autoAddress := rfl
      overlap := rfl
      interrupts := rfl
      dataWidth := rfl
      params := .cons ⟨rfl, .source rfl, .marked (by decide), .source rfl, rfl⟩ .nil
      groups := by
        refine .cons ⟨rfl, rfl, .cons ?_ (.cons ?_ .nil)⟩ .nil
        · exact ⟨rfl, rfl, ⟨_, rfl, hwidth⟩, rfl, .inr rfl, ⟨_, rfl, .literal 0⟩, rfl, rfl⟩
        · exact ⟨rfl, rfl, ⟨_, rfl, .literal 1⟩, rfl, rfl, ⟨_, rfl, .literal 0⟩, rfl, rfl⟩ }
  exact ⟨built_timerModule, hstates, hall _ hstates, hall _ hdescribe⟩

end Module

end RegisterBank
