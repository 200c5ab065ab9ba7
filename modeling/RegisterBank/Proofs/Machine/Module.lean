import RegisterBank.Proofs.Header.Agreement
import RegisterBank.Proofs.Machine.Allocation
import RegisterBank.Proofs.Machine.Decode

/-!
# Modules in machine words

The numbers that a module states are words: the literals of its formulas are signed, the reset
values and addresses of its registers are not, and all of them have 64 bits. Then everything that is
computed of its registers stays in the words (`Module.words_suffice`), whether the module is built
in the end or refused: the layouts and the addresses, and for placed registers the numbers in their
hardware and the address widths in the headers.
-/

namespace RegisterBank

open Hardware (elementRead elements readSlots registerReads waits writeSlices)
open Header (symbolicAddrWidth)

/-- Every number that is stated in a module is a word. -/
structure Module.OfWords (m : Module) : Prop where
  params : ∀ x ∈ m.params, x.OfWords
  registers : ∀ r ∈ Group.flatten m.groups, r.OfWords

namespace Machine

open Checked

variable {env : Environment} {b : Build} {p : Placement}

/-! ## Address widths -/

/-- The address width of an array, symbolic when its depth is. -/
def symbolicAddrWidth? (p : Placement) : Option String := do
  let bytesWidth ← ceilLog2? p.layout.bytes
  let depth := p.register.logItems
  match depth.literal? with
  | some logItems => do
    let width ← Word.check? (logItems + (bytesWidth : Int))
    some (toString width)
  | none => some (if bytesWidth = 0 then depth.source else s!"{depth.source}+{bytesWidth}")

theorem eval_of_literal?_eq_some {e : Expr} {scope : String → Lookup} {v : Int}
    (h : e.literal? = some v) : e.eval scope = .ok v := by
  cases e with
  | number value =>
      cases h
      rfl
  | _ => cases h

theorem symbolicAddrWidth?_eq (hp : p.Seated env) :
    symbolicAddrWidth? p = some (symbolicAddrWidth p) := by
  obtain ⟨-, -, -, hitems, hsum, hlimit⟩ := Layout.sizes_of_eq_ok hp.layout
  have hbytes := Layout.bytes_le_span hp.layout
  have hinside : p.address + p.layout.span ≤ 2 ^ 32 := hp.inside
  refine step_eq (ceilLog2?_eq (by omega)) ?_
  cases hliteral : p.register.logItems.literal? with
  | none => simp only [symbolicAddrWidth, hliteral]
  | some logItems =>
      obtain rfl : logItems = p.layout.logItems :=
        Except.ok.inj ((eval_of_literal?_eq_some hliteral).symm.trans hitems)
      have hrange : Word.InRange (p.layout.addrWidth : Int) := Header.inRange_of_le hlimit
      rw [hsum, Nat.cast_add] at hrange
      simp only [symbolicAddrWidth, hliteral]
      exact step_eq (if_pos hrange) rfl

/-! ## Placed registers -/

/-- Nothing goes wrong in what is computed of a placed register. Its elements end in the address
space, and the words of their slots begin there. -/
structure Exact (b : Build) (p : Placement) : Prop where
  layout : ∀ mode, Yields (layoutOf p.register b.env mode) (Layout.of p.register b.env mode)
  elements : elements? p = some (elements p)
  write : Yields (writeRegister b p) (Hardware.checkWrite b p >>= fun _ =>
    .ok ((writeSlices b.busBytes p).map (writeDecode p)))
  read : readRegister? b p =
    some (if waits p.register then some p.stop else none, registerReads b.busBytes p)
  addrWidth : symbolicAddrWidth? p = some (symbolicAddrWidth p)
  stop_le : ∀ e ∈ Hardware.elements p, e.stop ≤ 2 ^ 32
  add_mul_lt : ∀ e ∈ Hardware.elements p, ∀ k < (elementRead b.busBytes p e).slots.length,
    e.address + k * b.busBytes < 2 ^ 32
  word_lt : ∀ s ∈ readSlots b.busBytes p, ∀ address, s.selection = .word address →
    address < 2 ^ 32

theorem exact_of_seated (hp : p.Seated b.env) (henv : b.env.OfWords) (hr : p.register.OfWords)
    (hbus : b.design.settings.dataWidth ∈ Settings.dataWidths) : Exact b p := by
  obtain ⟨hpos, hle⟩ : 0 < b.busBytes ∧ b.busBytes ≤ 8 := by
    unfold Build.busBytes Settings.busBytes
    simp only [Settings.dataWidths, List.mem_cons, List.not_mem_nil, or_false] at hbus
    omega
  have hstop : ∀ e ∈ Hardware.elements p, e.stop ≤ 2 ^ 32 := fun e he =>
    (Hardware.within_of_mem_elements hp he).stop_le hp
  exact
    { layout := yields_layoutOf henv hr
      elements := elements?_eq hp
      write := yields_writeRegister hp hpos hr.reset
      read := readRegister?_eq hp hpos hle
      addrWidth := symbolicAddrWidth?_eq hp
      stop_le := hstop
      add_mul_lt := fun e he k hk =>
        (Hardware.add_mul_lt_stop hp hpos he hk).trans_le (hstop e he)
      word_lt := by
        intro s hs address hword
        obtain ⟨read, hread, hslot⟩ := List.mem_flatMap.1 hs
        obtain ⟨e, he, rfl⟩ := List.mem_map.1 hread
        exact (Hardware.word_lt_stop hp hpos he hslot hword).trans_le (hstop e he) }

end Machine

/-! ## Modules -/

namespace Version

theorem packed?_lt {v : Version} {n : Nat} (h : v.packed? = some n) : n < 2 ^ 16 := by
  obtain ⟨⟨hmajor, hminor⟩, heq⟩ := Option.ite_none_right_eq_some.1 h
  obtain rfl := Option.some.inj heq
  unfold nibbles
  omega

end Version

/-- A register that asks for no address states words if its other numbers are words. -/
theorem Register.ofWords_of_address_eq_none {r : Register} (hwidth : r.width.tree.OfWords)
    (hitems : r.logItems.tree.OfWords) (hreset : r.reset < 2 ^ 64) (haddress : r.address = none) :
    r.OfWords where
  width := hwidth
  logItems := hitems
  reset := hreset
  address := by simp [haddress]

namespace Module

variable {m : Module} {env : Environment} {table : Table} {map : AddressMap}

theorem ofWords_versionRegister {packed : Nat} (h : m.packedVersion = .ok packed) :
    (versionRegister packed).OfWords := by
  have hpacked : packed < 2 ^ 16 := by
    unfold packedVersion at h
    split at h
    · cases h
      exact Version.packed?_lt ‹_›
    · cases h
  exact Register.ofWords_of_address_eq_none (.number (by decide)) (.number (by decide))
    (hpacked.trans (by decide)) rfl

/-- The registers that are added to a table state words too. -/
theorem OfWords.of_mem_table (hm : m.OfWords) (h : m.table = .ok table) :
    ∀ r ∈ Group.flatten table, r.OfWords := by
  obtain ⟨-, -, hadded, -⟩ := table_eq_ok_iff.1 h
  have hequipped : ∀ r ∈ Group.flatten m.equipped, r.OfWords := by
    refine forall_mem_equipped hm.registers ?_
    intro r hr
    simp only [interruptGroup, List.mem_cons, List.not_mem_nil, or_false] at hr
    rcases hr with rfl | rfl | rfl <;>
      exact Register.ofWords_of_address_eq_none (.number (by decide)) (.number (by decide))
        (by decide) rfl
  rcases withVersion_eq_ok_iff.1 hadded with ⟨-, rfl⟩ | ⟨-, packed, hpacked, rfl⟩
  · exact hequipped
  · intro r hr
    rcases Table.eq_or_mem_of_mem_addTo hr with rfl | hr
    · exact ofWords_versionRegister hpacked
    · exact hequipped r hr

/-- A placed register states words: only its address has changed, to one of the address space. -/
theorem OfWords.of_mem_placements (hm : m.OfWords) (htable : m.table = .ok table)
    (hmap : m.settings.policy.allocate env table = .ok map) :
    ∀ p ∈ map.placements, p.register.OfWords := by
  intro p hp
  obtain ⟨cursors, hrun, -⟩ := Policy.placeAll_of_allocate_eq_ok hmap
  have hseated := Policy.seated_of_placeAll_eq_ok hrun p hp
  have hdeclared := hm.of_mem_table htable
  obtain ⟨hwidth, hitems, hreset⟩ := Policy.forall_mem_placeAll
    (P := fun r => r.width.tree.OfWords ∧ r.logItems.tree.OfWords ∧ r.reset < 2 ^ 64)
    (fun _ _ hr => hr)
    (fun r hr => ⟨(hdeclared r hr).width, (hdeclared r hr).logItems, (hdeclared r hr).reset⟩)
    hrun p hp
  refine ⟨hwidth, hitems, hreset, fun address haddress => ?_⟩
  obtain rfl : p.address = address := Option.some.inj (hseated.pinned.symm.trans haddress)
  have hinside := hseated.inside
  omega

/-- For a module of words, machine words suffice. Nothing goes wrong in the layouts of its
registers, in any mode, and in their allocation, whether it succeeds or fails. Both cursors stay in
the address space all along, so no allocation fails for want of an address. And nothing goes wrong
in what is computed of the registers once they are placed. -/
theorem words_suffice (hm : m.OfWords) (henv : Environment.resolve m.params = .ok env)
    (htable : m.table = .ok table) :
    (∀ r ∈ Group.flatten table, ∀ mode,
      (Machine.layoutOf r env mode).Yields (Layout.of r env mode)) ∧
    (Machine.allocate m.settings.policy env table).Yields
      (m.settings.policy.allocate env table) ∧
    (∀ c, m.settings.policy.Visits env {} (Group.flatten table) c → c.Inside) ∧
    (∀ name, m.settings.policy.allocate env table ≠ .error (.address name .exhausted)) ∧
    ∀ map, m.settings.policy.allocate env table = .ok map →
      ∀ p ∈ map.placements, Machine.Exact ⟨m, env, map⟩ p := by
  have hwords := hm.of_mem_table htable
  have hvalues := Environment.ofWords_of_resolve_eq_ok hm.params henv
  refine ⟨fun r hr => Machine.yields_layoutOf hvalues (hwords r hr),
    Machine.yields_allocate hvalues hwords, fun c hvisits => hvisits.inside Cursors.inside_default,
    fun name => Policy.allocate_ne_exhausted, ?_⟩
  intro map hmap p hp
  obtain ⟨cursors, hrun, -⟩ := Policy.placeAll_of_allocate_eq_ok hmap
  have hseated := Policy.seated_of_placeAll_eq_ok hrun p hp
  exact Machine.exact_of_seated hseated hvalues (hm.of_mem_placements htable hmap p hp)
    (table_eq_ok_iff.1 htable).1

/-- A module with an array of items of five bytes, for which software has no word type, so that it
is refused after its hardware has been generated. -/
def unevenModule : Module :=
  { name := "uneven"
    version := { major := 1, minor := 0, patch := 0 }
    groups :=
      [⟨"main", "", [{ name := "mac", access := .read, width := .literal 40
                       logItems := .literal 2 }]⟩] }

theorem ofWords_unevenModule : unevenModule.OfWords where
  params := fun _ h => absurd h List.not_mem_nil
  registers := by
    intro r hr
    obtain rfl := List.mem_singleton.1 hr
    exact Register.ofWords_of_address_eq_none (.number (by decide)) (.number (by decide))
      (by decide) rfl

theorem words_suffice_unevenModule :
    ∃ env table map mac, unevenModule.OfWords ∧
      Environment.resolve unevenModule.params = .ok env ∧ unevenModule.table = .ok table ∧
      unevenModule.settings.policy.allocate env table = .ok map ∧
      map.placements[0]? = some mac ∧ (elements mac).map (·.stop) = [5, 10, 15, 20] ∧
      Artifacts.generate unevenModule = .error (.wordType "mac" 5) ∧
      (∀ r ∈ Group.flatten table, ∀ mode,
        (Machine.layoutOf r env mode).Yields (Layout.of r env mode)) ∧
      (Machine.allocate unevenModule.settings.policy env table).Yields (.ok map) ∧
      (∀ c, unevenModule.settings.policy.Visits env {} (Group.flatten table) c → c.Inside) ∧
      (∀ name, unevenModule.settings.policy.allocate env table ≠
        .error (.address name .exhausted)) ∧
      Machine.Exact ⟨unevenModule, env, map⟩ mac := by
  obtain ⟨env, table, map, mac, henv, htable, hmap, hmac, hstops, herror⟩ :
      ∃ env table map mac, Environment.resolve unevenModule.params = .ok env ∧
        unevenModule.table = .ok table ∧
        unevenModule.settings.policy.allocate env table = .ok map ∧
        map.placements[0]? = some mac ∧ (elements mac).map (·.stop) = [5, 10, 15, 20] ∧
        Artifacts.generate unevenModule = .error (.wordType "mac" 5) :=
    ⟨_, _, _, _, rfl, rfl, rfl, rfl, rfl, rfl⟩
  obtain ⟨hlayouts, hallocate, hcursors, hleft, hplaced⟩ :=
    words_suffice ofWords_unevenModule henv htable
  have hexact := hplaced map hmap mac (List.mem_of_getElem? hmac)
  rw [hmap] at hallocate
  exact ⟨env, table, map, mac, ofWords_unevenModule, henv, htable, hmap, hmac, hstops, herror,
    hlayouts, hallocate, hcursors, hleft, hexact⟩

end Module

end RegisterBank
