import RegisterBank.Proofs.Hardware.Identifiers
import RegisterBank.Proofs.Register.Stated
import RegisterBank.Proofs.Verilog.Width

/-!
# Reset values are not cut off

A storage is given its reset value as a literal, and a literal that is wider than the storage would
lose its upper bits. Whether the value fits is asked of the number of bits that the width has by the
default parameter values. The literal is written from the text of the width. If this is a number, it
is the same number of bits (`signalWidth_cases`). Otherwise the literal has as many bits as the
value needs, which are no more than the register has, with zeros before it.
-/

namespace RegisterBank.Hardware

open Verilog (Instance)

variable {b : Build} {m : Module} {p : Placement} {bits reset : Nat} {width : String}

/-! ## When a reset value fits -/

theorem resetFits_eq_true_iff {bits : Int} : resetFits bits reset = true ↔
    0 ≤ bits ∧ bits < 2 ^ 32 ∧ reset < 2 ^ bits.toNat := by
  have hsize : (UInt32.size : Int) = 2 ^ 32 := rfl
  simp only [resetFits, hsize, Bool.and_eq_true, decide_eq_true_eq, beq_iff_eq,
    Nat.shiftRight_eq_div_pow, Nat.div_eq_zero_iff_lt (Nat.two_pow_pos _), and_assoc]

theorem lt_of_checkWrite_eq_ok (h : checkWrite b p = .ok ()) (hauto : p.register.auto = true)
    (hbits : b.valueBits p = .ok (bits : Int)) : p.register.reset < 2 ^ bits := by
  by_cases hreset : p.register.reset = 0
  · rw [hreset]
    exact Nat.two_pow_pos bits
  · rw [checkWrite, ite_error_eq_ok_iff, if_pos ⟨hauto, hreset⟩, bind_eq_ok_iff] at h
    obtain ⟨-, bits', hbits', h⟩ := h
    cases hbits.symm.trans hbits'
    by_cases hfits : resetFits bits p.register.reset = true
    · exact (resetFits_eq_true_iff.1 hfits).2.2
    · rw [if_neg hfits] at h
      cases h

theorem valueBits_ne_error {fault : ConfigurationFault} :
    b.valueBits p ≠ .error (.configuration fault) := by
  intro h
  rw [Build.valueBits, Formula.eval] at h
  split at h
  · cases h
  · cases h

/-- A register is refused for its reset value only if this does not fit. -/
theorem of_checkWrite_eq_error {name : String} {bits : Int}
    (h : checkWrite b p = .error (.configuration (.resetWidth name reset bits))) :
    p.register.auto = true ∧ p.register.name = name ∧ p.register.reset = reset ∧
      b.valueBits p = .ok bits ∧ ¬ resetFits bits reset = true := by
  unfold checkWrite at h
  split at h
  · cases h
  · split at h
    · rename_i hauto
      rcases bind_eq_error_iff.1 h with herror | ⟨bits', hbits, h⟩
      · exact absurd herror valueBits_ne_error
      · by_cases hfits : resetFits bits' p.register.reset = true
        · rw [if_pos hfits] at h
          cases h
        · rw [if_neg hfits] at h
          cases h
          exact ⟨hauto.1, rfl, rfl, hbits, hfits⟩
    · cases h

/-! ## The texts of reset values -/

/-- The literals of a reset value that lose none of its bits: of a width that is a number, and of
any other width with zeros only or with zeros before the value. -/
inductive IsResetText (width : String) (bits reset : Nat) : String → Prop where
  | numeric : width = toString bits → IsResetText width bits reset s!"{bits}'d{reset}"
  | zeros : (∀ n : Nat, width ≠ toString n) → reset = 0 →
      IsResetText width bits reset s!"\x7b{width}\x7b1'd0\x7d\x7d"
  | padded {k : Nat} : (∀ n : Nat, width ≠ toString n) →
      2 ^ (k - 1) ≤ reset → reset < 2 ^ k → k ≤ bits →
        IsResetText width bits reset
          s!"\x7b\x7b({width}-{k})\x7b1'd0\x7d\x7d,{k}'d{reset}\x7d"

theorem unsigned?_choiceText (a c : String) :
    Text.unsigned? (Verilog.choiceText a c).toList = none := by
  obtain ⟨cs, hcs⟩ : ∃ cs, (Verilog.choiceText a c).toList = '(' :: cs :=
    ⟨_, by rw [Verilog.choiceText, String.toList_append]; rfl⟩
  rw [hcs, Text.unsigned?]
  · rw [Option.eq_none_iff_forall_ne_some]
    intro n hn
    exact absurd ((Expr.natural?_ten_eq_some_iff.1 hn).2.1 '(' List.mem_cons_self) (by decide)
  · rintro cs ⟨⟩

theorem choiceText_ne_toString (a c : String) (n : Nat) : Verilog.choiceText a c ≠ toString n := by
  intro h
  have hnone := unsigned?_choiceText a c
  rw [h, Expr.unsigned?_toString] at hnone
  cases hnone

/-- The text of the width is the number of bits or no number. -/
theorem signalWidth_cases (hstated : p.register.width.Stated)
    (hbits : b.valueBits p = .ok (bits : Int)) (hpositive : 1 ≤ bits) :
    (p.signalWidth = toString bits ∧ bits < UInt64.size) ∨
      p.signalWidth = Verilog.choiceText p.register.width.source "1" := by
  have htree := Formula.eval_eq_ok_iff.1 hbits
  have hwritten := hstated.writtenAs htree (Int.natCast_nonneg bits)
  have hone : Verilog.numeric? "1" = some 1 := by decide
  -- A number that the text is, is the value of the formula.
  have hnumeric : ∀ x, Verilog.numeric? p.register.width.source = some x →
      x = bits ∧ bits < UInt64.size := by
    intro x hx
    obtain ⟨-, heval, hrange⟩ := Verilog.writtenAs_of_numeric? hwritten hx
    obtain rfl : x = bits := Except.ok.inj ((heval _).symm.trans htree)
    rw [Int.natAbs_natCast, Word.inRange_natCast] at hrange
    exact ⟨rfl, hrange.trans (by decide)⟩
  rw [Placement.signalWidth]
  by_cases heq : p.register.width.source = "1"
  · obtain ⟨hvalue, hsize⟩ := hnumeric 1 (heq ▸ hone)
    rw [Verilog.larger, if_pos heq, heq]
    refine .inl ⟨?_, hsize⟩
    obtain rfl : bits = 1 := by omega
    rfl
  · rcases Verilog.larger_cases heq with ⟨x, y, hx, hy, htext⟩ | htext
    · cases hone.symm.trans hy
      obtain ⟨rfl, hsize⟩ := hnumeric x hx
      rw [htext, max_eq_left (by omega)]
      exact .inl ⟨rfl, hsize⟩
    · exact .inr htext

theorem isResetText_resetLiteral (hstated : p.register.width.Stated)
    (hbits : b.valueBits p = .ok (bits : Int)) (hpositive : 1 ≤ bits) (hfits : reset < 2 ^ bits) :
    IsResetText p.signalWidth bits reset (resetLiteral p.signalWidth reset) := by
  rcases signalWidth_cases hstated hbits hpositive with ⟨hwidth, hsize⟩ | hwidth
  · have hnumber : (Text.unsigned? p.signalWidth.toList).filter (· < UInt64.size) = some bits := by
      rw [hwidth, Expr.unsigned?_toString, Option.filter_some, if_pos (decide_eq_true hsize)]
    rw [resetLiteral, hnumber]
    exact .numeric hwidth
  · have hnumber : (Text.unsigned? p.signalWidth.toList).filter (· < UInt64.size) = none := by
      rw [hwidth, unsigned?_choiceText, Option.filter_none]
    have hsymbolic : ∀ n : Nat, p.signalWidth ≠ toString n :=
      fun n => hwidth ▸ choiceText_ne_toString _ _ n
    rw [resetLiteral, hnumber]
    simp only
    by_cases hreset : reset = 0
    · rw [if_pos hreset]
      exact .zeros hsymbolic hreset
    · rw [if_neg hreset]
      have hlow : 2 ^ Nat.log2 reset ≤ reset := Nat.log2_self_le hreset
      have hbelow : Nat.log2 reset < bits := by
        rw [← Nat.pow_lt_pow_iff_right (a := 2) (by decide)]
        exact hlow.trans_lt hfits
      exact .padded hsymbolic hlow Nat.lt_log2_self hbelow

/-! ## The storages of a register file -/

/-- The elements of the stored registers, each with its register. -/
def storedElements (ps : List Placement) : List (Placement × Element) :=
  (storedRegisters ps).flatMap fun p => (elements p).map (p, ·)

/-- The instance is the storage of an element, and its reset value keeps all bits. -/
structure Stores (b : Build) (i : Instance) (x : Placement × Element) : Prop where
  name : i.name = x.2.name ++ "_datareg"
  reset : ∃ (bits : Nat) (text : String), b.valueBits x.1 = .ok (bits : Int) ∧ 1 ≤ bits ∧
    x.1.register.reset < 2 ^ bits ∧
    i.parameters = [("DATA_W", x.1.signalWidth), ("RST_VAL", text)] ∧
    IsResetText x.1.signalWidth bits x.1.register.reset text

theorem exists_valueBits (hb : b.Checked) (hp : p ∈ storedRegisters b.placements) :
    ∃ bits : Nat, b.valueBits p = .ok (bits : Int) ∧ 1 ≤ bits ∧ p.register.reset < 2 ^ bits := by
  obtain ⟨hwritable, hauto⟩ := mem_storedRegisters.1 hp
  obtain ⟨layout, hlayout⟩ := hb.defaults p (mem_writable.1 hwritable).1
  obtain ⟨bits, -, hbits, hpositive, -⟩ := Layout.of_eq_ok_iff.1 hlayout
  lift bits to Nat using zero_le_one.trans hpositive
  exact ⟨bits, hbits, by omega, lt_of_checkWrite_eq_ok (hb.writes p hwritable) hauto hbits⟩

/-- The storages are the only instances of their core. -/
theorem filter_core_instances (b : Build) :
    (fragmentOf b).instances.filter (·.core = "iob_reg_e") =
      (storedElements b.placements).map fun x => storage x.1
        ⟨x.2, Block.laneBit x.2.address b.busBytes, x.1.signalWidth⟩ := by
  have hbus : (busSection b.design.settings.interface).instances.filter (·.core = "iob_reg_e") =
      [] := by
    cases b.design.settings.interface <;> decide
  have haddress : addressSection.instances.filter (·.core = "iob_reg_e") = [] := by decide
  have hresponse : responseSection.instances.filter (·.core = "iob_reg_e") = [] := by decide
  have hstorages : ∀ i ∈ (storedRegisters b.placements).flatMap
      (fun p => (writeSlices b.busBytes p).map (storage p)), i.core = "iob_reg_e" := by
    simp only [List.mem_flatMap, List.mem_map]
    rintro i ⟨p, -, s, -, rfl⟩
    rfl
  rw [instances_fragmentOf, List.filter_append, List.filter_append, List.filter_append, hbus,
    haddress, hresponse, List.filter_eq_self.2 (by simpa using hstorages)]
  simp [storedElements, writeSlices, List.map_flatMap, Function.comp_def]

theorem stores_storage {x : Placement × Element} (hb : b.Checked)
    (hstated : ∀ p ∈ b.placements, p.register.Stated) (hx : x ∈ storedElements b.placements) :
    Stores b (storage x.1 ⟨x.2, Block.laneBit x.2.address b.busBytes, x.1.signalWidth⟩) x := by
  obtain ⟨p, hp, hx⟩ := List.mem_flatMap.1 hx
  obtain ⟨e, -, rfl⟩ := List.mem_map.1 hx
  obtain ⟨bits, hbits, hpositive, hfits⟩ := exists_valueBits hb hp
  have hwidth := (hstated p (mem_writable.1 (mem_storedRegisters.1 hp).1).1).width
  exact
    { name := rfl
      reset := ⟨bits, _, hbits, hpositive, hfits, rfl,
        isResetText_resetLiteral hwidth hbits hpositive hfits⟩ }

/-- Every stored register of a generated module has room for its reset value, and the storages of
its elements are reset to a literal that keeps all bits of it. The storages are all instances of
their core, in the order of the elements. A register is refused for its reset value only if it has
no room for it, or a negative or enormous number of bits. -/
theorem generate_resets (hm : m.Stated) (hb : Build.ofModule m = .ok b) :
    (∀ a, Artifacts.generate m = .ok a →
      (∀ p ∈ storedRegisters a.map.placements, ∃ bits : Nat,
        b.valueBits p = .ok (bits : Int) ∧ 1 ≤ bits ∧ p.register.reset < 2 ^ bits) ∧
      List.Forall₂ (Stores b) (a.hardware.instances.filter (·.core = "iob_reg_e"))
        (storedElements a.map.placements)) ∧
    ∀ name reset bits, fragment b = .error (.configuration (.resetWidth name reset bits)) →
      ∃ p ∈ storedRegisters b.placements, p.register.name = name ∧ p.register.reset = reset ∧
        b.valueBits p = .ok bits ∧ (0 ≤ bits → bits < 2 ^ 32 → 2 ^ bits.toNat ≤ reset) := by
  constructor
  · intro a ha
    rw [Artifacts.generate, hb, ok_bind] at ha
    have hchecked := Artifacts.checked_of_ofBuild_eq_ok hb ha
    obtain ⟨hardware, -, -, -, hhardware, -, -, -, rfl⟩ := Artifacts.ofBuild_eq_ok_iff.1 ha
    obtain ⟨-, rfl⟩ := fragment_eq_ok_iff.1 hhardware
    refine ⟨fun p hp => exists_valueBits hchecked hp, ?_⟩
    rw [filter_core_instances, List.forall₂_map_left_iff]
    exact List.forall₂_same.2 fun x hx => stores_storage hchecked (hm.of_mem_placements hb) hx
  · intro name reset bits h
    rw [fragment] at h
    rcases bind_eq_error_iff.1 h with h | ⟨⟨⟩, -, h⟩
    · obtain ⟨p, hp, hrefused⟩ := exists_of_checkWrites_eq_error h
      obtain ⟨hauto, hname, hreset, hbits, hfits⟩ := of_checkWrite_eq_error hrefused
      refine ⟨p, mem_storedRegisters.2 ⟨hp, hauto⟩, hname, hreset, hbits, ?_⟩
      intro hnonneg hlt
      by_contra hnot
      exact hfits (resetFits_eq_true_iff.2 ⟨hnonneg, hlt, not_le.1 hnot⟩)
    · cases h

/-- A module with an array of a width that follows a parameter, and a register that is reset to the
given value. -/
def latchModule (reset : Nat) : Module :=
  { name := "latch"
    version := { major := 1, minor := 0, patch := 0 }
    params := [{ name := "W", fields := .constant (some (.literal 12)) }]
    groups :=
      [⟨"main", "",
        [{ name := "gains", access := .readWrite, width := ⟨"W", .name "W"⟩, reset := 5
           logItems := .literal 1 },
          { name := "mode", access := .write, width := .literal 8, reset }]⟩] }

theorem stated_latchModule (reset : Nat) : (latchModule reset).Stated := by
  have hname : (Expr.Form.expr 13 (.name "W")).WrittenAs "W".toList :=
    Expr.writtenAs_letter (by decide)
  intro r hr
  simp only [latchModule, Group.flatten_cons, Group.flatten_nil, List.append_nil, List.mem_cons,
    List.not_mem_nil, or_false] at hr
  rcases hr with rfl | rfl
  · exact ⟨Formula.stated_of_writtenAs (hname.looser (by decide)) (by decide),
      Formula.stated_literal (by decide)⟩
  · exact ⟨Formula.stated_literal (by decide), Formula.stated_literal (by decide)⟩

/-- The parameters of the storages of the two items of symbolic width and of the register of 8
bits. -/
def latchParameters : List (List (String × String)) :=
  let item := [("DATA_W", "((W > 1) ? W : 1)"),
    ("RST_VAL", "\x7b\x7b(((W > 1) ? W : 1)-3)\x7b1'd0\x7d\x7d,3'd5\x7d")]
  [item, item, [("DATA_W", "8"), ("RST_VAL", "8'd255")]]

/-- The greatest value of 8 bits is kept, and the next one is refused. -/
theorem generate_resets_latchModule :
    (∃ a b, Artifacts.generate (latchModule 255) = .ok a ∧
      Build.ofModule (latchModule 255) = .ok b ∧
      (a.hardware.instances.filter (·.core = "iob_reg_e")).map (·.parameters) = latchParameters ∧
      List.Forall₂ (Stores b) (a.hardware.instances.filter (·.core = "iob_reg_e"))
        (storedElements a.map.placements)) ∧
    ∃ b, Build.ofModule (latchModule 256) = .ok b ∧
      fragment b = .error (.configuration (.resetWidth "mode" 256 8)) ∧
      ∃ p ∈ storedRegisters b.placements, p.register.name = "mode" ∧ 2 ^ 8 ≤ p.register.reset := by
  constructor
  · obtain ⟨a, b, ha, hb, hparameters⟩ :
        ∃ a b, Artifacts.generate (latchModule 255) = .ok a ∧
          Build.ofModule (latchModule 255) = .ok b ∧
          (a.hardware.instances.filter (·.core = "iob_reg_e")).map (·.parameters) =
            latchParameters := ⟨_, _, rfl, rfl, rfl⟩
    exact ⟨a, b, ha, hb, hparameters, ((generate_resets (stated_latchModule 255) hb).1 a ha).2⟩
  · obtain ⟨b, hb, hrefused⟩ : ∃ b, Build.ofModule (latchModule 256) = .ok b ∧
        fragment b = .error (.configuration (.resetWidth "mode" 256 8)) := ⟨_, rfl, rfl⟩
    obtain ⟨p, hp, hname, hreset, -, hlarge⟩ :=
      (generate_resets (stated_latchModule 256) hb).2 _ _ _ hrefused
    exact ⟨b, hb, hrefused, p, hp, hname, hreset ▸ hlarge (by decide) (by decide)⟩

end RegisterBank.Hardware
