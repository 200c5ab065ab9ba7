import RegisterBank.Proofs.Artifacts
import RegisterBank.Proofs.Register.Reserve
import RegisterBank.Proofs.Register.Stated
import RegisterBank.Proofs.Verilog.Width

/-!
# Where the headers agree

The header for use inside an instance gives the widths of a register as texts, the header for code
outside as numbers at the default parameter values. Read as expressions at these values, the texts
should have the numbers as values (`Header.Agree`). Two things stand in the way.

* A text is put together from the texts of the declaration without parentheses: the width before a
  comparison, the depth of an array before a sum. An operator in them that binds more loosely takes
  the comparison or the sum to its right operand.
* The bytes of an item are those at the greatest parameter values in the text, and those at the
  default values in the number.

`Artifacts.generate_agree_iff` says for each width when neither does.
-/

namespace RegisterBank

open RegisterBank.Expr (Form)
open Verilog (HasValue comparison larger)

variable {b : Build} {p : Placement} {layout : Layout} {bits : Int} {scope : String → Lookup}

/-- The text binds as tightly as the level: no operator in it that binds more loosely takes part in
what is written next to it. -/
def Formula.Tight (level : Nat) (f : Formula) : Prop :=
  (Form.expr level f.tree).WrittenAs f.source.toList

/-- What the layout of a register says about the values of its formulas. -/
theorem Layout.sizes_of_eq_ok {r : Register} {env : Environment} {mode : Mode}
    (h : Layout.of r env mode = .ok layout) :
    ∃ bits, r.width.tree.eval (env.lookup mode) = .ok bits ∧ 1 ≤ bits ∧
      r.logItems.tree.eval (env.lookup mode) = .ok (layout.logItems : Int) ∧
      layout.addrWidth = layout.logItems + Block.ceilLog2 layout.bytes ∧
      layout.addrWidth ≤ addrLimit := by
  obtain ⟨bits, logItems, hbits, hpos, hitems, -, -, rfl, hlimit⟩ := of_eq_ok_iff.1 h
  rw [Formula.eval_eq_ok_iff] at hbits
  rw [Formula.evalCount_eq_ok_iff, Formula.eval_eq_ok_iff] at hitems
  exact ⟨bits, hbits, hpos, hitems, rfl, hlimit⟩

namespace Header

/-- Wherever both headers define the quantity of a register, the text in the header for use inside
an instance has the number in the other header as its value at the default parameter values. -/
def Agree (b : Build) (p : Placement) (quantity : String) : Prop :=
  ∀ definitions, defaultDefinitions b p = .ok definitions →
    ∀ d ∈ instanceDefinitions b p, ∀ d' ∈ definitions,
      d.name = registerName b p quantity → d'.name = registerName b p quantity →
        ∃ v : Int, d'.value = toString v ∧ HasValue (b.env.lookup .value) d.value v

theorem registerName_inj {quantity quantity' : String} :
    registerName b p quantity = registerName b p quantity' ↔ quantity = quantity' := by
  simp [registerName]

/-- The definitions of one register in either header. -/
def definitionsOf (b : Build) (p : Placement) (isArray : Prop) [Decidable isArray]
    (addrWidth width : String) : List Definition :=
  [⟨registerName b p "ADDR", toString p.address⟩]
    ++ (if isArray then [⟨registerName b p "ADDR_W", addrWidth⟩] else [])
    ++ [⟨registerName b p "W", width⟩]

section

variable {isArray : Prop} [Decidable isArray] {addrWidth width : String} {d : Definition}

theorem mem_definitionsOf : d ∈ definitionsOf b p isArray addrWidth width ↔
    d = ⟨registerName b p "ADDR", toString p.address⟩ ∨
      (isArray ∧ d = ⟨registerName b p "ADDR_W", addrWidth⟩) ∨
        d = ⟨registerName b p "W", width⟩ := by
  by_cases h : isArray <;> simp [definitionsOf, h]

theorem eq_of_name_eq_width (hd : d ∈ definitionsOf b p isArray addrWidth width)
    (hname : d.name = registerName b p "W") : d = ⟨registerName b p "W", width⟩ := by
  rcases mem_definitionsOf.1 hd with rfl | ⟨-, rfl⟩ | rfl
  · exact absurd (registerName_inj.1 hname) (by decide)
  · exact absurd (registerName_inj.1 hname) (by decide)
  · rfl

theorem eq_of_name_eq_addrWidth (hd : d ∈ definitionsOf b p isArray addrWidth width)
    (hname : d.name = registerName b p "ADDR_W") :
    d = ⟨registerName b p "ADDR_W", addrWidth⟩ := by
  rcases mem_definitionsOf.1 hd with rfl | ⟨-, rfl⟩ | rfl
  · exact absurd (registerName_inj.1 hname) (by decide)
  · rfl
  · exact absurd (registerName_inj.1 hname) (by decide)

end

theorem instanceDefinitions_eq (b : Build) (p : Placement) :
    instanceDefinitions b p =
      definitionsOf b p (0 < p.layout.logItems) (larger (symbolicAddrWidth p) "1") p.signalWidth :=
  rfl

theorem defaultDefinitions_eq_ok (hlayout : Layout.of p.register b.env .value = .ok layout)
    (hbits : b.valueBits p = .ok bits) :
    defaultDefinitions b p = .ok
      (definitionsOf b p (0 < layout.logItems) (toString layout.addrWidth) (toString bits)) := by
  rw [defaultDefinitions, hlayout, ok_bind, hbits, ok_bind]
  rfl

/-- Both headers define the width of every register. -/
theorem agree_width_iff (hlayout : Layout.of p.register b.env .value = .ok layout)
    (hbits : b.valueBits p = .ok bits) :
    Agree b p "W" ↔ HasValue (b.env.lookup .value) p.signalWidth bits := by
  unfold Agree
  rw [defaultDefinitions_eq_ok hlayout hbits, instanceDefinitions_eq]
  constructor
  · intro h
    obtain ⟨v, hv, hvalue⟩ := h _ rfl _ (mem_definitionsOf.2 (.inr (.inr rfl))) _
      (mem_definitionsOf.2 (.inr (.inr rfl))) rfl rfl
    exact Expr.toString_inj.1 hv ▸ hvalue
  · rintro h definitions ⟨⟩ d hd d' hd' hname hname'
    obtain rfl := eq_of_name_eq_width hd hname
    obtain rfl := eq_of_name_eq_width hd' hname'
    exact ⟨bits, rfl, h⟩

/-- Both headers define the address width of a register that is an array in both modes. -/
theorem agree_addrWidth_iff (hlayout : Layout.of p.register b.env .value = .ok layout)
    (hbits : b.valueBits p = .ok bits) (hmost : 0 < p.layout.logItems)
    (hdefault : 0 < layout.logItems) :
    Agree b p "ADDR_W" ↔
      HasValue (b.env.lookup .value) (larger (symbolicAddrWidth p) "1") layout.addrWidth := by
  unfold Agree
  rw [defaultDefinitions_eq_ok hlayout hbits, instanceDefinitions_eq]
  constructor
  · intro h
    obtain ⟨v, hv, hvalue⟩ := h _ rfl _ (mem_definitionsOf.2 (.inr (.inl ⟨hmost, rfl⟩))) _
      (mem_definitionsOf.2 (.inr (.inl ⟨hdefault, rfl⟩))) rfl rfl
    have hnumber : (layout.addrWidth : Int) = v := Expr.toString_inj.1 hv
    exact hnumber ▸ hvalue
  · rintro h definitions ⟨⟩ d hd d' hd' hname hname'
    obtain rfl := eq_of_name_eq_addrWidth hd hname
    obtain rfl := eq_of_name_eq_addrWidth hd' hname'
    exact ⟨layout.addrWidth, rfl, h⟩

/-! ## The texts -/

theorem inRange_of_le {n : Nat} (h : n ≤ Layout.addrLimit) : Word.InRange n := by
  unfold Layout.addrLimit at h
  rw [Word.inRange_natCast]
  omega

theorem plus_toList (a c : String) :
    (a ++ ("+" ++ c)).toList = a.toList ++ (['+'] ++ c.toList) := by
  simp

theorem writtenAs_one : (Form.expr 8 (.number 1)).WrittenAs "1".toList :=
  (Expr.writtenAs_toString (n := 1) (by decide)).looser (by decide)

theorem hasValue_one : HasValue scope "1" 1 :=
  (Verilog.hasValue_iff writtenAs_one).2 rfl

/-- A text keeps its value where its comparison with `1` does not read false, and is replaced by `1`
where it does. -/
theorem hasValue_larger_one_iff {text : String} {e : Expr} {v : Int}
    (htext : (Form.expr 0 e).WrittenAs text.toList) :
    HasValue scope (larger text "1") v ↔
      (HasValue scope text v ∧ ¬ HasValue scope (comparison text "1") 0) ∨
        v = 1 ∧ HasValue scope (comparison text "1") 0 := by
  rw [Verilog.hasValue_larger_iff htext writtenAs_one hasValue_one]
  constructor
  · rintro (⟨x, hx, hcomparison, hv⟩ | ⟨hzero, rfl⟩)
    · exact .inl ⟨hv, fun hzero => hx (hcomparison.unique hzero)⟩
    · exact .inr ⟨rfl, hzero⟩
  · rintro (⟨hv, hnot⟩ | ⟨rfl, hzero⟩)
    · obtain ⟨x, hx⟩ := Verilog.exists_hasValue_comparison htext writtenAs_one hv hasValue_one
      exact .inl ⟨x, fun hx0 => hnot (hx0 ▸ hx), hx, hv⟩
    · exact .inr ⟨hzero, rfl⟩

/-- A text for a value of at least one keeps this value if it binds as tightly as a comparison. -/
theorem hasValue_larger_one_iff_of_tight {text : String} {e : Expr} {v w : Int}
    (htext : (Form.expr 7 e).WrittenAs text.toList) (hw : HasValue scope text w) (hpos : 1 ≤ w) :
    HasValue scope (larger text "1") v ↔ v = w := by
  rw [Verilog.hasValue_larger_iff_of_tight htext writtenAs_one hw hasValue_one, max_eq_left hpos]

/-- The text for the address width of an array: a number where the depth is one, and otherwise the
text of the depth with the width of an item added, or alone where this width is zero. -/
theorem symbolicAddrWidth_cases (p : Placement) :
    (∃ n, p.register.logItems.tree = .number n ∧
        symbolicAddrWidth p = toString (n + (Block.ceilLog2 p.layout.bytes : Int))) ∨
      (Block.ceilLog2 p.layout.bytes = 0 ∧ symbolicAddrWidth p = p.register.logItems.source) ∨
        symbolicAddrWidth p =
          p.register.logItems.source ++ ("+" ++ toString (Block.ceilLog2 p.layout.bytes)) := by
  cases hliteral : p.register.logItems.literal? with
  | some n =>
      refine .inl ⟨n, ?_, by simp only [symbolicAddrWidth, hliteral]⟩
      rw [Formula.literal?, Expr.literal?.eq_def] at hliteral
      split at hliteral
      · rename_i heq
        rw [heq, Option.some.inj hliteral]
      · cases hliteral
  | none =>
      refine .inr ?_
      simp only [symbolicAddrWidth, hliteral]
      split
      · exact .inl ⟨‹_›, rfl⟩
      · exact .inr String.append_assoc

/-- The text of an address width can be read. -/
theorem exists_writtenAs_symbolicAddrWidth
    (hdepth : (Form.expr 0 p.register.logItems.tree).WrittenAs p.register.logItems.source.toList)
    (hmost : Layout.of p.register b.env .max = .ok p.layout) :
    ∃ e, (Form.expr 0 e).WrittenAs (symbolicAddrWidth p).toList := by
  obtain ⟨-, -, -, hitems, hsum, hlimit⟩ := Layout.sizes_of_eq_ok hmost
  rcases symbolicAddrWidth_cases p with ⟨n, htree, htext⟩ | ⟨-, htext⟩ | htext
  · rw [htree] at hitems
    obtain rfl : n = p.layout.logItems := Except.ok.inj hitems
    have hnumber := Expr.writtenAs_toString (n := p.layout.addrWidth) (inRange_of_le hlimit)
    rw [hsum] at hnumber
    exact ⟨_, htext ▸ hnumber.looser (Nat.zero_le 13)⟩
  · exact ⟨_, htext ▸ hdepth⟩
  · have hwidth := Expr.writtenAs_toString (n := Block.ceilLog2 p.layout.bytes)
      (inRange_of_le (by omega))
    obtain ⟨e, -, hsum⟩ := hdepth.exists_joined .add (by decide) (Expr.spaced_self _)
      (hwidth.looser (by decide))
    exact ⟨e, by rw [htext, plus_toList]; exact hsum.looser (Nat.zero_le _)⟩

/-- Where the text of the depth binds as tightly as a sum, the text of the address width has the sum
as its value: the depth in the default configuration and the width of an item in the greatest
one. -/
theorem exists_hasValue_symbolicAddrWidth (htight : p.register.logItems.Tight 9)
    (hmost : Layout.of p.register b.env .max = .ok p.layout)
    (hdefault : Layout.of p.register b.env .value = .ok layout) :
    ∃ e, (Form.expr 9 e).WrittenAs (symbolicAddrWidth p).toList ∧
      e.eval (b.env.lookup .value) =
        .ok ((layout.logItems + Block.ceilLog2 p.layout.bytes : Nat) : Int) := by
  obtain ⟨-, -, -, -, hsum, hlimit⟩ := Layout.sizes_of_eq_ok hmost
  obtain ⟨-, -, -, hitems, hsum', hlimit'⟩ := Layout.sizes_of_eq_ok hdefault
  have hrange : Word.InRange ((layout.logItems + Block.ceilLog2 p.layout.bytes : Nat) : Int) := by
    unfold Layout.addrLimit at hlimit hlimit'
    rw [Word.inRange_natCast]
    omega
  rcases symbolicAddrWidth_cases p with ⟨n, htree, htext⟩ | ⟨hzero, htext⟩ | htext
  · rw [htree] at hitems
    obtain rfl : n = layout.logItems := Except.ok.inj hitems
    exact ⟨_, htext ▸ (Expr.writtenAs_toString hrange).looser (by decide), rfl⟩
  · rw [hzero, Nat.add_zero, htext]
    exact ⟨_, htight, hitems⟩
  · have hwidth := Expr.writtenAs_toString (n := Block.ceilLog2 p.layout.bytes)
      (inRange_of_le (by omega))
    have hwritten := htight.join .add (by decide) le_rfl (Expr.spaced_self _)
      (hwidth.looser (by decide))
    refine ⟨_, by rw [htext, plus_toList]; exact hwritten, ?_⟩
    rw [Expr.eval_binary_eq_ok_iff]
    refine ⟨_, _, hitems, rfl, ?_⟩
    rw [Expr.binaryValue, Expr.inRange, Word.check?, ← Nat.cast_add, if_pos hrange]

/-! ## Agreement -/

/-- The widths agree unless the comparison of the text with `1` reads false for several bits. -/
theorem agree_width_iff_comparison
    (hwidth : (Form.expr 0 p.register.width.tree).WrittenAs p.register.width.source.toList)
    (hdefault : Layout.of p.register b.env .value = .ok layout)
    (hbits : b.valueBits p = .ok bits) :
    Agree b p "W" ↔
      (HasValue (b.env.lookup .value) (comparison p.register.width.source "1") 0 → bits = 1) := by
  have hvalue : HasValue (b.env.lookup .value) p.register.width.source bits :=
    (Verilog.hasValue_iff hwidth).2 (Formula.eval_eq_ok_iff.1 hbits)
  rw [agree_width_iff hdefault hbits, Placement.signalWidth, hasValue_larger_one_iff hwidth]
  by_cases hzero : HasValue (b.env.lookup .value) (comparison p.register.width.source "1") 0
  · simp only [hzero, not_true_eq_false, and_false, false_or, and_true, forall_const]
  · simp only [hzero, hvalue, not_false_eq_true, and_true, and_false, or_false, false_imp_iff]

theorem agree_width_of_tight (htight : p.register.width.Tight 7)
    (hdefault : Layout.of p.register b.env .value = .ok layout)
    (hbits : b.valueBits p = .ok bits) : Agree b p "W" := by
  obtain ⟨bits', hbits', hpos, -⟩ := Layout.sizes_of_eq_ok hdefault
  obtain rfl : bits = bits' := Except.ok.inj ((Formula.eval_eq_ok_iff.1 hbits).symm.trans hbits')
  have hvalue : HasValue (b.env.lookup .value) p.register.width.source bits :=
    (Verilog.hasValue_iff htight).2 hbits'
  rw [agree_width_iff hdefault hbits, Placement.signalWidth,
    hasValue_larger_one_iff_of_tight htight hvalue hpos]

/-- The address widths of an array agree where its depth binds as tightly as a sum and its items
take the same space in the default configuration as in the greatest one. -/
theorem agree_addrWidth_iff_of_tight (htight : p.register.logItems.Tight 9)
    (hmost : Layout.of p.register b.env .max = .ok p.layout)
    (hdefault : Layout.of p.register b.env .value = .ok layout)
    (hbits : b.valueBits p = .ok bits) (harray : 0 < p.layout.logItems)
    (harray' : 0 < layout.logItems) :
    Agree b p "ADDR_W" ↔ Block.ceilLog2 p.layout.bytes = Block.ceilLog2 layout.bytes := by
  obtain ⟨e, hwritten, heval⟩ := exists_hasValue_symbolicAddrWidth htight hmost hdefault
  obtain ⟨-, -, -, -, hsum, -⟩ := Layout.sizes_of_eq_ok hdefault
  rw [agree_addrWidth_iff hdefault hbits harray harray',
    hasValue_larger_one_iff_of_tight (hwritten.looser (by decide))
      ((Verilog.hasValue_iff hwritten).2 heval) (by omega)]
  omega

end Header

namespace Artifacts

open Hardware (mixedModule)
open Header (Agree symbolicAddrWidth)

variable {m : Module} {a : Artifacts}

/-- The two headers of the build are among the generated files. -/
theorem exists_headers_of_generate_eq_ok (h : generate m = .ok a) :
    ∃ b parameters, Build.ofModule m = .ok b ∧ b.Checked ∧ b.map = a.map ∧
      Header.instanceFile b ∈ a.files ∧ Header.parameterFile b = .ok parameters ∧
        parameters ∈ a.files := by
  obtain ⟨x⟩ := nonempty_parts h
  have hparameters : Header.parameterFile x.build =
      .ok (Header.file s!"{x.build.top}_csrs_lparam.vs" Header.Definition.localParameter
        x.parameters) := by
    rw [Header.parameterFile, x.parameters_eq, ok_bind]
  exact ⟨x.build, _, x.ofModule, x.checked, x.map_eq.symm, by simp [x.files_eq], hparameters,
    by simp [x.files_eq]⟩

/-- Both headers of a generated module are among its files. In them the widths of a register agree
exactly if the comparison of the text with `1` does not read false for several bits; so they do
where the text binds as tightly as a comparison. The address widths of an array agree exactly if the
text of the sum has the number as its value and the comparison of this text with `1` does not read
false, or reads false where the number is one. Where the depth binds as tightly as a sum, that is so
exactly if the items need as many address bits at the default parameter values as at the greatest
ones. -/
theorem generate_agree_iff (hm : m.Stated) (h : generate m = .ok a) :
    ∃ b parameters, Build.ofModule m = .ok b ∧ Header.instanceFile b ∈ a.files ∧
      Header.parameterFile b = .ok parameters ∧ parameters ∈ a.files ∧
      ∀ p ∈ a.map.placements, ∃ layout bits,
        Layout.of p.register b.env .value = .ok layout ∧ b.valueBits p = .ok bits ∧
        (Agree b p "W" ↔
          (HasValue (b.env.lookup .value) (comparison p.register.width.source "1") 0 → bits = 1)) ∧
        (p.register.width.Tight 7 → Agree b p "W") ∧
        (0 < p.layout.logItems → 0 < layout.logItems →
          (Agree b p "ADDR_W" ↔
            (HasValue (b.env.lookup .value) (symbolicAddrWidth p) layout.addrWidth ∧
              ¬ HasValue (b.env.lookup .value) (comparison (symbolicAddrWidth p) "1") 0) ∨
            layout.addrWidth = 1 ∧
              HasValue (b.env.lookup .value) (comparison (symbolicAddrWidth p) "1") 0) ∧
          (p.register.logItems.Tight 9 →
            (Agree b p "ADDR_W" ↔
              Block.ceilLog2 p.layout.bytes = Block.ceilLog2 layout.bytes))) := by
  obtain ⟨b, parameters, hb, hchecked, hmap, hinstance, hparameters, hparameter⟩ :=
    exists_headers_of_generate_eq_ok h
  refine ⟨b, parameters, hb, hinstance, hparameters, hparameter, fun p hp => ?_⟩
  have hp' : p ∈ b.placements := by rwa [Build.placements, hmap]
  have hstated := hm.of_mem_placements hb p hp'
  have hmost := (hchecked.seated p hp').layout
  obtain ⟨layout, hdefault⟩ := hchecked.defaults p hp'
  obtain ⟨bits, logItems, hbits, -⟩ := Layout.of_eq_ok_iff.1 hdefault
  obtain ⟨bits', hbits', hpos, hitems, -⟩ := Layout.sizes_of_eq_ok hdefault
  have hwidth := hstated.width.writtenAs hbits' (by omega)
  have hdepth := hstated.logItems.writtenAs hitems (Int.natCast_nonneg _)
  obtain ⟨e, hsum⟩ := Header.exists_writtenAs_symbolicAddrWidth hdepth hmost
  refine ⟨layout, bits, hdefault, hbits, Header.agree_width_iff_comparison hwidth hdefault hbits,
    fun htight => Header.agree_width_of_tight htight hdefault hbits, fun harray harray' => ⟨?_,
      fun htight => Header.agree_addrWidth_iff_of_tight htight hmost hdefault hbits harray harray'⟩⟩
  rw [Header.agree_addrWidth_iff hdefault hbits harray harray', Header.hasValue_larger_one_iff hsum,
    Nat.cast_eq_one]

theorem stated_mixedModule : mixedModule.Stated := by
  have hname : (Form.expr 13 (.name "W")).WrittenAs "W".toList := Expr.writtenAs_letter (by decide)
  have hwidth : Formula.Stated ⟨"W", .name "W"⟩ :=
    Formula.stated_of_writtenAs (hname.looser (by decide)) (by decide)
  intro r hr
  simp only [mixedModule, Group.flatten_cons, Group.flatten_nil, List.append_nil, List.mem_cons,
    List.not_mem_nil, or_false] at hr
  rcases hr with rfl | rfl | rfl | rfl
  · exact ⟨hwidth, Formula.stated_literal (by decide)⟩
  all_goals exact ⟨Formula.stated_literal (by decide), Formula.stated_literal (by decide)⟩

theorem generate_agree_iff_mixedModule :
    ∃ a b taps, generate mixedModule = .ok a ∧ Build.ofModule mixedModule = .ok b ∧
      a.map.placements[0]? = some taps ∧ taps.layout = ⟨4, 2, 4⟩ ∧
      Agree b taps "W" ∧ Agree b taps "ADDR_W" := by
  obtain ⟨a, b, taps, ha, hb, htaps, hlayout, hwidth, hdepth, hdefault⟩ :
      ∃ a b taps, generate mixedModule = .ok a ∧ Build.ofModule mixedModule = .ok b ∧
        a.map.placements[0]? = some taps ∧ taps.layout = ⟨4, 2, 4⟩ ∧
        taps.register.width = ⟨"W", .name "W"⟩ ∧ taps.register.logItems = .literal 2 ∧
        Layout.of taps.register b.env .value = .ok ⟨4, 2, 4⟩ :=
    ⟨_, _, _, rfl, rfl, rfl, rfl, rfl, rfl, rfl⟩
  obtain ⟨b', -, hb', -, -, -, hagree⟩ := generate_agree_iff stated_mixedModule ha
  cases hb.symm.trans hb'
  obtain ⟨layout, bits, hlayout', -, -, hW, hADDR⟩ := hagree taps (List.mem_of_getElem? htaps)
  cases hdefault.symm.trans hlayout'
  refine ⟨a, b, taps, ha, hb, htaps, hlayout, hW ?_, ((hADDR ?_ ?_).2 ?_).2 ?_⟩
  · rw [Formula.Tight, hwidth]
    exact (Expr.writtenAs_letter (by decide)).looser (by decide)
  · rw [hlayout]
    decide
  · decide
  · rw [Formula.Tight, hdepth]
    exact (Expr.writtenAs_toString (n := 2) (by decide)).looser (by decide)
  · rw [hlayout]

/-- A module with an array whose items shrink with a parameter, an array with a shift as its depth,
and a register with a bitwise "and" as its width. -/
def bankModule : Module :=
  { name := "bank"
    version := { major := 1, minor := 0, patch := 0 }
    params :=
      [{ name := "W", fields := ⟨some (.literal 8), some (.literal 8), some (.literal 32)⟩ },
        { name := "N", fields := .constant (some (.literal 1)) },
        { name := "A", fields := .constant (some (.literal 2)) }]
    groups :=
      [⟨"main", "",
        [{ name := "taps", access := .read, width := ⟨"W", .name "W"⟩, logItems := .literal 2 },
          { name := "rows", access := .read, width := .literal 32
            logItems := ⟨"1 << N", .binary .shiftLeft (.number 1) (.name "N")⟩ },
          { name := "flags", access := .read
            width := ⟨"A & 2", .binary .bitAnd (.name "A") (.number 2)⟩ }]⟩] }

/-- The depth `1 << N` and what it reads as when it is pasted into a sum. -/
theorem writtenAs_shift_sum :
    (Form.expr 8 (.binary .shiftLeft (.number 1) (.name "N"))).WrittenAs "1 << N".toList ∧
    (Form.expr 8 (.binary .shiftLeft (.number 1) (.binary .add (.name "N") (.number 2)))).WrittenAs
      "1 << N+2".toList := by
  have hN : (Form.expr 13 (.name "N")).WrittenAs ['N'] := Expr.writtenAs_letter (by decide)
  have hone := Expr.writtenAs_toString (n := 1) (by decide)
  have htwo := Expr.writtenAs_toString (n := 2) (by decide)
  have hsum := hN.join .add (by decide) (by decide) (Expr.spaced_self _)
    (htwo.looser (by decide))
  constructor
  · exact hone.join .shiftLeft (by decide) (by decide) (Expr.spaced_between _)
      (hN.looser (by decide))
  · exact hone.join .shiftLeft (by decide) (by decide) (Expr.spaced_between _) hsum

theorem stated_bankModule : bankModule.Stated := by
  have hshift := writtenAs_shift_sum.1
  have hand := Verilog.writtenAs_and_comparison.1
  have hname : (Form.expr 13 (.name "W")).WrittenAs "W".toList := Expr.writtenAs_letter (by decide)
  intro r hr
  simp only [bankModule, Group.flatten_cons, Group.flatten_nil, List.append_nil, List.mem_cons,
    List.not_mem_nil, or_false] at hr
  rcases hr with rfl | rfl | rfl
  · exact ⟨Formula.stated_of_writtenAs (hname.looser (by decide)) (by decide),
      Formula.stated_literal (by decide)⟩
  · exact ⟨Formula.stated_literal (by decide),
      Formula.stated_of_writtenAs (hshift.looser (by decide)) (by decide)⟩
  · exact ⟨Formula.stated_of_writtenAs (hand.looser (by decide)) (by decide),
      Formula.stated_literal (by decide)⟩

/-- None of the three agrees. The text for the address width of `taps` is `4` and the number is 2.
That of `rows` is `((1 << N+2 > 1) ? 1 << N+2 : 1)`, which is 8 for a number of 4, and the one for
the width of `flags` is `((A & 2 > 1) ? A & 2 : 1)`, which is 1 for a number of 2. -/
theorem not_agree_bankModule :
    ∃ a b taps rows flags, bankModule.Stated ∧ generate bankModule = .ok a ∧
      Build.ofModule bankModule = .ok b ∧
      a.map.placements = [taps, rows, flags] ++ a.map.placements.drop 3 ∧
      ¬ Agree b taps "ADDR_W" ∧ ¬ Agree b rows "ADDR_W" ∧ ¬ Agree b flags "W" := by
  obtain ⟨a, b, taps, rows, flags, ha, hb, hplaced, ⟨hN, hA⟩, ⟨htext, htaps, htapsBits, hdeep⟩,
      ⟨htext', hrows, hrowsBits, hdeep'⟩, hsource, hflags, hflagsBits⟩ :
      ∃ a b taps rows flags, generate bankModule = .ok a ∧ Build.ofModule bankModule = .ok b ∧
        a.map.placements = [taps, rows, flags] ++ a.map.placements.drop 3 ∧
        (b.env.lookup .value "N" = .known 1 ∧ b.env.lookup .value "A" = .known 2) ∧
        (symbolicAddrWidth taps = "4" ∧ Layout.of taps.register b.env .value = .ok ⟨1, 2, 2⟩ ∧
          b.valueBits taps = .ok 8 ∧ taps.layout.logItems = 2) ∧
        (symbolicAddrWidth rows = "1 << N+2" ∧
          Layout.of rows.register b.env .value = .ok ⟨4, 2, 4⟩ ∧ b.valueBits rows = .ok 32 ∧
          rows.layout.logItems = 2) ∧
        flags.register.width = ⟨"A & 2", .binary .bitAnd (.name "A") (.number 2)⟩ ∧
        Layout.of flags.register b.env .value = .ok ⟨1, 0, 0⟩ ∧ b.valueBits flags = .ok 2 :=
    ⟨_, _, _, _, _, rfl, rfl, rfl, ⟨rfl, rfl⟩, ⟨rfl, rfl, rfl, rfl⟩, ⟨rfl, rfl, rfl, rfl⟩, rfl, rfl,
      rfl⟩
  obtain ⟨hand, hcomparison⟩ := Verilog.writtenAs_and_comparison
  have hshift := writtenAs_shift_sum.2
  refine ⟨a, b, taps, rows, flags, stated_bankModule, ha, hb, hplaced, ?_, ?_, ?_⟩
  · have hfour : (Form.expr 13 (.number 4)).WrittenAs "4".toList :=
      Expr.writtenAs_toString (n := 4) (by decide)
    rw [Header.agree_addrWidth_iff htaps htapsBits (by omega) (by decide), htext,
      Header.hasValue_larger_one_iff_of_tight (hfour.looser (by decide))
        ((Verilog.hasValue_iff hfour).2 rfl) (by decide)]
    decide
  · have heval : (Expr.binary .shiftLeft (.number 1) (.binary .add (.name "N") (.number 2))).eval
        (b.env.lookup .value) = .ok 8 := by
      have hsum : (Expr.binary .add (.name "N") (.number 2)).eval (b.env.lookup .value) = .ok 3 :=
        Expr.eval_binary_eq_ok_iff.2 ⟨1, 2, Expr.eval_name_eq_ok_iff.2 hN, rfl, rfl⟩
      exact Expr.eval_binary_eq_ok_iff.2 ⟨1, 3, rfl, hsum, rfl⟩
    rw [Header.agree_addrWidth_iff hrows hrowsBits (by omega) (by decide), htext',
      Header.hasValue_larger_one_iff_of_tight (hshift.looser (by decide))
        ((Verilog.hasValue_iff hshift).2 heval) (by decide)]
    decide
  · have hzero : HasValue (b.env.lookup .value) (comparison "A & 2" "1") 0 :=
      (Verilog.hasValue_iff hcomparison).2 (Expr.eval_binary_eq_ok_iff.2
        ⟨2, 1, Expr.eval_name_eq_ok_iff.2 hA, rfl, rfl⟩)
    have hwidth : (Form.expr 0 flags.register.width.tree).WrittenAs
        flags.register.width.source.toList := by
      rw [hsource]
      exact hand.looser (by decide)
    rw [Header.agree_width_iff_comparison hwidth hflags hflagsBits, hsource]
    exact fun h => absurd (h hzero) (by decide)

end Artifacts

end RegisterBank
