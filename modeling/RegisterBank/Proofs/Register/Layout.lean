import RegisterBank.Proofs.Arithmetic.Block
import RegisterBank.Proofs.Failure
import RegisterBank.Register.Layout

/-!
# The space of a register

`of_eq_ok_iff` says when a register has a layout and which one it is. A layout is packed when the
bytes of an item are a power of two; then the items fill the span one after the other.
-/

namespace RegisterBank.Layout

variable {layout : Layout} {r : Register} {env : Environment} {mode : Mode}

theorem span_eq (layout : Layout) : layout.span = 2 ^ layout.addrWidth :=
  Nat.one_shiftLeft _

theorem items_eq (layout : Layout) : layout.items = 2 ^ layout.logItems :=
  Nat.one_shiftLeft _

theorem span_pos (layout : Layout) : 0 < layout.span := by
  rw [span_eq]
  exact Nat.two_pow_pos _

theorem items_pos (layout : Layout) : 0 < layout.items := by
  rw [items_eq]
  exact Nat.two_pow_pos _

/-- When a register has a layout, and which one. -/
theorem of_eq_ok_iff :
    Layout.of r env mode = .ok layout ↔
      ∃ bits logItems,
        r.width.eval env mode = .ok bits ∧ 1 ≤ bits ∧
        r.logItems.evalCount env mode = .ok logItems ∧ logItems ≤ depthLimit ∧
        (r.auto = true → logItems ≤ instantiatedLimit) ∧
        layout = ofSizes (wholeBytes bits.toNat) logItems ∧ layout.addrWidth ≤ addrLimit := by
  simp only [Layout.of, bind_eq_ok_iff, ite_error_eq_ok_iff, Except.ok.injEq]
  constructor
  · rintro ⟨bits, hbits, hpositive, logItems, hitems, hdepth, hinstantiated, hspan, rfl⟩
    refine ⟨bits, logItems, hbits, by omega, hitems, by omega, ?_, rfl, by omega⟩
    intro hauto
    exact not_lt.1 fun hlimit => hinstantiated ⟨hauto, hlimit⟩
  · rintro ⟨bits, logItems, hbits, hpositive, hitems, hdepth, hinstantiated, rfl, hspan⟩
    refine ⟨bits, hbits, by omega, logItems, hitems, by omega, ?_, by omega, rfl⟩
    rintro ⟨hauto, hlimit⟩
    exact absurd (hinstantiated hauto) (not_le.2 hlimit)

/-- The items are a power of two bytes wide, and the span is the least that they can take. -/
def Packed (layout : Layout) : Prop :=
  ∃ k, layout.bytes = 2 ^ k ∧ layout.addrWidth = layout.logItems + k

theorem packed_of_bytes_eq {k : Nat} (h : Layout.of r env mode = .ok layout)
    (hbytes : layout.bytes = 2 ^ k) : layout.Packed := by
  obtain ⟨bits, logItems, -, -, -, -, -, rfl, -⟩ := of_eq_ok_iff.1 h
  refine ⟨k, hbytes, ?_⟩
  change logItems + Block.ceilLog2 (wholeBytes bits.toNat) = logItems + k
  rw [show wholeBytes bits.toNat = 2 ^ k from hbytes, Block.ceilLog2_two_pow]

namespace Packed

theorem span_eq_items_mul_bytes (h : layout.Packed) :
    layout.span = layout.items * layout.bytes := by
  obtain ⟨k, hbytes, hwidth⟩ := h
  rw [span_eq, items_eq, hwidth, hbytes, Nat.pow_add]

theorem bytes_pos (h : layout.Packed) : 0 < layout.bytes := by
  obtain ⟨k, hbytes, -⟩ := h
  rw [hbytes]
  exact Nat.two_pow_pos k

theorem bytes_dvd_span (h : layout.Packed) : layout.bytes ∣ layout.span := by
  rw [h.span_eq_items_mul_bytes]
  exact Nat.dvd_mul_left _ _

end Packed

end RegisterBank.Layout
