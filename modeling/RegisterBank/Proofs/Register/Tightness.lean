import Mathlib.Algebra.Order.Floor.Div
import RegisterBank.Proofs.Expr.Formula
import RegisterBank.Proofs.Register.Layout

/-!
# Layouts take the least space

The width of a span is computed as a sum of logarithms and stands for a product of sizes. It is the
logarithm of that product, because a factor that is a power of two can be taken out of a rounded-up
logarithm (`clog_mul_two_pow`). So the span is the least power of two that holds all items, and less
than half of it is left over (`Tight`). Where a register has no layout, one of a few reasons applies
(`Unfit`).
-/

namespace RegisterBank.Layout

variable {layout : Layout} {r : Register} {env : Environment} {mode : Mode}

/-! ## Rounded-up logarithms -/

theorem clog_mul_two_pow {n : Nat} (hn : 0 < n) (k : Nat) :
    Nat.clog 2 (n * 2 ^ k) = k + Nat.clog 2 n := by
  have hpos : 0 < 2 ^ k := Nat.two_pow_pos k
  apply Nat.le_antisymm
  · rw [Nat.clog_le_iff_le_pow (by decide), Nat.pow_add, Nat.mul_comm]
    exact Nat.mul_le_mul_left _ (Nat.le_pow_clog (by decide) n)
  · have hle : n * 2 ^ k ≤ 2 ^ Nat.clog 2 (n * 2 ^ k) := Nat.le_pow_clog (by decide) _
    have hk : k ≤ Nat.clog 2 (n * 2 ^ k) := by
      rw [← Nat.pow_le_pow_iff_right (a := 2) (by decide)]
      exact (Nat.le_mul_of_pos_left _ hn).trans hle
    obtain ⟨j, hj⟩ := Nat.exists_eq_add_of_le hk
    rw [hj, Nat.pow_add, Nat.mul_comm] at hle
    rw [hj, Nat.add_le_add_iff_left, Nat.clog_le_iff_le_pow (by decide)]
    exact Nat.le_of_mul_le_mul_left hle hpos

theorem isLeast_two_pow_clog (n : Nat) :
    IsLeast {m | (∃ k, m = 2 ^ k) ∧ n ≤ m} (2 ^ Nat.clog 2 n) := by
  refine ⟨⟨⟨_, rfl⟩, Nat.le_pow_clog (by decide) n⟩, ?_⟩
  rintro m ⟨⟨k, rfl⟩, hle⟩
  exact Nat.pow_le_pow_right (by decide) ((Nat.clog_le_iff_le_pow (by decide)).2 hle)

theorem two_pow_clog_lt {n : Nat} (hn : 0 < n) : 2 ^ Nat.clog 2 n < 2 * n := by
  rcases Nat.lt_or_eq_of_le (Nat.succ_le_of_lt hn) with hlt | rfl
  · have hbelow : 2 ^ (Nat.clog 2 n).pred < n := Nat.pow_pred_clog_lt_self (by decide) hlt
    have hpos : 0 < Nat.clog 2 n := Nat.clog_pos (by decide) hlt
    obtain ⟨k, hk⟩ := Nat.exists_eq_succ_of_ne_zero hpos.ne'
    rw [hk, Nat.pred_succ] at hbelow
    rw [hk, Nat.pow_succ]
    omega
  · decide

/-! ## Layouts -/

/-- The bytes of an item of so many bits. -/
def paddedBytes (bits : Nat) : Nat :=
  if bits ⌈/⌉ 8 = 3 then 4 else bits ⌈/⌉ 8

theorem wholeBytes_eq (bits : Nat) : wholeBytes bits = paddedBytes bits := by
  rw [wholeBytes, paddedBytes, Nat.ceilDiv_eq_add_pred_div]
  rfl

theorem paddedBytes_pos {bits : Nat} (h : 1 ≤ bits) : 0 < paddedBytes bits := by
  rw [← wholeBytes_eq, wholeBytes]
  split
  · decide
  · omega

/-- The layout holds items of so many bits and takes no more space than they need. -/
structure Tight (layout : Layout) (bits : Nat) : Prop where
  bytes : layout.bytes = paddedBytes bits
  span : IsLeast {n | (∃ k, n = 2 ^ k) ∧ layout.bytes * 2 ^ layout.logItems ≤ n}
    (2 ^ layout.addrWidth)
  waste : 2 ^ layout.addrWidth < 2 * (layout.bytes * 2 ^ layout.logItems)

/-- The layout keeps the limits of arrays, of arrays that are instantiated, and of address
spaces. -/
structure Bounded (layout : Layout) (auto : Bool) : Prop where
  depth : layout.logItems ≤ 32
  instantiated : auto = true → layout.logItems ≤ 10
  span : layout.addrWidth ≤ 32

theorem addrWidth_ofSizes {bytes : Nat} (h : 0 < bytes) (logItems : Nat) :
    (ofSizes bytes logItems).addrWidth = Nat.clog 2 (bytes * 2 ^ logItems) := by
  rw [clog_mul_two_pow h, ofSizes, Block.ceilLog2_eq]

theorem tight_ofSizes {bits : Nat} (h : 1 ≤ bits) (logItems : Nat) :
    (ofSizes (wholeBytes bits) logItems).Tight bits := by
  have hpos : 0 < wholeBytes bits := wholeBytes_eq bits ▸ paddedBytes_pos h
  have hwidth := addrWidth_ofSizes hpos logItems
  exact
    { bytes := wholeBytes_eq bits
      span := by
        rw [hwidth]
        exact isLeast_two_pow_clog _
      waste := by
        rw [hwidth]
        exact two_pow_clog_lt (Nat.mul_pos hpos (Nat.two_pow_pos logItems)) }

/-- The number of items and the width of an item leave no choice. -/
theorem Tight.eq_ofSizes {bits : Nat} (h : layout.Tight bits) (hbits : 1 ≤ bits) :
    layout = ofSizes (wholeBytes bits) layout.logItems := by
  have hother := tight_ofSizes hbits layout.logItems
  have hbytes : layout.bytes = wholeBytes bits := h.bytes.trans (wholeBytes_eq bits).symm
  have hspan := h.span
  rw [hbytes] at hspan
  have hwidth : layout.addrWidth = (ofSizes (wholeBytes bits) layout.logItems).addrWidth :=
    Nat.pow_right_injective le_rfl (hspan.unique hother.span)
  cases layout
  rw [ofSizes, mk.injEq]
  exact ⟨hbytes, rfl, hwidth⟩

/-- A register has exactly the tight layout of its sizes, when this keeps the limits. -/
theorem of_eq_ok_iff_tight :
    Layout.of r env mode = .ok layout ↔ ∃ bits : Nat, 1 ≤ bits ∧
      r.width.eval env mode = .ok (bits : Int) ∧
      r.logItems.eval env mode = .ok (layout.logItems : Int) ∧ layout.Tight bits ∧
      layout.Bounded r.auto := by
  rw [of_eq_ok_iff]
  constructor
  · rintro ⟨bits, logItems, hbits, hpositive, hitems, hdepth, hinstantiated, rfl, hspan⟩
    have hnat : (bits.toNat : Int) = bits := Int.toNat_of_nonneg (by omega)
    refine ⟨bits.toNat, by omega, hnat.symm ▸ hbits, Formula.evalCount_eq_ok_iff.1 hitems, ?_, ?_⟩
    · exact tight_ofSizes (by omega) logItems
    · exact ⟨hdepth, hinstantiated, hspan⟩
  · rintro ⟨bits, hpositive, hbits, hitems, htight, hbounded⟩
    refine ⟨bits, layout.logItems, hbits, by omega, Formula.evalCount_eq_ok_iff.2 hitems,
      hbounded.depth, hbounded.instantiated, ?_, hbounded.span⟩
    exact htight.eq_ofSizes hpositive

/-! ## Registers without a layout -/

/-- The reasons for which a register has no layout. -/
inductive Unfit (r : Register) (env : Environment) (mode : Mode) : Prop where
  | width {e : Error} : r.width.eval env mode = .error e → Unfit r env mode
  | depth {e : Error} : r.logItems.eval env mode = .error e → Unfit r env mode
  | noBits {bits : Int} : r.width.eval env mode = .ok bits → bits < 1 → Unfit r env mode
  | negative {n : Int} : r.logItems.eval env mode = .ok n → n < 0 → Unfit r env mode
  | deep {n : Int} : r.logItems.eval env mode = .ok n → 32 < n → Unfit r env mode
  | instantiated {n : Int} :
      r.auto = true → r.logItems.eval env mode = .ok n → 10 < n → Unfit r env mode
  | span {bits n : Nat} :
      r.width.eval env mode = .ok (bits : Int) → r.logItems.eval env mode = .ok (n : Int) →
        2 ^ 32 < paddedBytes bits * 2 ^ n → Unfit r env mode

theorem Unfit.not_ok (h : Unfit r env mode) : Layout.of r env mode ≠ .ok layout := by
  intro hlayout
  obtain ⟨bits, hpositive, hbits, hitems, htight, hbounded⟩ := of_eq_ok_iff_tight.1 hlayout
  cases h with
  | width hwidth => cases hwidth.symm.trans hbits
  | depth hdepth => cases hdepth.symm.trans hitems
  | noBits hwidth hlt =>
      cases hwidth.symm.trans hbits
      omega
  | negative hdepth hlt =>
      cases hdepth.symm.trans hitems
      omega
  | deep hdepth hlt =>
      cases hdepth.symm.trans hitems
      have hle := hbounded.depth
      omega
  | instantiated hauto hdepth hlt =>
      cases hdepth.symm.trans hitems
      have hle := hbounded.instantiated hauto
      omega
  | span hwidth hdepth hlt =>
      obtain rfl := Int.ofNat_inj.1 (Except.ok.inj (hwidth.symm.trans hbits))
      obtain rfl := Int.ofNat_inj.1 (Except.ok.inj (hdepth.symm.trans hitems))
      have hholds := htight.span.1.2
      rw [htight.bytes] at hholds
      have hspan : 2 ^ layout.addrWidth ≤ 2 ^ 32 := Nat.pow_le_pow_right (by decide) hbounded.span
      omega

theorem exists_of_not_unfit (h : ¬ Unfit r env mode) :
    ∃ layout, Layout.of r env mode = .ok layout := by
  cases hwidth : r.width.eval env mode with
  | error e => exact absurd (.width hwidth) h
  | ok bits =>
      cases hdepth : r.logItems.eval env mode with
      | error e => exact absurd (.depth hdepth) h
      | ok n =>
          have hbits : 1 ≤ bits := not_lt.1 fun hlt => h (.noBits hwidth hlt)
          have hn : 0 ≤ n := not_lt.1 fun hlt => h (.negative hdepth hlt)
          obtain ⟨bits, rfl⟩ := Int.eq_ofNat_of_zero_le (zero_le_one.trans hbits)
          obtain ⟨n, rfl⟩ := Int.eq_ofNat_of_zero_le hn
          have hpositive : 1 ≤ bits := by omega
          have hspan : paddedBytes bits * 2 ^ n ≤ 2 ^ 32 :=
            not_lt.1 fun hlt => h (.span hwidth hdepth hlt)
          refine ⟨ofSizes (wholeBytes bits) n, of_eq_ok_iff_tight.2
            ⟨bits, hpositive, hwidth, hdepth, tight_ofSizes hpositive n, ?_, ?_, ?_⟩⟩
          · have hdeep := not_lt.1 fun hlt => h (.deep hdepth hlt)
            change n ≤ 32
            omega
          · intro hauto
            have hlimit := not_lt.1 fun hlt => h (.instantiated hauto hdepth hlt)
            change n ≤ 10
            omega
          · rw [addrWidth_ofSizes (wholeBytes_eq bits ▸ paddedBytes_pos hpositive), wholeBytes_eq,
              Nat.clog_le_iff_le_pow (by decide)]
            exact hspan

/-- A register has a layout exactly where no reason speaks against one. Its layout is that of its
sizes: whole bytes, the least span that holds all items with less than half of it left over, and all
limits kept. -/
theorem of_tight_bounded (r : Register) (env : Environment) (mode : Mode) :
    (∀ layout, Layout.of r env mode = .ok layout ↔ ∃ bits : Nat, 1 ≤ bits ∧
      r.width.eval env mode = .ok (bits : Int) ∧
      r.logItems.eval env mode = .ok (layout.logItems : Int) ∧ layout.Tight bits ∧
      layout.Bounded r.auto) ∧
    ((∃ e, Layout.of r env mode = .error e) ↔ Unfit r env mode) := by
  refine ⟨fun layout => of_eq_ok_iff_tight, ?_⟩
  constructor
  · rintro ⟨e, he⟩
    by_contra hfit
    obtain ⟨layout, hlayout⟩ := exists_of_not_unfit hfit
    cases he.symm.trans hlayout
  · intro hunfit
    cases hlayout : Layout.of r env mode with
    | error e => exact ⟨e, rfl⟩
    | ok layout => exact absurd hlayout hunfit.not_ok

end RegisterBank.Layout
