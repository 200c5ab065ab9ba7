import RegisterBank.Proofs.Build
import RegisterBank.Proofs.Expr.Formula
import RegisterBank.Proofs.Expr.Growing
import RegisterBank.Proofs.Hardware.Element

/-!
# The reserved space and the default configuration

Space is reserved by the layouts of the registers at the greatest parameter values, and the software
is told their sizes at the default values. The defaults have room in the reserved space exactly
where an item needs no more whole bytes, and the array no more items, than at the greatest values
(`Layout.accommodates_iff`). Nothing compares the two: a width that shrinks as a parameter grows has
less space than its default needs. Widths and depths that grow with the parameters always have room
(`Layout.accommodates_of_growing`).
-/

namespace RegisterBank

namespace Layout

variable {r : Register} {env : Environment} {mode mode' : Mode} {used layout : Layout}

/-- The register has a width, a depth and a layout in the mode, and all of them stay within a given
layout. -/
def Accommodates (layout : Layout) (r : Register) (env : Environment) (mode : Mode) : Prop :=
  ∃ bits logItems used,
    r.width.eval env mode = .ok bits ∧ r.logItems.evalCount env mode = .ok logItems ∧
      Layout.of r env mode = .ok used ∧
      bits ≤ 8 * layout.bytes ∧ logItems ≤ layout.logItems ∧ used.span ≤ layout.span

theorem wholeBytes_mono {m n : Nat} (h : m ≤ n) : wholeBytes m ≤ wholeBytes n := by
  unfold wholeBytes
  split <;> split <;> omega

/-- Whole bytes hold so many bits where they are at least as many bytes as these bits take. -/
theorem le_wholeBytes_iff {m n : Nat} :
    m ≤ 8 * wholeBytes n ↔ wholeBytes m ≤ wholeBytes n := by
  unfold wholeBytes
  split <;> split <;> omega

/-- A register has room in the layout of another mode exactly if its items are no wider there and no
more of them. -/
theorem accommodates_iff (hused : Layout.of r env mode = .ok used)
    (hlayout : Layout.of r env mode' = .ok layout) :
    layout.Accommodates r env mode ↔
      used.bytes ≤ layout.bytes ∧ used.logItems ≤ layout.logItems := by
  obtain ⟨bits, logItems, hbits, hpositive, hitems, -, -, rfl, -⟩ := of_eq_ok_iff.1 hused
  obtain ⟨most, deepest, -, -, -, -, -, rfl, -⟩ := of_eq_ok_iff.1 hlayout
  have hwhole : bits ≤ 8 * wholeBytes most.toNat ↔
      wholeBytes bits.toNat ≤ wholeBytes most.toNat := by
    rw [← le_wholeBytes_iff]
    omega
  constructor
  · rintro ⟨bits', logItems', used', hbits', hitems', -, hwidth, hdepth, -⟩
    cases hbits.symm.trans hbits'
    cases hitems.symm.trans hitems'
    exact ⟨hwhole.1 hwidth, hdepth⟩
  · rintro ⟨hwidth, hdepth⟩
    refine ⟨bits, logItems, _, hbits, hitems, hused, hwhole.2 hwidth, hdepth, ?_⟩
    rw [span_eq, span_eq]
    exact Nat.pow_le_pow_right (by decide) (Nat.add_le_add hdepth (Block.ceilLog2_mono hwidth))

/-- A register whose width and depth grow with the parameters has room in the layout of greater
parameter values. -/
theorem accommodates_of_growing (hscope : Expr.ScopeBelow (env.lookup mode) (env.lookup mode'))
    (hwidth : r.width.tree.Growing) (hdepth : r.logItems.tree.Growing)
    (hused : Layout.of r env mode = .ok used) (hlayout : Layout.of r env mode' = .ok layout) :
    layout.Accommodates r env mode := by
  rw [accommodates_iff hused hlayout]
  obtain ⟨bits, logItems, hbits, -, hitems, -, -, rfl, -⟩ := of_eq_ok_iff.1 hused
  obtain ⟨most, deepest, hmost, -, hdeepest, -, -, rfl, -⟩ := of_eq_ok_iff.1 hlayout
  rw [Formula.eval_eq_ok_iff] at hbits hmost
  rw [Formula.evalCount_eq_ok_iff, Formula.eval_eq_ok_iff] at hitems hdeepest
  obtain ⟨-, hbelow⟩ := Expr.eval_mono hscope hwidth hbits hmost
  obtain ⟨-, hshallow⟩ := Expr.eval_mono hscope hdepth hitems hdeepest
  exact ⟨wholeBytes_mono (Int.toNat_le_toNat hbelow), Int.ofNat_le.1 hshallow⟩

end Layout

namespace Artifacts

open Hardware (mixedModule)

variable {m : Module} {a : Artifacts} {p : Placement}

/-- The default configuration of a register has room in its reserved space exactly if its items need
no more whole bytes, and the array no more items, than at the greatest parameter values. That is so
where the parameters are natural numbers, none of them has a default above its greatest value, and
the width and the depth of the register grow with them. -/
theorem generate_accommodates_iff (h : generate m = .ok a) (hp : p ∈ a.map.placements) :
    ∃ env used, Environment.resolve m.params = .ok env ∧
      Layout.of p.register env .max = .ok p.layout ∧ Layout.of p.register env .value = .ok used ∧
      (p.layout.Accommodates p.register env .value ↔
        used.bytes ≤ p.layout.bytes ∧ used.logItems ≤ p.layout.logItems) ∧
      (Expr.ScopeBelow (env.lookup .value) (env.lookup .max) →
        p.register.width.tree.Growing → p.register.logItems.tree.Growing →
          p.layout.Accommodates p.register env .value) := by
  obtain ⟨b, hb, rfl, hmap, -⟩ := exists_checked_of_generate_eq_ok h
  rw [← hmap] at hp
  obtain ⟨used, hused⟩ := hb.defaults p hp
  have hlayout := (hb.seated p hp).layout
  exact ⟨b.env, used, hb.resolved, hlayout, hused, Layout.accommodates_iff hused hlayout,
    fun hscope hwidth hdepth =>
      Layout.accommodates_of_growing hscope hwidth hdepth hused hlayout⟩

/-- The default width of 20 bits has room in the four bytes that are reserved for 24. -/
theorem generate_accommodates_iff_mixedModule :
    ∃ a taps env, generate mixedModule = .ok a ∧ a.map.placements[0]? = some taps ∧
      Environment.resolve mixedModule.params = .ok env ∧
      taps.register.width.eval env .value = .ok 20 ∧ taps.register.width.eval env .max = .ok 24 ∧
      taps.layout = ⟨4, 2, 4⟩ ∧ taps.layout.Accommodates taps.register env .value := by
  obtain ⟨a, taps, env, ha, htaps, henv, hvalue, hmax, hlayout, hdefault⟩ :
      ∃ a taps env, generate mixedModule = .ok a ∧ a.map.placements[0]? = some taps ∧
        Environment.resolve mixedModule.params = .ok env ∧
        taps.register.width.eval env .value = .ok 20 ∧
        taps.register.width.eval env .max = .ok 24 ∧ taps.layout = ⟨4, 2, 4⟩ ∧
        Layout.of taps.register env .value = .ok ⟨4, 2, 4⟩ :=
    ⟨_, _, _, rfl, rfl, rfl, rfl, rfl, rfl, rfl⟩
  obtain ⟨env', used, henv', -, hused, hiff, -⟩ :=
    generate_accommodates_iff ha (List.mem_of_getElem? htaps)
  cases henv.symm.trans henv'
  cases hdefault.symm.trans hused
  refine ⟨a, taps, env, ha, htaps, henv, hvalue, hmax, hlayout, hiff.2 ?_⟩
  rw [hlayout]
  exact ⟨le_refl _, le_refl _⟩

/-- A module with a register that shrinks as the parameter grows. -/
def spareModule : Module :=
  { name := "spare"
    version := { major := 1, minor := 0, patch := 0 }
    params :=
      [{ name := "W", fields := ⟨some (.literal 8), some (.literal 8), some (.literal 32)⟩ }]
    groups :=
      [⟨"main", "",
        [{ name := "rest", access := .write
           width := ⟨"40 - W", .binary .subtract (.number 40) (.name "W")⟩ }]⟩] }

/-- The register has 32 bits by default, and one byte is reserved for it. -/
theorem not_forall_accommodates :
    ¬ ∀ m a env, generate m = .ok a → Environment.resolve m.params = .ok env →
      ∀ p ∈ a.map.placements, p.layout.Accommodates p.register env .value := by
  intro hall
  obtain ⟨a, rest, env, ha, hrest, henv, hwidth, hbytes⟩ :
      ∃ a rest env, generate spareModule = .ok a ∧ a.map.placements[0]? = some rest ∧
        Environment.resolve spareModule.params = .ok env ∧
        rest.register.width.eval env .value = .ok 32 ∧ rest.layout.bytes = 1 :=
    ⟨_, _, _, rfl, rfl, rfl, rfl, rfl⟩
  obtain ⟨bits, -, -, hbits, -, -, hfits, -⟩ :=
    hall _ _ _ ha henv rest (List.mem_of_getElem? hrest)
  cases hwidth.symm.trans hbits
  rw [hbytes] at hfits
  exact absurd hfits (by decide)

end Artifacts

end RegisterBank
