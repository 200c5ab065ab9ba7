import RegisterBank.Proofs.Build
import RegisterBank.Proofs.Module.Registers
import RegisterBank.Proofs.Text.Capitals

/-!
# Modules named by identifiers

Where the name of a module and those of its registers are identifiers, so are the names that are
made of them in capitals, and no two registers have the same name in capitals.
-/

namespace RegisterBank

open Text (IsIdentifier)

variable {b : Build} {p : Placement}

theorem isIdentifier_versionName : IsIdentifier versionName := by
  decide

namespace Build

/-- The registers that are added to the declared ones are named by identifiers. -/
theorem isIdentifier_of_ofModule_eq_ok {m : Module}
    (hnames : ∀ r ∈ Group.flatten m.groups, IsIdentifier r.name) (h : Build.ofModule m = .ok b) :
    ∀ p ∈ b.placements, IsIdentifier p.register.name :=
  forall_mem_placements hnames (by decide) (fun _ => isIdentifier_versionName) (fun _ _ hr => hr) h

/-- Registers whose names are identifiers have different names in capitals, too. -/
theorem Checked.pairwise_macroName_ne (hb : b.Checked)
    (hnames : ∀ p ∈ b.placements, IsIdentifier p.register.name) :
    b.placements.Pairwise fun p q => p.macroName ≠ q.macroName := by
  refine hb.names.imp_of_mem ?_
  intro p q hp hq hne heq
  exact hne ((Text.capitals_eq_capitals_iff (hnames p hp) (hnames q hq)).1 heq)

/-- The module and its registers are named by identifiers. -/
structure Named (b : Build) : Prop where
  top : IsIdentifier b.top
  registers : ∀ p ∈ b.placements, IsIdentifier p.register.name

namespace Named

variable (hb : b.Named)

include hb

theorem stem : IsIdentifier b.stem :=
  hb.top.capitals.append (by decide)

theorem macroName (hp : p ∈ b.placements) : IsIdentifier p.macroName :=
  (hb.registers p hp).capitals

end Named

end Build

end RegisterBank
