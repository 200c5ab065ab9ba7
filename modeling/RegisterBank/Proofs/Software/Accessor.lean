import RegisterBank.Proofs.Failure
import RegisterBank.Proofs.Register.Layout
import RegisterBank.Software.Accessor

/-!
# Registers that software can reach

A register has accessors when a word type has exactly the bytes of its items. All word types are a
power of two bytes wide.
-/

namespace RegisterBank.Software

variable {p : Placement} {ps : List Placement} {found : List Accessor}

namespace WordType

theorem ofBytes?_eq_some_iff {n : Nat} {type : WordType} :
    ofBytes? n = some type ↔ type.bytes = n := by
  constructor
  · intro h
    simpa using List.find?_some h
  · rintro rfl
    cases type <;> rfl

theorem exists_bytes_eq_two_pow (type : WordType) : ∃ k ≤ 3, type.bytes = 2 ^ k := by
  cases type with
  | byte => exact ⟨0, by decide, rfl⟩
  | half => exact ⟨1, by decide, rfl⟩
  | word => exact ⟨2, by decide, rfl⟩
  | double => exact ⟨3, by decide, rfl⟩

end WordType

theorem accessor_eq_ok_iff {a : Accessor} :
    accessor p = .ok a ↔ ∃ type : WordType, type.bytes = p.layout.bytes ∧ a = ⟨p, type⟩ := by
  unfold accessor
  split
  · rename_i type htype
    rw [WordType.ofBytes?_eq_some_iff] at htype
    constructor
    · intro h
      cases h
      exact ⟨type, htype, rfl⟩
    · rintro ⟨other, hother, rfl⟩
      rw [← WordType.ofBytes?_eq_some_iff] at htype hother
      rw [Option.some.inj (htype.symm.trans hother)]
  · rename_i hnone
    constructor
    · intro h
      cases h
    · rintro ⟨type, htype, rfl⟩
      rw [WordType.ofBytes?_eq_some_iff.2 htype] at hnone
      cases hnone

/-- Where every register has accessors, every register has items of a power of two bytes. -/
theorem exists_bytes_eq_two_pow_of_accessors_eq_ok (h : accessors ps = .ok found) :
    ∀ p ∈ ps, ∃ k ≤ 3, p.layout.bytes = 2 ^ k := by
  induction ps generalizing found with
  | nil => simp
  | cons p ps ih =>
      simp only [accessors, bind_eq_ok_iff] at h
      obtain ⟨first, hfirst, others, hothers, -⟩ := h
      obtain ⟨type, htype, -⟩ := accessor_eq_ok_iff.1 hfirst
      rw [List.forall_mem_cons]
      refine ⟨?_, ih hothers⟩
      rw [← htype]
      exact type.exists_bytes_eq_two_pow

end RegisterBank.Software
