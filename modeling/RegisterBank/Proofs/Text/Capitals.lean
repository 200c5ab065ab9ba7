import RegisterBank.Proofs.Expr.Token.Name
import RegisterBank.Text.Case
import Mathlib.Data.String.Basic

/-!
# Identifiers in capitals

Names are compared with the case of ASCII letters ignored, and written in capitals by the mapping of
all of Unicode. For identifiers the two agree: they have the same capitals exactly if they are equal
but for the case of their letters (`capitals_eq_capitals_iff`).
-/

namespace RegisterBank.Text

variable {s t : String} {c d : Char}

/-- A letter or underscore followed by letters, digits and underscores, all of ASCII. -/
def IsIdentifier (s : String) : Prop :=
  Expr.IsName s.toList

instance : DecidablePred IsIdentifier := fun s =>
  match h : s.toList with
  | [] => isFalse fun ⟨_, _, hs, _⟩ => by simp [h] at hs
  | c :: cs => decidable_of_iff (Expr.isWordStart c = true ∧ cs.all Expr.isWordChar = true) <| by
      simp [IsIdentifier, Expr.IsName, h, and_assoc]

theorem toNat_toUpper (c : Char) :
    c.toUpper.toNat = if 97 ≤ c.toNat ∧ c.toNat ≤ 122 then c.toNat - 32 else c.toNat := by
  unfold Char.toUpper
  simp only [← Char.toNat_val, UInt32.le_iff_toNat_le, UInt32.reduceToNat, Char.reduceVal]
  split
  · rw [UInt32.toNat_add, UInt32.toNat_sub]
    simp only [UInt32.reduceToNat]
    omega
  · rfl

theorem toNat_toLower (c : Char) :
    c.toLower.toNat = if 65 ≤ c.toNat ∧ c.toNat ≤ 90 then c.toNat + 32 else c.toNat := by
  unfold Char.toLower
  simp only [← Char.toNat_val, UInt32.le_iff_toNat_le, UInt32.reduceToNat, Char.reduceVal]
  split
  · rw [UInt32.toNat_add, UInt32.toNat_sub]
    simp only [UInt32.reduceToNat]
    omega
  · rfl

theorem toUpper_eq_toUpper_iff : c.toUpper = d.toUpper ↔ c.toLower = d.toLower := by
  simp only [← Char.toNat_inj, toNat_toUpper, toNat_toLower]
  split <;> split <;> split <;> split <;> omega

/-- Letters are compared one by one in either case. -/
theorem map_toUpper_eq_iff {cs ds : List Char} :
    cs.map Char.toUpper = ds.map Char.toUpper ↔ cs.map Char.toLower = ds.map Char.toLower := by
  induction cs generalizing ds with
  | nil => cases ds <;> simp
  | cons c cs ih => cases ds <;> simp [toUpper_eq_toUpper_iff, ih]

theorem toNat_lt_of_isWordChar (h : Expr.isWordChar c = true) : c.toNat < 0x80 := by
  unfold Expr.isWordChar Char.isAlphanum Char.isAlpha Char.isUpper Char.isLower Char.isDigit at h
  simp only [UInt32.le_iff_toNat_le, ge_iff_le, Bool.or_eq_true, Bool.and_eq_true,
    decide_eq_true_eq, beq_iff_eq, Char.reduceVal, UInt32.reduceToNat, Char.toNat_val] at h
  rcases h with h | rfl
  · omega
  · decide

theorem IsIdentifier.toNat_lt (h : IsIdentifier s) : ∀ c ∈ s.toList, c.toNat < 0x80 :=
  fun c hc => toNat_lt_of_isWordChar (Expr.IsName.isWordChar h c hc)

/-- The capitals of ASCII characters are single characters. -/
theorem flatMap_capital {cs : List Char} (h : ∀ c ∈ cs, c.toNat < 0x80) :
    cs.flatMap capital = cs.map Char.toUpper := by
  induction cs with
  | nil => rfl
  | cons c cs ih =>
      rw [List.forall_mem_cons] at h
      simp [capital, h.1, ih h.2]

/-- Identifiers have the same capitals if they are equal but for the case of their letters. -/
theorem capitals_eq_capitals_iff (hs : IsIdentifier s) (ht : IsIdentifier t) :
    capitals s = capitals t ↔ asciiLower s = asciiLower t := by
  rw [capitals, capitals, flatMap_capital hs.toNat_lt, flatMap_capital ht.toNat_lt, asciiLower,
    asciiLower, String.ofList_inj, String.ofList_inj, map_toUpper_eq_iff]

theorem capitals_append (s t : String) : capitals (s ++ t) = capitals s ++ capitals t := by
  simp [capitals]

theorem IsIdentifier.all_isWordChar (h : IsIdentifier s) : s.toList.all Expr.isWordChar = true :=
  List.all_eq_true.2 (Expr.IsName.isWordChar h)

theorem IsIdentifier.append (hs : IsIdentifier s) (ht : t.toList.all Expr.isWordChar = true) :
    IsIdentifier (s ++ t) := by
  obtain ⟨c, rest, hname, hstart, hrest⟩ := hs
  refine ⟨c, rest ++ t.toList, ?_, hstart, ?_⟩
  · rw [String.toList_append, hname, List.cons_append]
  · rw [List.forall_mem_append]
    exact ⟨hrest, List.all_eq_true.1 ht⟩

theorem isWordStart_toUpper (h : Expr.isWordStart c = true) :
    Expr.isWordStart c.toUpper = true := by
  unfold Expr.isWordStart Char.isAlpha Char.isUpper Char.isLower at h ⊢
  simp only [UInt32.le_iff_toNat_le, ge_iff_le, Bool.or_eq_true, Bool.and_eq_true,
    decide_eq_true_eq, beq_iff_eq, Char.reduceVal, UInt32.reduceToNat, Char.toNat_val,
    ← Char.toNat_inj, Char.reduceToNat, toNat_toUpper] at h ⊢
  split <;> omega

theorem isWordChar_toUpper (h : Expr.isWordChar c = true) : Expr.isWordChar c.toUpper = true := by
  unfold Expr.isWordChar Char.isAlphanum Char.isAlpha Char.isUpper Char.isLower Char.isDigit at h ⊢
  simp only [UInt32.le_iff_toNat_le, ge_iff_le, Bool.or_eq_true, Bool.and_eq_true,
    decide_eq_true_eq, beq_iff_eq, Char.reduceVal, UInt32.reduceToNat, Char.toNat_val,
    ← Char.toNat_inj, Char.reduceToNat, toNat_toUpper] at h ⊢
  split <;> omega

/-- An identifier in capitals is one. -/
theorem IsIdentifier.capitals (h : IsIdentifier s) : IsIdentifier (capitals s) := by
  have hcapitals : (Text.capitals s).toList = s.toList.map Char.toUpper := by
    rw [Text.capitals, String.toList_ofList, flatMap_capital h.toNat_lt]
  obtain ⟨c, rest, hname, hstart, hrest⟩ := h
  rw [hname, List.map_cons] at hcapitals
  refine ⟨_, _, hcapitals, isWordStart_toUpper hstart, ?_⟩
  rw [List.forall_mem_map]
  exact fun d hd => isWordChar_toUpper (hrest d hd)

/-! ## Line feeds -/

theorem eq_of_ofNat_eq_newline {n : Nat} (h : Char.ofNat n = '\n') : n = 10 := by
  by_cases hn : n.isValidChar
  · have hcode : (Char.ofNat n).toNat = n := by
      rw [Char.ofNat, dif_pos hn]
      rfl
    exact hcode.symm.trans (congrArg Char.toNat h)
  · rw [Char.ofNat, dif_neg hn] at h
    exact absurd h (by decide)

theorem toUpper_ne_newline (hc : c ≠ '\n') : c.toUpper ≠ '\n' := by
  have hfeed : '\n'.toNat = 10 := rfl
  rw [ne_eq, ← Char.toNat_inj, hfeed] at hc ⊢
  rw [toNat_toUpper]
  split <;> omega

/-- Only a line feed has a line feed in its capital form. -/
theorem newline_not_mem_capital (hc : c ≠ '\n') : '\n' ∉ capital c := by
  have hexpansions : ∀ e ∈ capitalExpansions, 10 ∉ e.2 := by decide
  have hruns : ∀ run ∈ capitalRuns, 10 < (run.first : Int) + run.shift := by decide +kernel
  simp only [capital]
  split
  · rw [List.mem_singleton]
    exact (toUpper_ne_newline hc).symm
  · split
    · rename_i codes hlookup
      obtain ⟨before, after, hsplit, -⟩ := List.lookup_eq_some_iff.1 hlookup
      rw [List.mem_map]
      rintro ⟨code, hcode, hfeed⟩
      refine hexpansions (c.toNat, codes) ?_ (eq_of_ofNat_eq_newline hfeed ▸ hcode)
      rw [hsplit]
      exact List.mem_append_right before List.mem_cons_self
    · split
      · rename_i run hrun
        have hshift := hruns run (List.mem_of_find?_eq_some hrun)
        have hholds := List.find?_some hrun
        simp only [CapitalRun.holds, Bool.and_eq_true, decide_eq_true_eq] at hholds
        rw [List.mem_singleton]
        intro hfeed
        have hcode := eq_of_ofNat_eq_newline hfeed.symm
        omega
      · rw [List.mem_singleton]
        exact hc.symm

end RegisterBank.Text
