import Mathlib.Tactic.Basic
import RegisterBank.Parameter.Environment

/-!
# Looking names up

A change of one name in one mode is seen only under that name and, if the name was defined before,
only in that mode.
-/

namespace RegisterBank

/-- What a defined name with the given value stands for. -/
def Lookup.found : Option Int → Lookup
  | some v => .known v
  | none => .unavailable

namespace Environment

variable {env : Environment} {mode other : Mode} {name text : String} {value : Option Int}

theorem found_eq_known_iff {v : Int} : Lookup.found value = .known v ↔ value = some v := by
  cases value with
  | none => simp [Lookup.found]
  | some w => simp [Lookup.found]

theorem found_eq_unavailable_iff : Lookup.found value = .unavailable ↔ value = none := by
  cases value with
  | none => simp [Lookup.found]
  | some w => simp [Lookup.found]

theorem lookup_of_find? {values : PerMode (Option Int)} (h : env.find? name = some values)
    (mode : Mode) : env.lookup mode name = .found (values.get mode) := by
  rw [lookup, h]
  simp only
  cases values.get mode <;> rfl

theorem lookup_eq_known_iff {v : Int} : env.lookup mode name = .known v ↔
    ∃ values, env.find? name = some values ∧ values.get mode = some v := by
  cases hfind : env.find? name with
  | none => simp [lookup, hfind]
  | some values =>
      rw [lookup_of_find? hfind, found_eq_known_iff]
      simp

theorem lookup_eq_undefined_iff : env.lookup mode name = .undefined ↔ env.find? name = none := by
  cases hfind : env.find? name with
  | none =>
      rw [lookup, hfind]
      exact iff_of_true rfl rfl
  | some values =>
      rw [lookup_of_find? hfind]
      cases values.get mode <;> simp [Lookup.found]

theorem lookup_insert {v : Int} : (env.insert name v).lookup mode text =
    if text = name then .known v else env.lookup mode text := by
  rw [insert]
  split
  · rename_i heq
    rw [heq, lookup_of_find? (find?_define_self _ _ _), PerMode.get_constant]
    rfl
  · rename_i hne
    rw [lookup, lookup, find?_define_of_ne _ _ hne]

theorem lookup_insertMode_self :
    (env.insertMode name mode value).lookup mode name = .found value := by
  rw [insertMode, lookup_of_find? (find?_define_self _ _ _), PerMode.get_set_self]

theorem lookup_insertMode_of_ne (h : text ≠ name) :
    (env.insertMode name mode value).lookup other text = env.lookup other text := by
  rw [insertMode, lookup, lookup, find?_define_of_ne _ _ h]

theorem lookup_insertMode_of_ne_mode (hname : env.find? name ≠ none) (h : other ≠ mode) :
    (env.insertMode name mode value).lookup other text = env.lookup other text := by
  by_cases htext : text = name
  · subst htext
    obtain ⟨values, hvalues⟩ := Option.ne_none_iff_exists'.1 hname
    rw [insertMode, lookup_of_find? (find?_define_self _ _ _), PerMode.get_set_of_ne _ _ h, hvalues,
      lookup_of_find? hvalues]
    rfl
  · exact lookup_insertMode_of_ne htext

theorem find?_insertMode_eq_none_iff (hname : env.find? name ≠ none) :
    (env.insertMode name mode value).find? text = none ↔ env.find? text = none := by
  rw [insertMode]
  by_cases htext : text = name
  · subst htext
    simp [hname]
  · rw [find?_define_of_ne _ _ htext]

end Environment

end RegisterBank
