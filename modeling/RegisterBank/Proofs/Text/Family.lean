import Mathlib.Data.List.Nodup
import Mathlib.Data.List.Pairwise
import Mathlib.Data.String.Basic

/-!
# Families of names

Names that are made by writing different endings after one stem form a family. Whether two families
have a name in common can be told from their endings: the longer of the two stems has to be the
shorter one with a gap written after it, and the gap with an ending of the one family has to be an
ending of the other. There are few such gaps, and `Family.gaps` finds them.
-/

namespace RegisterBank.Text

variable {d e s t : String}

/-- The bytes of a text in the order in which they are stored. -/
def bytes (s : String) : List UInt8 :=
  s.toByteArray.data.toList

/-- What is left of a name before an ending, where the name has it. Bytes can be compared without
reading characters from them, so this is tried first. -/
def before? (e s : String) : Option String :=
  if (bytes e).isSuffixOf (bytes s) ∧ e.toList <:+ s.toList then
    some (String.ofList (s.toList.take (s.length - e.length)))
  else none

theorem bytes_append (s t : String) : bytes (s ++ t) = bytes s ++ bytes t := by
  simp [bytes]

theorem before?_eq_some_iff : before? e s = some t ↔ s = t ++ e := by
  unfold before?
  constructor
  · intro h
    split at h
    · rename_i hsuffix
      obtain ⟨-, cs, hcs⟩ := hsuffix
      cases h
      rw [← String.toList_inj, String.toList_append, String.toList_ofList, ← hcs,
        ← String.length_toList, ← String.length_toList, ← hcs, List.length_append,
        Nat.add_sub_cancel, List.take_left]
    · cases h
  · rintro rfl
    have hbytes : (bytes e).isSuffixOf (bytes (t ++ e)) = true := by
      simp [bytes_append, List.isSuffixOf_iff_suffix]
    rw [String.toList_append, if_pos ⟨hbytes, List.suffix_append _ _⟩, String.length_append,
      Nat.add_sub_cancel, ← String.length_toList, List.take_left, String.ofList_toList]

/-- Two names with endings are the same name in two ways: the longer stem has a gap after the
shorter one, which belongs to the ending on the other side. -/
theorem append_eq_append_iff :
    s ++ d = t ++ e ↔ (∃ z, t = s ++ z ∧ d = z ++ e) ∨ ∃ z, s = t ++ z ∧ e = z ++ d := by
  simp only [← String.toList_inj, String.toList_append, List.append_eq_append_iff]
  constructor
  · rintro (⟨z, ht, hd⟩ | ⟨z, hs, he⟩)
    · exact .inl ⟨String.ofList z, by rwa [String.toList_ofList], by rwa [String.toList_ofList]⟩
    · exact .inr ⟨String.ofList z, by rwa [String.toList_ofList], by rwa [String.toList_ofList]⟩
  · rintro (⟨z, ht, hd⟩ | ⟨z, hs, he⟩)
    · exact .inl ⟨z.toList, ht, hd⟩
    · exact .inr ⟨z.toList, hs, he⟩

theorem ne_append_of_before? (h : before? e s = none) : s ≠ t ++ e := by
  rw [ne_eq, ← before?_eq_some_iff, h]
  exact (Option.some_ne_none t).symm

/-- Names differ if neither of their endings is an ending of the other. -/
theorem append_ne_append (hd : before? e d = none) (he : before? d e = none) :
    s ++ d ≠ t ++ e := by
  rw [ne_eq, append_eq_append_iff]
  rintro (⟨z, -, hgap⟩ | ⟨z, -, hgap⟩)
  · exact ne_append_of_before? hd hgap
  · exact ne_append_of_before? he hgap

@[simp] theorem self_eq_append : s = s ++ t ↔ t = "" := by
  rw [← String.toList_inj, String.toList_append, List.self_eq_append_right,
    String.toList_eq_nil_iff]

theorem self_eq_prepend : s = t ++ s ↔ t = "" := by
  rw [← String.toList_inj, String.toList_append, List.self_eq_append_left,
    String.toList_eq_nil_iff]

/-- A relation that every member has to itself holds between any two members exactly if it holds
both ways between any two that follow each other. -/
theorem pairwise_and_swap_iff {α : Type} {R : α → α → Prop} {l : List α} (hrefl : ∀ a ∈ l, R a a) :
    (l.Pairwise fun a b => R a b ∧ R b a) ↔ ∀ a ∈ l, ∀ b ∈ l, R a b := by
  constructor
  · intro h a ha b hb
    exact (h.imp And.left).forall_of_forall_of_flip hrefl (h.imp And.right) ha hb
  · intro h
    exact List.pairwise_of_forall_mem_list fun a ha b hb => ⟨h a ha b hb, h b hb a ha⟩

/-- Names with a common stem. -/
structure Family where
  stem : String
  endings : List String

namespace Family

variable {f g : Family} {ds es : List String} {z : String}

/-- The names of the family. -/
def names (f : Family) : List String :=
  f.endings.map (f.stem ++ ·)

/-- No name belongs to both families. -/
def Apart (f g : Family) : Prop :=
  f.names.Disjoint g.names

theorem Apart.symm (h : f.Apart g) : g.Apart f :=
  fun _ hg hf => h hf hg

theorem nodup_names (h : f.endings.Nodup) : f.names.Nodup :=
  h.map fun _ _ heq => (String.append_right_inj f.stem).1 heq

/-- Families without repeated endings have all names different if any two of them are apart. -/
theorem nodup_flatMap_names_iff {fs : List Family} (h : ∀ f ∈ fs, f.endings.Nodup) :
    (fs.flatMap names).Nodup ↔ fs.Pairwise Apart := by
  rw [List.nodup_flatMap, and_iff_right fun f hf => nodup_names (h f hf)]
  rfl

/-- What endings of the one list have before endings of the other. -/
def gaps (ds es : List String) : List String :=
  ds.flatMap fun d => es.filterMap (before? · d)

theorem mem_gaps : z ∈ gaps ds es ↔ ∃ d ∈ ds, ∃ e ∈ es, d = z ++ e := by
  simp [gaps, before?_eq_some_iff]

/-- Two families are apart if neither stem is the other one with a gap after it. -/
theorem apart_iff : f.Apart g ↔
    (∀ z ∈ gaps f.endings g.endings, g.stem ≠ f.stem ++ z) ∧
      ∀ z ∈ gaps g.endings f.endings, f.stem ≠ g.stem ++ z := by
  simp only [Apart, names, List.disjoint_left, List.mem_map, mem_gaps]
  constructor
  · intro h
    constructor
    · rintro z ⟨_, hd, e, he, rfl⟩ hstem
      exact h ⟨_, hd, rfl⟩ ⟨e, he, by rw [hstem, String.append_assoc]⟩
    · rintro z ⟨_, he, d, hd, rfl⟩ hstem
      exact h ⟨d, hd, rfl⟩ ⟨_, he, by rw [hstem, String.append_assoc]⟩
  · rintro ⟨hf, hg⟩ _ ⟨d, hd, rfl⟩ ⟨e, he, heq⟩
    rcases append_eq_append_iff.1 heq with ⟨z, hz, hgap⟩ | ⟨z, hz, hgap⟩
    · exact hg z ⟨e, he, d, hd, hgap⟩ hz
    · exact hf z ⟨d, hd, e, he, hgap⟩ hz

end Family

end RegisterBank.Text
