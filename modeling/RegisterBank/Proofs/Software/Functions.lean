import Mathlib.Data.List.Forall2
import Mathlib.Data.List.Nodup
import RegisterBank.Proofs.Module.Identifiers
import RegisterBank.Proofs.Software.Accessor
import RegisterBank.Software.Files

/-!
# The functions of the registers

A register has one setter if software can write it, and one getter if software can read it, for a
processor and for simulation alike. The functions of the two kinds correspond one by one: they have
the same results and names, and in simulation the handle is one argument more. Each function works
at the address of its own register, and has an index exactly if the expression of the address uses
one.
-/

namespace RegisterBank.Software

variable {b : Build} {p : Placement} {ps : List Placement} {found : List Accessor} {f g : Function}

/-- The statement answers a value. -/
def Function.Returns (f : Function) : Prop :=
  ∃ rest, f.statement = "return " ++ rest

/-- The function reaches the register through the macro of its address. -/
structure Function.Reaches (b : Build) (p : Placement) (f : Function) : Prop where
  body : ∃ before after, f.statement = before ++ addressText (addressMacro b p) p ++ after
  /-- The function has an index if and only if the expression of the address uses it. -/
  index : "int addr" ∈ f.head.arguments ↔
    ∃ shift : Nat, addressText (addressMacro b p) p = s!"({addressMacro b p}) + (addr << {shift})"

/-- The function writes one item of the register. -/
structure Function.Sets (b : Build) (p : Placement) (f : Function) : Prop extends
    Function.Reaches b p f where
  name : f.head.name = b.stem ++ "SET_" ++ p.macroName
  result : f.head.result = "void"
  value : ∃ type : WordType, type.bytes = p.layout.bytes ∧
    f.head.arguments.head? = some s!"{type.name} value"
  silent : ¬ f.Returns

/-- The function reads one item of the register. -/
structure Function.Gets (b : Build) (p : Placement) (f : Function) : Prop extends
    Function.Reaches b p f where
  name : f.head.name = b.stem ++ "GET_" ++ p.macroName
  result : ∃ type : WordType, type.bytes = p.layout.bytes ∧ f.head.result = type.name
  answers : f.Returns

/-- The functions are those of the register: one setter if it can be written, and one getter if it
can be read. -/
def Serves (b : Build) (p : Placement) (functions : List Function) : Prop :=
  ∃ setters getters, functions = setters ++ getters ∧
    setters.length = p.register.access.writes.toNat ∧
    getters.length = p.register.access.reads.toNat ∧
    (∀ f ∈ setters, f.Sets b p) ∧ ∀ f ∈ getters, f.Gets b p

/-- The functions have the same result and name, and the second one has the handle as one argument
more. -/
structure Function.Corresponds (f g : Function) : Prop where
  result : g.head.result = f.head.result
  name : g.head.name = f.head.name
  arguments : g.head.arguments = f.head.arguments ++ [Accessor.handle]

/-! ## One register -/

/-- What holds of the setter and the getter holds of all functions of a register. -/
theorem forall_mem_of_access {α : Type} {P : α → Prop} {writes reads : Bool} {setter getter : α}
    (hsetter : P setter) (hgetter : P getter) :
    ∀ x ∈ (if writes then [setter] else []) ++ (if reads then [getter] else []), P x := by
  cases writes <;> cases reads <;> simp [hsetter, hgetter]

theorem addressText_of_isArray {name : String} (h : p.isArray = true) :
    addressText name p = s!"({name}) + (addr << {indexShift p})" :=
  if_pos h

theorem addressText_of_not_isArray {name : String} (h : p.isArray = false) :
    addressText name p = s!"({name})" :=
  if_neg (by simp [h])

/-- The expression of an address uses an index only for an array. -/
theorem exists_shift_iff {name : String} :
    (∃ shift : Nat, addressText name p = s!"({name}) + (addr << {shift})") ↔ p.isArray = true := by
  constructor
  · rintro ⟨shift, h⟩
    by_contra hscalar
    rw [addressText_of_not_isArray (by simpa using hscalar)] at h
    have hlength := congrArg String.length h
    simp only [String.length_append] at hlength
    have hindex : 1 < (toString ") + (addr << ").length := by decide
    have hclose : (toString ")").length = 1 := by decide
    omega
  · intro h
    exact ⟨indexShift p, addressText_of_isArray h⟩

namespace Accessor

variable {a : Accessor} {extra : List String}

theorem mem_indexArguments : "int addr" ∈ indexArguments p ↔ p.isArray = true := by
  unfold indexArguments
  split <;> simp_all

theorem index_getter (hextra : "int addr" ∉ extra) :
    "int addr" ∈ (a.getter b extra).arguments ↔ a.placement.isArray = true := by
  rw [getter, List.mem_append, or_iff_left hextra, mem_indexArguments]

theorem index_setter (hextra : "int addr" ∉ extra) :
    "int addr" ∈ (a.setter b extra).arguments ↔ a.placement.isArray = true := by
  have hvalue : "int addr" ≠ s!"{a.type.name} value" := by cases a.type <;> decide
  rw [setter, List.cons_append, List.mem_cons, or_iff_right hvalue, List.mem_append,
    or_iff_left hextra, mem_indexArguments]

/-- A setter whose statement has the address of the register, and answers nothing. -/
theorem sets_setter {statement : String} {c : Char} (before after : String)
    (htype : a.type.bytes = a.placement.layout.bytes) (hextra : "int addr" ∉ extra)
    (hstatement : statement =
      before ++ addressText (addressMacro b a.placement) a.placement ++ after)
    (hfirst : before.toList.head? = some c) (hc : c ≠ 'r') :
    Function.Sets b a.placement ⟨a.setter b extra, statement⟩ where
  body := ⟨before, after, hstatement⟩
  index := (index_setter hextra).trans exists_shift_iff.symm
  name := rfl
  result := rfl
  value := ⟨a.type, htype, rfl⟩
  silent := by
    rintro ⟨rest, h⟩
    have hreturn : "return ".toList.head? = some 'r' := by decide
    have hhead := congrArg (·.toList.head?) (hstatement.symm.trans h)
    simp only [String.toList_append, List.head?_append, hfirst, hreturn, Option.some_or,
      Option.some.injEq] at hhead
    exact hc hhead

/-- A getter whose statement answers what is at the address of the register. -/
theorem gets_getter {statement : String} (before after : String)
    (htype : a.type.bytes = a.placement.layout.bytes) (hextra : "int addr" ∉ extra)
    (hstatement : statement =
      "return " ++ before ++ addressText (addressMacro b a.placement) a.placement ++ after) :
    Function.Gets b a.placement ⟨a.getter b extra, statement⟩ where
  body := ⟨"return " ++ before, after, hstatement⟩
  index := (index_getter hextra).trans exists_shift_iff.symm
  name := rfl
  result := ⟨a.type, htype, rfl⟩
  answers := ⟨before ++ addressText (addressMacro b a.placement) a.placement ++ after, by
    simp only [hstatement, String.append_assoc]⟩

/-- A setter and a getter, as far as software has access, are the functions of a register. -/
theorem serves_of_sets_gets {setter getter : Function} (hsets : setter.Sets b p)
    (hgets : getter.Gets b p) :
    Serves b p ((if p.register.access.writes then [setter] else [])
      ++ if p.register.access.reads then [getter] else []) := by
  refine ⟨_, _, rfl, ?_, ?_, ?_, ?_⟩
  · cases p.register.access.writes <;> rfl
  · cases p.register.access.reads <;> rfl
  · cases p.register.access.writes <;> simp [hsets]
  · cases p.register.access.reads <;> simp [hgets]

theorem serves_embeddedFunctions (htype : a.type.bytes = a.placement.layout.bytes) :
    Serves b a.placement (a.embeddedFunctions b) := by
  have hreturn : "return (*((volatile " = "return " ++ "(*((volatile " := by decide
  refine serves_of_sets_gets ?_ ?_
  · refine sets_setter s!"(*((volatile {a.type.name} *)((base) + " ")) = (value));" htype
      List.not_mem_nil rfl (c := '(') ?_ (by decide)
    simp [toString]
  · refine gets_getter s!"(*((volatile {a.type.name} *)((base) + " ")));" htype List.not_mem_nil ?_
    simp only [toString, hreturn, String.append_assoc]

theorem serves_simulationFunctions (htype : a.type.bytes = a.placement.layout.bytes) :
    Serves b a.placement (a.simulationFunctions b) := by
  have hreturn : "return (" = "return " ++ "(" := by decide
  refine serves_of_sets_gets ?_ ?_
  · refine sets_setter "iob_write(" s!", value, {widthMacro b a.placement}, native_if);" htype
      (by decide) ?_ (c := 'i') (by decide) (by decide)
    simp only [toString, String.append_assoc]
  · refine gets_getter s!"({a.type.name})iob_read(" ", native_if);" htype (by decide) ?_
    simp only [toString, hreturn, String.append_assoc]

theorem map_head_embeddedFunctions :
    (a.embeddedFunctions b).map (·.head) = a.prototypes b [] := by
  cases hw : a.placement.register.access.writes <;> cases hr : a.placement.register.access.reads <;>
    simp [embeddedFunctions, prototypes, hw, hr]

theorem map_head_simulationFunctions :
    (a.simulationFunctions b).map (·.head) = a.prototypes b [handle] := by
  cases hw : a.placement.register.access.writes <;> cases hr : a.placement.register.access.reads <;>
    simp [simulationFunctions, prototypes, hw, hr]

theorem corresponds_setter (s t : String) :
    Function.Corresponds ⟨a.setter b [], s⟩ ⟨a.setter b [handle], t⟩ :=
  ⟨rfl, rfl, by simp [setter]⟩

theorem corresponds_getter (s t : String) :
    Function.Corresponds ⟨a.getter b [], s⟩ ⟨a.getter b [handle], t⟩ :=
  ⟨rfl, rfl, by simp [getter]⟩

/-- The functions of a register correspond, the setters to each other and the getters. -/
theorem forall₂_corresponds :
    List.Forall₂ Function.Corresponds (a.embeddedFunctions b) (a.simulationFunctions b) := by
  unfold embeddedFunctions simulationFunctions
  refine List.rel_append ?_ ?_
  · split
    · exact .cons (corresponds_setter _ _) .nil
    · exact .nil
  · split
    · exact .cons (corresponds_getter _ _) .nil
    · exact .nil

end Accessor

/-! ## All registers -/

/-- The functions are those of the registers, register by register. -/
def Provides (b : Build) (functions : List Function) : Prop :=
  ∃ parts, functions = parts.flatten ∧ List.Forall₂ (Serves b) b.placements parts

theorem forall₂_of_accessors_eq_ok (h : accessors ps = .ok found) :
    List.Forall₂ (fun p a => a.placement = p ∧ a.type.bytes = a.placement.layout.bytes) ps
      found := by
  induction ps generalizing found with
  | nil =>
      cases h
      exact .nil
  | cons p ps ih =>
      simp only [accessors, bind_eq_ok_iff] at h
      obtain ⟨first, hfirst, others, hothers, h⟩ := h
      cases h
      obtain ⟨type, htype, rfl⟩ := accessor_eq_ok_iff.1 hfirst
      exact .cons ⟨rfl, htype⟩ (ih hothers)

/-- There is one accessor for each register, in the same order. -/
theorem map_placement_of_accessors_eq_ok (h : accessors ps = .ok found) :
    found.map (·.placement) = ps := by
  have hsame : List.Forall₂ (· = ·) ps (found.map (·.placement)) := by
    rw [List.forall₂_map_right_iff]
    exact (forall₂_of_accessors_eq_ok h).imp fun _ _ hpair => hpair.1.symm
  rw [List.forall₂_eq_eq_eq] at hsame
  exact hsame.symm

theorem provides_flatMap {functions : Accessor → List Function}
    (hserves : ∀ a : Accessor, a.type.bytes = a.placement.layout.bytes →
      Serves b a.placement (functions a))
    (h : accessors b.placements = .ok found) : Provides b (found.flatMap functions) := by
  refine ⟨found.map functions, List.flatMap_def, ?_⟩
  rw [List.forall₂_map_right_iff]
  refine (forall₂_of_accessors_eq_ok h).imp ?_
  rintro _ a ⟨rfl, htype⟩
  exact hserves a htype

theorem forall₂_corresponds_flatMap (accessors : List Accessor) :
    List.Forall₂ Function.Corresponds (accessors.flatMap (·.embeddedFunctions b))
      (accessors.flatMap (·.simulationFunctions b)) := by
  induction accessors with
  | nil => exact .nil
  | cons a accessors ih =>
      rw [List.flatMap_cons, List.flatMap_cons]
      exact List.rel_append Accessor.forall₂_corresponds ih

/-! ## Names -/

/-- What stands between the stem of the module and the name of the register in the name of a
function. -/
def verbs : List String := ["SET_", "GET_"]

theorem exists_verb_of_serves {functions : List Function} (h : Serves b p functions)
    (hf : f ∈ functions) : ∃ verb ∈ verbs, f.head.name = b.stem ++ verb ++ p.macroName := by
  obtain ⟨setters, getters, rfl, -, -, hsets, hgets⟩ := h
  rcases List.mem_append.1 hf with hf | hf
  · exact ⟨"SET_", by decide, (hsets f hf).name⟩
  · exact ⟨"GET_", by decide, (hgets f hf).name⟩

theorem verb_inj {stem s t verb verb' : String} (hverb : verb ∈ verbs) (hverb' : verb' ∈ verbs)
    (h : stem ++ verb ++ s = stem ++ verb' ++ t) : verb = verb' ∧ s = t := by
  have hlength : ∀ v ∈ verbs, v.toList.length = 4 := by decide
  have htext := congrArg String.toList h
  simp only [String.toList_append, List.append_assoc, List.append_cancel_left_eq] at htext
  have hparts := List.append_inj htext ((hlength _ hverb).trans (hlength _ hverb').symm)
  exact ⟨String.toList_inj.1 hparts.1, String.toList_inj.1 hparts.2⟩

theorem nodup_of_length_eq_toNat {functions : List Function} {c : Bool}
    (h : functions.length = c.toNat) : (functions.map (·.head.name)).Nodup := by
  have hle := c.toNat_le
  match functions, h with
  | [], _ => exact List.nodup_nil
  | [_], _ => exact List.nodup_singleton _
  | _ :: _ :: _, h =>
      simp only [List.length_cons] at h
      omega

theorem nodup_of_serves {functions : List Function} (h : Serves b p functions) :
    (functions.map (·.head.name)).Nodup := by
  obtain ⟨setters, getters, rfl, hsetters, hgetters, hsets, hgets⟩ := h
  rw [List.map_append, List.nodup_append]
  refine ⟨nodup_of_length_eq_toNat hsetters, nodup_of_length_eq_toNat hgetters, ?_⟩
  simp only [List.forall_mem_map]
  intro f hf g hg heq
  rw [(hsets f hf).name, (hgets g hg).name] at heq
  exact absurd (verb_inj (by decide) (by decide) heq).1 (by decide)

theorem exists_verb_of_mem_flatten {parts : List (List Function)}
    (h : List.Forall₂ (Serves b) ps parts) (hf : f ∈ parts.flatten) :
    ∃ p ∈ ps, ∃ verb ∈ verbs, f.head.name = b.stem ++ verb ++ p.macroName := by
  induction h with
  | nil => exact absurd hf List.not_mem_nil
  | cons hpart _ ih =>
      rw [List.flatten_cons, List.mem_append] at hf
      rcases hf with hf | hf
      · exact ⟨_, List.mem_cons_self, exists_verb_of_serves hpart hf⟩
      · obtain ⟨p, hp, hname⟩ := ih hf
        exact ⟨p, List.mem_cons_of_mem _ hp, hname⟩

/-- Where registers have different names in capitals, functions have different names. -/
theorem nodup_flatten_of_serves {parts : List (List Function)}
    (h : List.Forall₂ (Serves b) ps parts)
    (hne : ps.Pairwise fun p q => p.macroName ≠ q.macroName) :
    (parts.flatten.map (·.head.name)).Nodup := by
  induction h with
  | nil => exact List.nodup_nil
  | cons hpart hparts ih =>
      rw [List.pairwise_cons] at hne
      rw [List.flatten_cons, List.map_append, List.nodup_append]
      refine ⟨nodup_of_serves hpart, ih hne.2, ?_⟩
      simp only [List.forall_mem_map]
      intro f hf g hg heq
      obtain ⟨verb, hverb, hfname⟩ := exists_verb_of_serves hpart hf
      obtain ⟨q, hq, verb', hverb', hgname⟩ := exists_verb_of_mem_flatten hparts hg
      rw [hfname, hgname] at heq
      exact hne.1 q hq (verb_inj hverb hverb' heq).2

theorem Provides.nodup_names {functions : List Function} (h : Provides b functions)
    (hne : b.placements.Pairwise fun p q => p.macroName ≠ q.macroName) :
    (functions.map (·.head.name)).Nodup := by
  obtain ⟨parts, rfl, hparts⟩ := h
  exact nodup_flatten_of_serves hparts hne

end RegisterBank.Software
