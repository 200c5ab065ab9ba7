import Mathlib.Data.List.Perm.Basic
import RegisterBank.Proofs.Parameter.Dependency

/-!
# What the value of a name depends on

The value of a name in a mode is decided by the fields for this mode of the names that can be
reached from it (`Parameter.DependsOn`), and by which of these names are declared. Two lists of
parameters that agree on them give the name the same value, whatever else they declare, in whatever
order, and whenever it was its turn in the two resolutions (`Environment.lookup_eq_of_agree`). The
proof goes along the references, which have an end because a list that can be resolved has no cycle.
-/

namespace RegisterBank

open Relation (ReflTransGen)

namespace Parameter

variable {params : List Parameter} {mode : Mode} {name : String} {p : Parameter}

/-- Whether a name is declared, and if so, its field for the mode. -/
def declaration? (params : List Parameter) (mode : Mode) (name : String) :
    Option (Option Formula) :=
  (params.find? (·.name == name)).map (·.field mode)

/-- The second name is the first one, or is mentioned in a field for the mode of a name on which
the first one depends. -/
def DependsOn (params : List Parameter) (mode : Mode) : String → String → Prop :=
  ReflTransGen fun name other => ∃ p ∈ params, p.name = name ∧ other ∈ p.references mode

theorem declaration?_eq_some_iff (hnames : (params.map Parameter.name).Nodup)
    {field : Option Formula} :
    declaration? params mode name = some field ↔
      ∃ p ∈ params, p.name = name ∧ p.field mode = field := by
  rw [declaration?, Option.map_eq_some_iff]
  constructor
  · rintro ⟨p, hfound, hfield⟩
    exact ⟨p, List.mem_of_find?_eq_some hfound, by simpa using List.find?_some hfound, hfield⟩
  · rintro ⟨p, hp, rfl, hfield⟩
    obtain ⟨q, hq⟩ : ∃ q, params.find? (·.name == p.name) = some q := by
      rw [← Option.isSome_iff_exists, List.find?_isSome]
      exact ⟨p, hp, beq_self_eq_true _⟩
    have hname : q.name = p.name := by simpa using List.find?_some hq
    obtain rfl := List.inj_on_of_nodup_map hnames (List.mem_of_find?_eq_some hq) hp hname
    exact ⟨q, hq, hfield⟩

theorem declaration?_eq_none_iff (mode : Mode) :
    declaration? params mode name = none ↔ ∀ p ∈ params, p.name ≠ name := by
  simp [declaration?]

theorem declaration?_eq_of_perm {params' : List Parameter} (hperm : params.Perm params')
    (hnames : (params.map Parameter.name).Nodup) :
    declaration? params mode name = declaration? params' mode name := by
  have hnames' : (params'.map Parameter.name).Nodup := (hperm.map _).nodup_iff.1 hnames
  refine Option.ext fun field => ?_
  rw [declaration?_eq_some_iff hnames, declaration?_eq_some_iff hnames']
  exact exists_congr fun p => and_congr_left fun _ => hperm.mem_iff

theorem declaration?_map {change : Parameter → Parameter}
    (hname : ∀ p ∈ params, (change p).name = p.name)
    (hfield : ∀ p ∈ params, p.name = name → (change p).field mode = p.field mode) :
    declaration? (params.map change) mode name = declaration? params mode name := by
  induction params with
  | nil => rfl
  | cons p params ih =>
      rw [List.forall_mem_cons] at hname hfield
      have hrest := ih hname.2 hfield.2
      simp only [declaration?, List.map_cons, List.find?_cons, hname.1] at hrest ⊢
      cases hp : p.name == name with
      | true => exact congrArg some (hfield.1 (eq_of_beq hp))
      | false => exact hrest

theorem uses_eq_of_perm {params' : List Parameter} (hperm : params.Perm params') :
    Uses params mode = Uses params' mode := by
  funext p q
  exact propext (and_congr_left fun _ => hperm.mem_iff)

theorem cyclic_iff_of_perm {params' : List Parameter} (hperm : params.Perm params') :
    Cyclic params mode ↔ Cyclic params' mode := by
  rw [Cyclic, Cyclic, uses_eq_of_perm hperm]
  exact exists_congr fun p => and_congr_left fun _ => hperm.mem_iff

end Parameter

namespace Environment

open Parameter (Uses Cyclic DependsOn declaration? declaration?_eq_none_iff wellFounded_uses)

variable {params params' : List Parameter} {p q : Parameter} {mode : Mode}
  {env env' : Environment} {name : String}

theorem fieldValue_eq_of_field_eq (h : q.field mode = p.field mode) :
    env.fieldValue mode q = env.fieldValue mode p := by
  rw [fieldValue, fieldValue, h]

theorem resolved_of_resolve_eq_ok (h : resolve params = .ok env) :
    (params.map Parameter.name).Nodup ∧ (∀ mode, ¬ Cyclic params mode) ∧ Declares params env ∧
      ∀ mode, Resolved params mode env := by
  obtain ⟨hnames, hacyclic⟩ := exists_resolve_eq_ok_iff.1 ⟨env, h⟩
  rw [resolve_of_nodup hnames] at h
  obtain ⟨hdeclares, hresolved, -⟩ :=
    resolved_of_foldlM_eq_ok hnames (by decide) (declares_declared params) h
  exact ⟨hnames, hacyclic, hdeclares, fun mode => hresolved mode (by cases mode <;> decide)⟩

/-- A name that neither list declares is undefined in both environments. -/
theorem lookup_eq_of_declaration?_eq_none (henv : Declares params env)
    (henv' : Declares params' env') (hnone : declaration? params mode name = none)
    (hnone' : declaration? params' mode name = none) :
    env'.lookup mode name = env.lookup mode name := by
  rw [declaration?_eq_none_iff, ← henv] at hnone
  rw [declaration?_eq_none_iff, ← henv'] at hnone'
  rw [lookup_eq_undefined_iff.2 hnone, lookup_eq_undefined_iff.2 hnone']

/-- The induction goes along the references: a declared name has in both environments the value of
the same field, and the names that this field mentions agree. -/
theorem lookup_eq_of_wellFounded (hacyclic : ¬ Cyclic params mode)
    (hnames : (params.map Parameter.name).Nodup) (hnames' : (params'.map Parameter.name).Nodup)
    (hdeclares : Declares params env) (hdeclares' : Declares params' env')
    (hresolved : Resolved params mode env) (hresolved' : Resolved params' mode env')
    (hp : p ∈ params)
    (hagree : ∀ other, DependsOn params mode p.name other →
      declaration? params mode other = declaration? params' mode other) :
    env'.lookup mode p.name = env.lookup mode p.name := by
  induction p using (wellFounded_uses hacyclic).induction with
  | _ p ih =>
      have hself : declaration? params mode p.name = some (p.field mode) :=
        (Parameter.declaration?_eq_some_iff hnames).2 ⟨p, hp, rfl, rfl⟩
      rw [hagree p.name .refl, Parameter.declaration?_eq_some_iff hnames'] at hself
      obtain ⟨p', hp', hname, hfield⟩ := hself
      have hmentioned : ∀ other ∈ p.references mode,
          env'.lookup mode other = env.lookup mode other := by
        intro other hother
        have hafter : ∀ later, DependsOn params mode other later →
            declaration? params mode later = declaration? params' mode later := fun later hlater =>
          hagree later (.head ⟨p, hp, rfl, hother⟩ hlater)
        by_cases hdeclared : ∃ q ∈ params, q.name = other
        · obtain ⟨q, hq, rfl⟩ := hdeclared
          exact ih q ⟨hq, hother⟩ hq hafter
        · push Not at hdeclared
          have hnone := (declaration?_eq_none_iff mode).2 hdeclared
          exact lookup_eq_of_declaration?_eq_none hdeclares hdeclares' hnone
            (hafter other .refl ▸ hnone)
      rw [hresolved p hp, ← hname, hresolved' p' hp', fieldValue_eq_of_field_eq hfield,
        fieldValue_congr hmentioned]

theorem lookup_eq_of_resolve (h : resolve params = .ok env) (h' : resolve params' = .ok env')
    (hagree : ∀ other, DependsOn params mode name other →
      declaration? params mode other = declaration? params' mode other) :
    env'.lookup mode name = env.lookup mode name := by
  obtain ⟨hnames, hacyclic, hdeclares, hresolved⟩ := resolved_of_resolve_eq_ok h
  obtain ⟨hnames', -, hdeclares', hresolved'⟩ := resolved_of_resolve_eq_ok h'
  by_cases hdeclared : ∃ p ∈ params, p.name = name
  · obtain ⟨p, hp, rfl⟩ := hdeclared
    exact lookup_eq_of_wellFounded (hacyclic mode) hnames hnames' hdeclares hdeclares'
      (hresolved mode) (hresolved' mode) hp hagree
  · push Not at hdeclared
    have hnone := (declaration?_eq_none_iff mode).2 hdeclared
    exact lookup_eq_of_declaration?_eq_none hdeclares hdeclares' hnone
      (hagree name .refl ▸ hnone)

/-- In any other order the parameters can be resolved too, and to the same values. -/
theorem exists_resolve_of_perm (h : resolve params = .ok env) (hperm : params.Perm params') :
    ∃ env', resolve params' = .ok env' ∧
      ∀ mode name, env'.lookup mode name = env.lookup mode name := by
  obtain ⟨hnames, hacyclic⟩ := exists_resolve_eq_ok_iff.1 ⟨env, h⟩
  obtain ⟨env', h'⟩ : ∃ env', resolve params' = .ok env' :=
    exists_resolve_eq_ok_iff.2 ⟨(hperm.map _).nodup_iff.1 hnames, fun mode hcyclic =>
      hacyclic mode ((Parameter.cyclic_iff_of_perm hperm).2 hcyclic)⟩
  exact ⟨env', h', fun mode name => lookup_eq_of_resolve h h' fun other _ =>
    Parameter.declaration?_eq_of_perm hperm hnames⟩

/-- The value of a name in a mode depends on nothing but the fields for this mode of the names that
can be reached from it. Two lists that agree on these, and on which of them are declared, give it
the same value. So the order of declaration does not matter, neither for whether the parameters can
be resolved nor for any value, and a change of fields for other modes, or of parameters that cannot
be reached, leaves the value as it is. -/
theorem lookup_eq_of_agree (h : resolve params = .ok env) :
    (∀ params' env' mode name, resolve params' = .ok env' →
      (∀ other, DependsOn params mode name other →
        declaration? params mode other = declaration? params' mode other) →
      env'.lookup mode name = env.lookup mode name) ∧
    (∀ params', params.Perm params' → ∃ env', resolve params' = .ok env' ∧
      ∀ mode name, env'.lookup mode name = env.lookup mode name) ∧
    ∀ change env' mode name, resolve (params.map change) = .ok env' →
      (∀ p ∈ params, (change p).name = p.name) →
      (∀ p ∈ params, DependsOn params mode name p.name → (change p).field mode = p.field mode) →
      env'.lookup mode name = env.lookup mode name := by
  refine ⟨fun params' env' mode name h' hagree => lookup_eq_of_resolve h h' hagree,
    fun params' hperm => exists_resolve_of_perm h hperm, ?_⟩
  intro change env' mode name h' hname hfield
  refine lookup_eq_of_resolve h h' fun other hother => ?_
  refine (Parameter.declaration?_map hname fun p hp hpname => ?_).symm
  exact hfield p hp (hpname ▸ hother)

/-- The area may be declared after its side, and needs no greatest value of it. -/
theorem lookup_eq_of_agree_area : ∃ env, resolve [area, side] = .ok env ∧
    (∃ env', resolve [side, area] = .ok env' ∧
      ∀ mode name, env'.lookup mode name = env.lookup mode name) ∧
    ∃ env', resolve ([area, side].map fun p => { p with fields := p.fields.set .max none }) =
        .ok env' ∧ env'.lookup .value "AREA" = env.lookup .value "AREA" := by
  obtain ⟨env, h⟩ : ∃ env, resolve [area, side] = .ok env := ⟨_, rfl⟩
  obtain ⟨env', h'⟩ : ∃ env', resolve
      ([area, side].map fun p => { p with fields := p.fields.set .max none }) = .ok env' := ⟨_, rfl⟩
  obtain ⟨-, hperm, hchange⟩ := lookup_eq_of_agree h
  exact ⟨env, h, hperm _ (.swap _ _ _), env', h', hchange _ env' .value "AREA" h' (fun _ _ => rfl)
    fun p _ _ => p.fields.get_set_of_ne none (by decide : Mode.value ≠ .max)⟩

end Environment

end RegisterBank
