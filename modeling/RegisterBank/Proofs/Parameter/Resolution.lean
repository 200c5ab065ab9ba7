import RegisterBank.Proofs.Expr.Evaluation
import RegisterBank.Proofs.Parameter.Environment
import RegisterBank.Proofs.Parameter.Worklist

/-!
# The resolved environment satisfies every definition

A field is evaluated in the environment of its moment, and further values are added later, in this
mode and in others. None of them can change what the field evaluates to: a parameter is ready only
when its field mentions none that is left, and one that has been evaluated keeps its value.
`Progress` is what the evaluations of one mode keep, and `Resolved` what it comes to when no
parameter is left, whatever the other modes do then.
-/

namespace RegisterBank.Environment

variable {params left rest : List Parameter} {p q : Parameter} {mode : Mode}
  {start env env' : Environment} {name : String}

/-- The value of every parameter for a mode is that of its field in the environment itself. -/
def Resolved (params : List Parameter) (mode : Mode) (env : Environment) : Prop :=
  ∀ p ∈ params, env.lookup mode p.name = .found (env.fieldValue mode p)

/-- Exactly the names of the parameters are defined. -/
def Declares (params : List Parameter) (env : Environment) : Prop :=
  ∀ name, env.find? name = none ↔ ∀ p ∈ params, p.name ≠ name

/-! ## The value of a field -/

theorem fieldValue_eq_some_iff {v : Int} : env.fieldValue mode p = some v ↔
    ∃ formula, p.field mode = some formula ∧ formula.eval env mode = .ok v := by
  unfold fieldValue
  cases p.field mode with
  | none => simp
  | some formula =>
      cases heval : formula.eval env mode <;> simp [Except.toOption, heval]

theorem fieldValue_eq_none_iff : env.fieldValue mode p = none ↔
    p.field mode = none ∨
      ∃ formula e, p.field mode = some formula ∧ formula.eval env mode = .error e := by
  unfold fieldValue
  cases p.field mode with
  | none => simp
  | some formula =>
      cases heval : formula.eval env mode <;> simp [Except.toOption, heval]

theorem toOption_eval (formula : Formula) (env : Environment) (mode : Mode) :
    (formula.eval env mode).toOption = (formula.tree.eval (env.lookup mode)).toOption := by
  rw [Formula.eval]
  split <;> rename_i h <;> rw [h] <;> rfl

/-- The value of a field depends only on the names that it mentions. -/
theorem fieldValue_congr
    (h : ∀ name ∈ p.references mode, env'.lookup mode name = env.lookup mode name) :
    env'.fieldValue mode p = env.fieldValue mode p := by
  unfold fieldValue
  unfold Parameter.references at h
  cases hfield : p.field mode with
  | none => rfl
  | some formula =>
      rw [hfield] at h
      simp only [toOption_eval]
      rw [Expr.eval_congr h]

/-! ## The work on a mode -/

/-- The parameters that have been evaluated have the values of their fields, and nothing has changed
in the other modes since the start. -/
structure Progress (params : List Parameter) (mode : Mode) (start : Environment)
    (left : List Parameter) (env : Environment) : Prop where
  declares : Declares params env
  settled : ∀ p ∈ params, p ∉ left → env.lookup mode p.name = .found (env.fieldValue mode p)
  others : ∀ other ≠ mode, ∀ name, env.lookup other name = start.lookup other name

theorem progress_start (h : Declares params env) : Progress params mode env params env where
  declares := h
  settled _ hp hnot := absurd hp hnot
  others _ _ _ := rfl

theorem find?_ne_none_of_mem (henv : Declares params env) (hp : p ∈ params) :
    env.find? p.name ≠ none := by
  rw [Ne, henv]
  exact fun h => h p hp rfl

/-- An evaluation keeps the values. -/
theorem Progress.evaluate {w : Worklist} (hnames : (params.map Parameter.name).Nodup)
    (hcounts : w.Counts params mode left) (hready : w.ready = p :: rest)
    (h : Progress params mode start left w.env) :
    Progress params mode start (left.filter (·.name != p.name)) (w.evaluate mode p rest).env := by
  obtain ⟨hp, hnone⟩ := hcounts.next hready
  have hname := find?_ne_none_of_mem h.declares (hcounts.subset p hp)
  -- A field that mentions no parameter that is left does not mention the evaluated one.
  have hvalue : ∀ q, q.mentions left mode = 0 →
      (w.evaluate mode p rest).env.fieldValue mode q = w.env.fieldValue mode q := by
    intro q hq
    refine fieldValue_congr fun name hname => lookup_insertMode_of_ne ?_
    exact (Parameter.mentions_eq_zero_iff.1 hq name hname p hp).symm
  exact
    { declares := fun name => by
        rw [Worklist.evaluate, find?_insertMode_eq_none_iff hname, h.declares]
      settled := fun q hq hnot => by
        by_cases hleft : q ∈ left
        · rw [hcounts.mem_filter_name_iff hnames hp, not_and, not_ne_iff] at hnot
          obtain rfl := hnot hleft
          rw [hvalue q hnone]
          exact lookup_insertMode_self
        · have hne : q.name ≠ p.name := fun heq =>
            hleft (List.inj_on_of_nodup_map hnames hq (hcounts.subset p hp) heq ▸ hp)
          rw [hvalue q (hcounts.free q hq hleft), ← h.settled q hq hleft]
          exact lookup_insertMode_of_ne hne
      others := fun other hother name => by
        rw [← h.others other hother name]
        exact lookup_insertMode_of_ne_mode hname hother }

/-- What holds when no parameter waits any more. -/
theorem progress_of_resolveMode_eq_ok (hnames : (params.map Parameter.name).Nodup)
    (hstart : Declares params start) (h : resolveMode params start mode = .ok env) :
    Progress params mode start [] env := by
  obtain ⟨left, hcounts, hready, hprogress⟩ := (Worklist.counts_start hnames start).run_induction
    (motive := fun left w => Progress params mode start left w.env) hnames
    (fun _ _ _ _ hcounts hready h => h.evaluate hnames hcounts hready) le_rfl
    (progress_start hstart)
  unfold resolveMode at h
  simp only at h
  split at h
  · rename_i hwaiting
    cases h
    have hleft : left = [] := List.eq_nil_iff_forall_not_mem.2 fun p hp => by
      have hstuck := Parameter.mem_stuck.2 ((hcounts.mem_left_iff hready).1 hp)
      rw [← hcounts.waiting_eq_stuck hready, hwaiting] at hstuck
      cases hstuck
    exact hleft ▸ hprogress
  · cases h

/-! ## All modes -/

theorem Progress.resolved (h : Progress params mode start [] env) : Resolved params mode env :=
  fun p hp => h.settled p hp List.not_mem_nil

/-- A mode stays resolved while nothing changes in it. -/
theorem Resolved.congr (h : Resolved params mode env)
    (hlookup : ∀ name, env'.lookup mode name = env.lookup mode name) :
    Resolved params mode env' := by
  intro p hp
  rw [hlookup, h p hp, fieldValue_congr fun name _ => hlookup name]

/-- Resolving one mode after another resolves all of them and leaves the rest as they are. -/
theorem resolved_of_foldlM_eq_ok (hnames : (params.map Parameter.name).Nodup) {modes : List Mode}
    (hmodes : modes.Nodup) (hstart : Declares params start)
    (h : modes.foldlM (resolveMode params) start = .ok env) :
    Declares params env ∧ (∀ mode ∈ modes, Resolved params mode env) ∧
      ∀ mode ∉ modes, ∀ name, env.lookup mode name = start.lookup mode name := by
  induction modes generalizing start with
  | nil =>
      cases h
      refine ⟨hstart, ?_, fun _ _ _ => rfl⟩
      intro mode hmode
      cases hmode
  | cons mode modes ih =>
      rw [List.nodup_cons] at hmodes
      rw [List.foldlM_cons, bind_eq_ok_iff] at h
      obtain ⟨next, hnext, h⟩ := h
      have hprogress := progress_of_resolveMode_eq_ok hnames hstart hnext
      obtain ⟨hdeclares, hresolved, hothers⟩ := ih hmodes.2 hprogress.declares h
      refine ⟨hdeclares, ?_, ?_⟩
      · rw [List.forall_mem_cons]
        exact ⟨hprogress.resolved.congr (hothers mode hmodes.1), hresolved⟩
      · intro other hother name
        rw [List.mem_cons, not_or] at hother
        rw [hothers other hother.2, hprogress.others other hother.1]

theorem repeatedName?_eq_none_iff {seen : List String} : repeatedName? seen params = none ↔
    (params.map Parameter.name).Nodup ∧ ∀ p ∈ params, p.name ∉ seen := by
  induction params generalizing seen with
  | nil => simp [repeatedName?]
  | cons p params ih =>
      rw [repeatedName?, List.map_cons, List.nodup_cons, List.forall_mem_cons]
      by_cases hseen : p.name ∈ seen
      · simp [hseen]
      · rw [if_neg (by simpa using hseen), ih]
        constructor
        · rintro ⟨hnodup, hfresh⟩
          refine ⟨⟨?_, hnodup⟩, hseen, ?_⟩
          · intro hmem
            obtain ⟨q, hq, hname⟩ := List.mem_map.1 hmem
            exact hfresh q hq (by simp [hname])
          · exact fun q hq hmem => hfresh q hq (List.mem_cons_of_mem _ hmem)
        · rintro ⟨⟨hmem, hnodup⟩, -, hfresh⟩
          refine ⟨hnodup, fun q hq hcons => ?_⟩
          rcases List.mem_cons.1 hcons with hname | hname
          · exact hmem (hname ▸ List.mem_map_of_mem hq)
          · exact hfresh q hq hname

theorem declares_declared (params : List Parameter) : Declares params (declared params) := by
  intro name
  rw [find?, declared, List.lookup_eq_none_iff, List.forall_mem_map]
  refine forall₂_congr fun p _ => ?_
  rw [bne_iff_ne]
  exact ne_comm

/-- Whenever parameters can be resolved, every one of them has in every mode the value of its field
in the resolved environment itself. It has no value there exactly if the field is missing or cannot
be evaluated, and no other name is defined. -/
theorem resolve_fixed (h : resolve params = .ok env) :
    (∀ p ∈ params, ∀ mode,
      (∀ v, env.lookup mode p.name = .known v ↔
        ∃ formula, p.field mode = some formula ∧ formula.eval env mode = .ok v) ∧
      (env.lookup mode p.name = .unavailable ↔
        p.field mode = none ∨
          ∃ formula e, p.field mode = some formula ∧ formula.eval env mode = .error e)) ∧
    ∀ mode name, (∀ p ∈ params, p.name ≠ name) → env.lookup mode name = .undefined := by
  unfold resolve at h
  split at h
  · cases h
  · rename_i hnone
    obtain ⟨hdeclares, hresolved, -⟩ := resolved_of_foldlM_eq_ok
      (repeatedName?_eq_none_iff.1 hnone).1 (by decide) (declares_declared params) h
    constructor
    · intro p hp mode
      have hmode : mode ∈ Mode.all := by cases mode <;> decide
      have hlookup := hresolved mode hmode p hp
      constructor
      · intro v
        rw [hlookup, found_eq_known_iff, fieldValue_eq_some_iff]
      · rw [hlookup, found_eq_unavailable_iff, fieldValue_eq_none_iff]
    · intro mode name hname
      exact lookup_eq_undefined_iff.2 ((hdeclares name).2 hname)

/-- A side whose greatest value cannot be computed. -/
def side : Parameter where
  name := "SIDE"
  fields :=
    { value := some ⟨"3", .number 3⟩
      min := none
      max := some ⟨"8 / 0", .binary .divide (.number 8) (.number 0)⟩ }

/-- An area that is declared before the side that it mentions twice. -/
def area : Parameter where
  name := "AREA"
  fields := .constant (some ⟨"SIDE * SIDE", .binary .multiply (.name "SIDE") (.name "SIDE")⟩)

theorem resolve_fixed_area : ∃ env, resolve [area, side] = .ok env ∧
    env.lookup .value "AREA" = .known 9 ∧ env.lookup .max "SIDE" = .unavailable ∧
      env.lookup .min "DEPTH" = .undefined := by
  obtain ⟨env, henv⟩ : ∃ env, resolve [area, side] = .ok env := ⟨_, rfl⟩
  obtain ⟨hfixed, hundefined⟩ := resolve_fixed henv
  have hside : env.lookup .value "SIDE" = .known 3 :=
    ((hfixed side (by simp) .value).1 3).2 ⟨_, rfl, rfl⟩
  have htree : (Expr.binary .multiply (.name "SIDE") (.name "SIDE")).eval (env.lookup .value) =
      .ok 9 :=
    Expr.eval_binary_eq_ok_iff.2
      ⟨3, 3, Expr.eval_name_eq_ok_iff.2 hside, Expr.eval_name_eq_ok_iff.2 hside, by decide⟩
  refine ⟨env, henv, ?_, ?_, ?_⟩
  · refine ((hfixed area (by simp) .value).1 9).2 ⟨_, rfl, ?_⟩
    rw [Formula.eval, htree]
  · exact (hfixed side (by simp) .max).2.2 (.inr ⟨_, _, rfl, rfl⟩)
  · exact hundefined .min "DEPTH" (by decide)

end RegisterBank.Environment
