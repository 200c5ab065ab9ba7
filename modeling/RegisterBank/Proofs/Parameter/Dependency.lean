import RegisterBank.Proofs.Parameter.Resolution

/-!
# Cycles of parameters

What waits in a mode when nothing is ready any more are the parameters from which a cycle can be
reached (`Worklist.waiting_eq_stuck`), so a mode has an answer exactly if its graph of references
has no cycle, and otherwise reports these parameters.

`Environment.resolve_eq_iff` says for which lists of parameters there is an environment, and with
which error all others are refused.
-/

namespace RegisterBank

namespace Environment

open Parameter (Cyclic stuck)

variable {params : List Parameter} {mode : Mode} {env : Environment} {e : Error}

/-! ## The answer of a mode -/

/-- The error of a mode with a cycle. It names the parameters from which a cycle can be reached, and
shows the field of the first of them. -/
def Reports (params : List Parameter) (mode : Mode) (e : Error) : Prop :=
  ∃ first rest formula, stuck params mode = first :: rest ∧ first.field mode = some formula ∧
    e = .expression formula.source formula.source
      (.cycle mode ((stuck params mode).map Parameter.name))

theorem resolveMode_eq_error_iff (hnames : (params.map Parameter.name).Nodup) :
    resolveMode params env mode = .error e ↔ Reports params mode e := by
  have hstuck : ((Worklist.start params mode env).run mode params.length).waiting =
      stuck params mode := Worklist.waiting_eq_stuck hnames
  unfold resolveMode
  simp only [hstuck]
  split
  · rename_i hnone
    refine iff_of_false (fun h => by cases h) ?_
    rintro ⟨first, rest, formula, hfirst, -⟩
    cases hnone.symm.trans hfirst
  · rename_i first rest hwaiting
    have hfirst : first ∈ stuck params mode := by
      rw [hwaiting]
      exact List.mem_cons_self
    obtain ⟨next, huses, -⟩ := (Parameter.mem_stuck.1 hfirst).2.exists_uses
    obtain ⟨formula, hformula⟩ := huses.exists_field
    have herror : cycleError mode first rest =
        .expression formula.source formula.source
          (.cycle mode ((stuck params mode).map Parameter.name)) := by
      rw [cycleError, hformula, hwaiting]
      rfl
    rw [herror, Except.error.injEq]
    constructor
    · rintro rfl
      exact ⟨first, rest, formula, hwaiting, hformula, rfl⟩
    · rintro ⟨first', rest', formula', hfirst, hformula', rfl⟩
      obtain ⟨rfl, rfl⟩ := List.cons.inj (hwaiting.symm.trans hfirst)
      cases hformula.symm.trans hformula'
      rfl

theorem Reports.cyclic (h : Reports params mode e) : Cyclic params mode := by
  obtain ⟨first, rest, -, hstuck, -⟩ := h
  by_contra hacyclic
  rw [Parameter.stuck_eq_nil_iff.2 hacyclic] at hstuck
  cases hstuck

theorem exists_resolveMode_eq_ok_iff (hnames : (params.map Parameter.name).Nodup) :
    (∃ env', resolveMode params env mode = .ok env') ↔ ¬ Cyclic params mode := by
  have hstuck : ((Worklist.start params mode env).run mode params.length).waiting =
      stuck params mode := Worklist.waiting_eq_stuck hnames
  rw [← Parameter.stuck_eq_nil_iff, ← hstuck]
  unfold resolveMode
  simp only
  split
  · rename_i hnone
    exact iff_of_true ⟨_, rfl⟩ hnone
  · rename_i first rest hsome
    rw [hsome]
    exact iff_of_false (fun ⟨_, h⟩ => by cases h) (List.cons_ne_nil first rest)

/-! ## All modes -/

theorem exists_foldlM_resolveMode_eq_ok_iff (hnames : (params.map Parameter.name).Nodup)
    {modes : List Mode} :
    (∃ env', modes.foldlM (resolveMode params) env = .ok env') ↔
      ∀ mode ∈ modes, ¬ Cyclic params mode := by
  induction modes generalizing env with
  | nil => exact iff_of_true ⟨env, rfl⟩ fun _ hmode => absurd hmode List.not_mem_nil
  | cons mode modes ih =>
      simp only [List.foldlM_cons, bind_eq_ok_iff, List.forall_mem_cons]
      rw [← @exists_resolveMode_eq_ok_iff params mode env hnames]
      constructor
      · rintro ⟨env', next, hnext, hrest⟩
        exact ⟨⟨next, hnext⟩, ih.1 ⟨env', hrest⟩⟩
      · rintro ⟨⟨next, hnext⟩, hrest⟩
        obtain ⟨env', henv'⟩ := (@ih next).2 hrest
        exact ⟨env', next, hnext, henv'⟩

/-- The error is that of the first mode with a cycle. -/
theorem foldlM_resolveMode_eq_error_iff (hnames : (params.map Parameter.name).Nodup)
    {modes : List Mode} :
    modes.foldlM (resolveMode params) env = .error e ↔
      ∃ before mode after, modes = before ++ mode :: after ∧
        (∀ earlier ∈ before, ¬ Cyclic params earlier) ∧ Cyclic params mode ∧
          Reports params mode e := by
  induction modes generalizing env with
  | nil =>
      refine iff_of_false (fun h => by cases h) ?_
      rintro ⟨before, mode, after, hnil, -⟩
      cases before <;> cases hnil
  | cons mode modes ih =>
      rw [List.foldlM_cons, bind_eq_error_iff]
      constructor
      · rintro (hreports | ⟨next, hnext, hrest⟩)
        · rw [resolveMode_eq_error_iff hnames] at hreports
          exact ⟨[], mode, modes, rfl, by simp, hreports.cyclic, hreports⟩
        · have hacyclic := (exists_resolveMode_eq_ok_iff hnames).1 ⟨next, hnext⟩
          obtain ⟨before, mode', after, rfl, hbefore, hcyclic, hreports⟩ := ih.1 hrest
          exact ⟨mode :: before, mode', after, rfl, List.forall_mem_cons.2 ⟨hacyclic, hbefore⟩,
            hcyclic, hreports⟩
      · rintro ⟨before, mode', after, hcons, hbefore, hcyclic, hreports⟩
        cases before with
        | nil =>
            obtain ⟨rfl, rfl⟩ := List.cons.inj hcons
            exact .inl ((resolveMode_eq_error_iff hnames).2 hreports)
        | cons first before =>
            obtain ⟨rfl, rfl⟩ := List.cons.inj hcons
            rw [List.forall_mem_cons] at hbefore
            obtain ⟨next, hnext⟩ := (exists_resolveMode_eq_ok_iff hnames).2 hbefore.1
            exact .inr ⟨next, hnext, ih.2 ⟨before, mode', after, rfl, hbefore.2, hcyclic, hreports⟩⟩

theorem resolve_of_nodup (h : (params.map Parameter.name).Nodup) :
    resolve params = Mode.all.foldlM (resolveMode params) (declared params) := by
  have hnone : repeatedName? [] params = none :=
    repeatedName?_eq_none_iff.2 ⟨h, fun _ _ => List.not_mem_nil⟩
  rw [resolve, hnone]

theorem exists_resolve_of_not_nodup (h : ¬ (params.map Parameter.name).Nodup) :
    ∃ name, resolve params = .error (.configuration (.repeatedParameter name)) := by
  have hsome : repeatedName? [] params ≠ none := fun hnone =>
    h (repeatedName?_eq_none_iff.1 hnone).1
  obtain ⟨name, hname⟩ := Option.ne_none_iff_exists'.1 hsome
  exact ⟨name, by rw [resolve, hname]⟩

/-- There is an environment exactly for parameters with different names and without cycles. -/
theorem exists_resolve_eq_ok_iff :
    (∃ env, resolve params = .ok env) ↔
      (params.map Parameter.name).Nodup ∧ ∀ mode, ¬ Cyclic params mode := by
  by_cases hnames : (params.map Parameter.name).Nodup
  · rw [resolve_of_nodup hnames, exists_foldlM_resolveMode_eq_ok_iff hnames, and_iff_right hnames]
    exact ⟨fun h mode => h mode (by cases mode <;> decide), fun h mode _ => h mode⟩
  · obtain ⟨name, hname⟩ := exists_resolve_of_not_nodup hnames
    rw [hname]
    exact iff_of_false (fun ⟨_, h⟩ => by cases h) fun h => hnames h.1

/-- With different names the only errors are those of a cycle. -/
theorem resolve_eq_error_iff (hnames : (params.map Parameter.name).Nodup) :
    resolve params = .error e ↔
      ∃ before mode after, Mode.all = before ++ mode :: after ∧
        (∀ earlier ∈ before, ¬ Cyclic params earlier) ∧ Cyclic params mode ∧
          Reports params mode e := by
  rw [resolve_of_nodup hnames, foldlM_resolveMode_eq_error_iff hnames]

/-- There is an expression error exactly for parameters with different names and a cycle. -/
theorem exists_resolve_eq_expression_iff :
    (∃ text shown fault, resolve params = .error (.expression text shown fault)) ↔
      (params.map Parameter.name).Nodup ∧ ∃ mode, Cyclic params mode := by
  by_cases hnames : (params.map Parameter.name).Nodup
  · constructor
    · rintro ⟨text, shown, fault, h⟩
      obtain ⟨_, mode, _, -, -, hcyclic, -⟩ := (resolve_eq_error_iff hnames).1 h
      exact ⟨hnames, mode, hcyclic⟩
    · rintro ⟨-, mode, hcyclic⟩
      cases hresolve : resolve params with
      | ok env => exact absurd hcyclic ((exists_resolve_eq_ok_iff.1 ⟨env, hresolve⟩).2 mode)
      | error e =>
          obtain ⟨_, _, _, -, -, -, _, _, _, -, -, rfl⟩ :=
            (resolve_eq_error_iff hnames).1 hresolve
          exact ⟨_, _, _, rfl⟩
  · obtain ⟨name, hname⟩ := exists_resolve_of_not_nodup hnames
    rw [hname]
    exact iff_of_false (fun ⟨_, _, _, h⟩ => by cases h) fun h => hnames h.1

/-- Parameters of which two have the same name are refused as a faulty configuration, and no others
are. Those with different names are resolved if no mode has a cycle, and refused with an expression
error if one has. The error is that of the first such mode, in the order of the default, the least
and the greatest values; it names exactly the parameters from which a cycle can be reached, in order
of declaration. -/
theorem resolve_eq_iff (params : List Parameter) :
    ((∃ fault, resolve params = .error (.configuration fault)) ↔
      ¬ (params.map Parameter.name).Nodup) ∧
    ((∃ env, resolve params = .ok env) ↔
      (params.map Parameter.name).Nodup ∧ ∀ mode, ¬ Cyclic params mode) ∧
    ((∃ text shown fault, resolve params = .error (.expression text shown fault)) ↔
      (params.map Parameter.name).Nodup ∧ ∃ mode, Cyclic params mode) ∧
    ∀ text shown fault, resolve params = .error (.expression text shown fault) ↔
      (params.map Parameter.name).Nodup ∧
        ∃ before mode after, Mode.all = before ++ mode :: after ∧
          (∀ earlier ∈ before, ¬ Cyclic params earlier) ∧ Cyclic params mode ∧
            Reports params mode (.expression text shown fault) := by
  refine ⟨?_, exists_resolve_eq_ok_iff, exists_resolve_eq_expression_iff, ?_⟩
  · by_cases hnames : (params.map Parameter.name).Nodup
    · refine iff_of_false ?_ (not_not.2 hnames)
      rintro ⟨fault, h⟩
      obtain ⟨_, _, _, -, -, -, _, _, _, -, -, herror⟩ :=
        (resolve_eq_error_iff hnames).1 h
      cases herror
    · obtain ⟨name, hname⟩ := exists_resolve_of_not_nodup hnames
      exact iff_of_true ⟨_, hname⟩ hnames
  · intro text shown fault
    by_cases hnames : (params.map Parameter.name).Nodup
    · rw [resolve_eq_error_iff hnames, and_iff_right hnames]
    · obtain ⟨name, hname⟩ := exists_resolve_of_not_nodup hnames
      rw [hname]
      exact iff_of_false (fun h => by cases h) fun h => hnames h.1

end Environment

end RegisterBank
