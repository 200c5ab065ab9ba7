import RegisterBank.Parameter.Resolution
import RegisterBank.Proofs.Expr.Faithful
import RegisterBank.Proofs.Parameter.Environment
import RegisterBank.Proofs.Parameter.Reading

/-!
# Resolved environments hold words

Numerals that were read are words, and so are the values of trees of words in an environment of
words. Resolving parameters that were read therefore gives an environment in which every value is a
word, in every mode.
-/

namespace RegisterBank

/-- Every tree among the fields holds words only. -/
def Parameter.OfWords (p : Parameter) : Prop :=
  ∀ mode formula, p.field mode = some formula → formula.tree.OfWords

/-- Every value is a word, in every mode. -/
def Environment.OfWords (env : Environment) : Prop :=
  ∀ mode, Expr.ScopeOfWords (env.lookup mode)

theorem Formula.ofWords_of_parse_eq_ok {text : String} {formula : Formula}
    (h : Formula.parse text = .ok formula) : formula.tree.OfWords :=
  Expr.ofWords_of_parse_eq_ok (Formula.parse_tree_of_parse_eq_ok h).1

theorem Parameter.ofWords_of_fieldOf_eq_ok {text : String} {formula : Formula}
    (h : Parameter.fieldOf text = .ok (some formula)) : formula.tree.OfWords :=
  Formula.ofWords_of_parse_eq_ok (fieldOf_eq_ok_some_iff.1 h).2

/-- A parameter that was read holds words only. -/
theorem Parameter.ofWords_of_ofTexts_eq_ok {name value min max descr : String} {p : Parameter}
    (h : Parameter.ofTexts name value min max descr = .ok p) : p.OfWords := by
  obtain ⟨hvalue, hmin, hmax, -, -⟩ := ofTexts_eq_ok_iff.1 h
  intro mode formula hfield
  cases mode with
  | value =>
      obtain hfield : p.fields.value = some formula := hfield
      exact ofWords_of_fieldOf_eq_ok (hfield ▸ hvalue)
  | min =>
      obtain hfield : p.fields.min = some formula := hfield
      exact ofWords_of_fieldOf_eq_ok (hfield ▸ hmin)
  | max =>
      obtain hfield : p.fields.max = some formula := hfield
      exact ofWords_of_fieldOf_eq_ok (hfield ▸ hmax)

namespace Environment

variable {params : List Parameter} {p : Parameter} {mode : Mode}
  {env env' : Environment} {name : String} {value : Option Int}

theorem inRange_of_fieldValue (henv : env.OfWords) (hp : p.OfWords) {v : Int}
    (h : env.fieldValue mode p = some v) : Word.InRange v := by
  unfold fieldValue at h
  split at h
  · rename_i formula hfield
    rw [Formula.eval] at h
    split at h
    · rename_i w hw
      cases h
      exact Expr.eval_inRange (henv mode) (hp mode formula hfield) hw
    · cases h
  · cases h

theorem ofWords_declared (params : List Parameter) : (declared params).OfWords := by
  intro mode text x hx
  obtain ⟨values, hvalues, hget⟩ := lookup_eq_known_iff.1 hx
  obtain ⟨before, after, hsplit, -⟩ := List.lookup_eq_some_iff.1 hvalues
  have hmem : (text, values) ∈ (declared params).bindings := by
    rw [hsplit]
    simp
  obtain ⟨p, -, hp⟩ := List.mem_map.1 hmem
  cases hp
  rw [PerMode.get_constant] at hget
  cases hget

theorem ofWords_insertMode (henv : env.OfWords) (hvalue : ∀ v, value = some v → Word.InRange v) :
    (env.insertMode name mode value).OfWords := by
  intro other text x hx
  by_cases htext : text = name
  · subst htext
    by_cases hother : other = mode
    · subst hother
      rw [lookup_insertMode_self, found_eq_known_iff] at hx
      exact hvalue x hx
    · by_cases hfind : env.find? text = none
      · obtain ⟨values, hvalues, hget⟩ := lookup_eq_known_iff.1 hx
        rw [insertMode, find?_define_self, hfind] at hvalues
        cases hvalues
        rw [PerMode.get_set_of_ne _ _ hother, Option.getD_none, PerMode.get_constant] at hget
        cases hget
      · rw [lookup_insertMode_of_ne_mode hfind hother] at hx
        exact henv other text x hx
  · rw [lookup_insertMode_of_ne htext] at hx
    exact henv other text x hx

/-- The work on a mode keeps to the parameters that are known to it. -/
theorem ofWords_run {w : Worklist} {steps : Nat} (henv : w.env.OfWords)
    (hpending : ∀ e ∈ w.pending, e.1.OfWords) (hready : ∀ p ∈ w.ready, p.OfWords) :
    (w.run mode steps).env.OfWords := by
  induction steps generalizing w with
  | zero => exact henv
  | succ steps ih =>
      rw [Worklist.run]
      split
      · exact henv
      · rename_i p rest hnext
        rw [hnext, List.forall_mem_cons] at hready
        refine ih (ofWords_insertMode henv fun v => inRange_of_fieldValue henv hready.1) ?_ ?_
        · exact List.forall_mem_map.2 hpending
        · refine List.forall_mem_append.2 ⟨hready.2, List.forall_mem_map.2 fun e he => ?_⟩
          exact hpending e (List.mem_of_mem_filter he)

theorem ofWords_of_foldlM_eq_ok {modes : List Mode} (hparams : ∀ p ∈ params, p.OfWords)
    (henv : env.OfWords) (h : modes.foldlM (resolveMode params) env = .ok env') :
    env'.OfWords := by
  induction modes generalizing env with
  | nil =>
      cases h
      exact henv
  | cons mode modes ih =>
      rw [List.foldlM_cons, bind_eq_ok_iff] at h
      obtain ⟨next, hnext, h⟩ := h
      have hrun : ((Worklist.start params mode env).run mode params.length).env.OfWords :=
        ofWords_run henv (List.forall_mem_map.2 hparams) fun p hp =>
          hparams p (List.mem_of_mem_filter hp)
      unfold resolveMode at hnext
      simp only at hnext
      split at hnext
      · cases hnext
        exact ih hrun h
      · cases hnext

/-- Every value in a resolved environment is a word. -/
theorem ofWords_of_resolve_eq_ok (hparams : ∀ p ∈ params, p.OfWords)
    (h : resolve params = .ok env) : env.OfWords := by
  unfold resolve at h
  split at h
  · cases h
  · exact ofWords_of_foldlM_eq_ok hparams (ofWords_declared params) h

end Environment

end RegisterBank
