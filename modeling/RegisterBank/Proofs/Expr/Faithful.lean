import RegisterBank.Proofs.Expr.Exact
import RegisterBank.Proofs.Expr.Soundness

/-!
# Evaluation and exact values

Evaluation in words is meant to give the value over the integers or none (`Faithful`): whatever
leaves the words should be an overflow. `faithful_parts_iff` is the exact condition: evaluation
alters no value on its way through a tree if and only if no shift to the left that it comes to
leaves the words.
-/

namespace RegisterBank.Expr

variable {scope : String → Lookup} {e : Expr} {args : List Expr} {v : Int} {values : List Int}

/-- Every numeral of the tree is a word. -/
inductive OfWords : Expr → Prop where
  | number {value : Int} : Word.InRange value → OfWords (.number value)
  | name {text : String} : OfWords (.name text)
  | unary {op : UnaryOp} {e : Expr} : OfWords e → OfWords (.unary op e)
  | binary {op : BinaryOp} {a b : Expr} : OfWords a → OfWords b → OfWords (.binary op a b)
  | choose {c a b : Expr} : OfWords c → OfWords a → OfWords b → OfWords (.choose c a b)
  | call {function : String} {args : List Expr} :
      (∀ arg ∈ args, OfWords arg) → OfWords (.call function args)

/-- The trees of a form hold words only. -/
def Form.OfWords : Form → Prop
  | .expr _ e => e.OfWords
  | .arguments args => ∀ arg ∈ args, arg.OfWords
  | .further args => ∀ arg ∈ args, arg.OfWords

theorem Form.WrittenAs.ofWords {form : Form} {cs : List Char} (h : form.WrittenAs cs) :
    form.OfWords := by
  induction h with
  | tighter _ ih => exact ih
  | choose _ _ _ _ _ ihc ihyes ihno => exact .choose ihc ihyes ihno
  | leftward _ _ _ _ ihleft ihright => exact .binary ihleft ihright
  | power _ _ _ ihbase ihexponent => exact .binary ihbase ihexponent
  | signed _ _ ih => exact .unary ih
  | number htoken => exact .number htoken.inRange
  | name => exact .name
  | call _ _ _ _ _ ih => exact .call ih
  | parentheses _ _ _ ih => exact ih
  | noArguments =>
      intro arg harg
      cases harg
  | firstArgument _ _ ihe ihargs => exact List.forall_mem_cons.2 ⟨ihe, ihargs⟩
  | noFurther =>
      intro arg harg
      cases harg
  | nextArgument _ _ _ ihe ihargs => exact List.forall_mem_cons.2 ⟨ihe, ihargs⟩

/-- Trees that were read hold words only. -/
theorem ofWords_of_parse_eq_ok {cs : List Char} (h : parse cs = .ok e) : e.OfWords :=
  (writtenAs_of_parse_eq_ok h).ofWords

/-- Every value in the scope is a word. -/
def ScopeOfWords (scope : String → Lookup) : Prop :=
  ∀ text x, scope text = .known x → Word.InRange x

/-- The evaluation of the first tree evaluates the second one. -/
inductive Reaches (scope : String → Lookup) : Expr → Expr → Prop where
  | refl {e : Expr} : Reaches scope e e
  | operand {op : UnaryOp} {e part : Expr} :
      Reaches scope e part → Reaches scope (.unary op e) part
  | left {op : BinaryOp} {a b part : Expr} :
      Reaches scope a part → Reaches scope (.binary op a b) part
  | right {op : BinaryOp} {a b part : Expr} {x : Int} :
      a.eval scope = .ok x → Reaches scope b part → Reaches scope (.binary op a b) part
  | condition {c a b part : Expr} :
      Reaches scope c part → Reaches scope (.choose c a b) part
  | yes {c a b part : Expr} {x : Int} :
      c.eval scope = .ok x → x ≠ 0 → Reaches scope a part → Reaches scope (.choose c a b) part
  | no {c a b part : Expr} :
      c.eval scope = .ok 0 → Reaches scope b part → Reaches scope (.choose c a b) part
  | argument {function : String} {before after : List Expr} {arg part : Expr}
      {values : List Int} :
      evalAll scope before = .ok values → Reaches scope arg part →
        Reaches scope (.call function (before ++ arg :: after)) part

/-- A value of the tree in words is its value over the integers. -/
def Faithful (scope : String → Lookup) (e : Expr) : Prop :=
  ∀ v, e.eval scope = .ok v → e.exact scope = some v

/-- A shift of the first tree by the second one to the left stays a word if its amount is legal. -/
def ShiftFits (scope : String → Lookup) (a b : Expr) : Prop :=
  ∀ x y, a.eval scope = .ok x → b.eval scope = .ok y → 0 ≤ y → y < 64 →
    Word.InRange (x * 2 ^ y.toNat)

theorem Reaches.trans {part inner : Expr} (h : Reaches scope e part)
    (hinner : Reaches scope part inner) : Reaches scope e inner := by
  induction h with
  | refl => exact hinner
  | operand _ ih => exact .operand (ih hinner)
  | left _ ih => exact .left (ih hinner)
  | right ha _ ih => exact .right ha (ih hinner)
  | condition _ ih => exact .condition (ih hinner)
  | yes hc hx _ ih => exact .yes hc hx (ih hinner)
  | no hc _ ih => exact .no hc (ih hinner)
  | argument hbefore _ ih => exact .argument hbefore (ih hinner)

theorem Reaches.ofWords {part : Expr} (h : Reaches scope e part) (hwords : e.OfWords) :
    part.OfWords := by
  induction h with
  | refl => exact hwords
  | operand _ ih =>
      cases hwords with
      | unary he => exact ih he
  | left _ ih =>
      cases hwords with
      | binary ha hb => exact ih ha
  | right _ _ ih =>
      cases hwords with
      | binary ha hb => exact ih hb
  | condition _ ih =>
      cases hwords with
      | choose hc ha hb => exact ih hc
  | yes _ _ _ ih =>
      cases hwords with
      | choose hc ha hb => exact ih ha
  | no _ _ ih =>
      cases hwords with
      | choose hc ha hb => exact ih hb
  | argument _ _ ih =>
      cases hwords with
      | call hargs => exact ih (hargs _ (by simp))

/-- The arguments of a call that has a value are all evaluated. -/
theorem reaches_argument {function : String} {arg : Expr} (h : evalAll scope args = .ok values)
    (harg : arg ∈ args) : Reaches scope (.call function args) arg := by
  obtain ⟨before, after, rfl⟩ := List.append_of_mem harg
  obtain ⟨earlier, hbefore⟩ := exists_evalAll_of_append h
  exact .argument hbefore .refl

/-- The values in words are words. -/
theorem eval_inRange (hscope : ScopeOfWords scope) (hwords : e.OfWords)
    (h : e.eval scope = .ok v) : Word.InRange v := by
  induction hwords generalizing v with
  | number hvalue =>
      cases h
      exact hvalue
  | name => exact hscope _ _ (eval_name_eq_ok_iff.1 h)
  | unary _ ih =>
      obtain ⟨x, hx, hvalue⟩ := eval_unary_eq_ok_iff.1 h
      exact (unaryValue_exact (ih hx) hvalue).2
  | @binary op a b _ _ iha ihb =>
      obtain ⟨x, y, hx, hy, hvalue⟩ := eval_binary_eq_ok_iff.1 h
      by_cases hop : op = .shiftLeft
      · subst hop
        exact (shiftLeft_exact hvalue).1
      · exact (binaryValue_exact hop (iha hx) (ihb hy) hvalue).2
  | choose _ _ _ ihc iha ihb =>
      obtain ⟨x, -, ⟨-, ha⟩ | ⟨-, hb⟩⟩ := eval_choose_eq_ok_iff.1 h
      · exact iha ha
      · exact ihb hb
  | call _ ih =>
      obtain ⟨values, hvalues, hvalue⟩ := eval_call_eq_ok_iff.1 h
      have hwords := forall_mem_of_evalAll hvalues fun arg harg x hx => ih arg harg hx
      obtain ⟨f, -, -, hrange⟩ := callValue_exact hwords hvalue
      exact hrange

/-- Where no shift loses bits, the value in words is the value over the integers. -/
theorem faithful_of_shiftFits (hscope : ScopeOfWords scope) (hwords : e.OfWords)
    (hshifts : ∀ a b, Reaches scope e (.binary .shiftLeft a b) → ShiftFits scope a b) :
    Faithful scope e := by
  intro v h
  induction hwords generalizing v with
  | number =>
      cases h
      rfl
  | name =>
      have hknown := eval_name_eq_ok_iff.1 h
      rw [exact, hknown]
  | unary he ih =>
      obtain ⟨x, hx, hvalue⟩ := eval_unary_eq_ok_iff.1 h
      have hexact := ih (fun a b hab => hshifts a b (.operand hab)) x hx
      rw [exact, hexact, Option.map_some,
        (unaryValue_exact (eval_inRange hscope he hx) hvalue).1]
  | @binary op a b ha hb iha ihb =>
      obtain ⟨x, y, hx, hy, hvalue⟩ := eval_binary_eq_ok_iff.1 h
      have hexactx := iha (fun a b hab => hshifts a b (.left hab)) x hx
      have hexacty := ihb (fun a b hab => hshifts a b (.right hx hab)) y hy
      have hop : op.exact x y = some v := by
        by_cases hshift : op = .shiftLeft
        · subst hshift
          obtain ⟨hpos, hlt, -⟩ := shifted_eq_ok_iff.1 hvalue
          exact (shiftLeft_exact hvalue).2.2 (hshifts a b .refl x y hx hy hpos hlt)
        · exact (binaryValue_exact hshift (eval_inRange hscope ha hx)
            (eval_inRange hscope hb hy) hvalue).1
      rw [exact, hexactx, hexacty]
      exact hop
  | choose hc ha hb ihc iha ihb =>
      obtain ⟨x, hx, hbranch⟩ := eval_choose_eq_ok_iff.1 h
      have hexact := ihc (fun a b hab => hshifts a b (.condition hab)) x hx
      rw [exact, hexact, Option.bind_eq_bind, Option.bind_some]
      rcases hbranch with ⟨hne, hv⟩ | ⟨rfl, hv⟩
      · rw [if_pos hne]
        exact iha (fun a b hab => hshifts a b (.yes hx hne hab)) v hv
      · rw [if_neg (by simp)]
        exact ihb (fun a b hab => hshifts a b (.no hx hab)) v hv
  | @call function args hargs ih =>
      obtain ⟨values, hvalues, hvalue⟩ := eval_call_eq_ok_iff.1 h
      have hwords := forall_mem_of_evalAll hvalues
        fun arg harg x hx => eval_inRange hscope (hargs arg harg) hx
      obtain ⟨f, hf, hexact, -⟩ := callValue_exact hwords hvalue
      have hall : exactAll scope args = some values := by
        have heach : ∀ arg ∈ args, ∀ x, arg.eval scope = .ok x → arg.exact scope = some x := by
          intro arg harg
          refine ih arg harg fun a b hab => hshifts a b ?_
          exact (reaches_argument hvalues harg).trans hab
        have hboth := (List.forall₂_and_left args values).2 ⟨heach, evalAll_eq_ok_iff.1 hvalues⟩
        exact exactAll_eq_some_iff.2 (hboth.imp fun arg x h => h.1 x h.2)
      rw [exact, hall, Option.bind_eq_bind, Option.bind_some, hf]
      exact hexact

/-- Evaluation alters no value on its way through a tree if and only if every shift to the left
that it evaluates stays a word. -/
theorem faithful_parts_iff (hscope : ScopeOfWords scope) (hwords : e.OfWords) :
    (∀ part, Reaches scope e part → Faithful scope part) ↔
      ∀ a b, Reaches scope e (.binary .shiftLeft a b) → ShiftFits scope a b := by
  constructor
  · intro hfaithful a b hreached x y hx hy hpos hlt
    have hvalue : binaryValue .shiftLeft x y = .ok (Word.shiftLeft x y.toNat) :=
      shifted_eq_ok_iff.2 ⟨hpos, hlt, rfl⟩
    have hexactx := hfaithful a (hreached.trans (.left .refl)) x hx
    have hexacty := hfaithful b (hreached.trans (.right hx .refl)) y hy
    have hexact := hfaithful _ hreached _ (eval_binary_eq_ok_iff.2 ⟨x, y, hx, hy, hvalue⟩)
    rw [exact, hexactx, hexacty] at hexact
    exact (shiftLeft_exact hvalue).2.1 hexact
  · intro hshifts part hpart
    refine faithful_of_shiftFits hscope (hpart.ofWords hwords) fun a b hab => ?_
    exact hshifts a b (hpart.trans hab)

/-- `W << 2 | 1` -/
def shiftedWidth : Expr :=
  .binary .bitOr (.binary .shiftLeft (.name "W") (.number 2)) (.number 1)

theorem faithful_parts_shiftedWidth :
    (∀ part, Reaches (fun _ => .known 5) shiftedWidth part → Faithful (fun _ => .known 5) part) ∧
      shiftedWidth.exact (fun _ => .known 5) = some 21 := by
  have hscope : ScopeOfWords fun _ => .known 5 := by
    intro text x hx
    cases hx
    decide
  have hwords : shiftedWidth.OfWords :=
    .binary (.binary .name (.number (by decide))) (.number (by decide))
  have hshifts : ∀ a b, Reaches (fun _ => .known 5) shiftedWidth (.binary .shiftLeft a b) →
      ShiftFits (fun _ => .known 5) a b := by
    intro a b hreached
    cases hreached with
    | left h =>
        cases h with
        | refl =>
            intro x y hx hy _ _
            cases hx
            cases hy
            decide
        | left h => cases h
        | right _ h => cases h
    | right _ h => cases h
  exact ⟨(faithful_parts_iff hscope hwords).2 hshifts, by decide⟩

/-- One, shifted to the left by 63 places, becomes the least word. -/
theorem not_forall_faithful :
    ¬ ∀ scope e, ScopeOfWords scope → OfWords e → Faithful scope e := by
  intro hfaithful
  have hscope : ScopeOfWords fun _ => .undefined := by
    intro text x hx
    cases hx
  have hwords : OfWords (.binary .shiftLeft (.number 1) (.number 63)) :=
    .binary (.number (by decide)) (.number (by decide))
  have hexact := hfaithful _ _ hscope hwords Word.least (by decide)
  exact absurd hexact (by decide)

end RegisterBank.Expr
