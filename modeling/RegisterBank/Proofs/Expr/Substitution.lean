import RegisterBank.Proofs.Expr.Faithful
import RegisterBank.Proofs.Expr.Formula
import RegisterBank.Proofs.Expr.Joining
import RegisterBank.Proofs.Expr.Numeral
import RegisterBank.Proofs.Parameter.Environment

/-!
# Substituted texts

A text that can be read can still be read when its known names have been replaced by their values,
and it then has the tree in which the same names have become numerals (`Expr.instantiate`). So it
evaluates to the same value, or fails for the same reason.

The substitution works on characters and knows nothing of trees. It finds the same tokens as the
grammar because it meets each of them with what follows in the text (`EndsWord`): nothing there
prolongs a number or a name, and a parenthesis opens there exactly after the name of a call. A
negative value is not put into parentheses. It stands where a name stood, at the tightest level but
one, and no rule of the grammar asks for an operand that is tighter than a sign.
-/

namespace RegisterBank

namespace Expr

variable {scope : String → Lookup} {called : Bool} {level : Nat} {text : String}
  {cs rest token token' : List Char} {args : List Expr}

/-! ## The tree of a substituted text -/

/-- The value that is shown for a name. For the name of a system function, which begins with a
dollar sign, none is shown even if it has one. -/
def shown? (scope : String → Lookup) (text : String) : Option Int :=
  match scope text with
  | .known v => if text.toList.head? = some '$' then none else some v
  | _ => none

theorem known_of_shown? {v : Int} (h : shown? scope text = some v) : scope text = .known v := by
  unfold shown? at h
  split at h
  · rename_i w hw
    split at h
    · cases h
    · cases h
      exact hw
  · cases h

mutual

/-- The tree with the names for which a value is shown replaced by its numeral. -/
def instantiate (scope : String → Lookup) : Expr → Expr
  | number n => .number n
  | name text => (shown? scope text).elim (.name text) numeral
  | unary op e => .unary op (e.instantiate scope)
  | binary op a b => .binary op (a.instantiate scope) (b.instantiate scope)
  | choose c a b => .choose (c.instantiate scope) (a.instantiate scope) (b.instantiate scope)
  | call function args => .call function (instantiateAll scope args)

/-- The names of a list of trees replaced. -/
def instantiateAll (scope : String → Lookup) : List Expr → List Expr
  | [] => []
  | e :: rest => e.instantiate scope :: instantiateAll scope rest

end

theorem evalAll_instantiateAll
    (h : ∀ arg ∈ args, (arg.instantiate scope).eval scope = arg.eval scope) :
    evalAll scope (instantiateAll scope args) = evalAll scope args := by
  induction args with
  | nil => rfl
  | cons arg args ih =>
      rw [List.forall_mem_cons] at h
      rw [instantiateAll, evalAll, evalAll, h.1, ih h.2]

/-- All values of names can be shown as numerals. The least word cannot: the digits after its minus
sign are no word. -/
def Shows (scope : String → Lookup) : Prop :=
  ∀ text v, scope text = .known v → Word.InRange v.natAbs

/-- With its names replaced a tree has the same outcome. -/
theorem eval_instantiate (hscope : Shows scope) (e : Expr) :
    (e.instantiate scope).eval scope = e.eval scope := by
  induction e with
  | number n => rfl
  | name text =>
      rw [instantiate]
      cases hshown : shown? scope text with
      | none => rfl
      | some v =>
          have hv := known_of_shown? hshown
          rw [Option.elim_some, eval_numeral (hscope text v hv), eval_name_eq_ok_iff.2 hv]
  | unary op e ih => rw [instantiate, eval, eval, ih]
  | binary op a b iha ihb => rw [instantiate, eval, eval, iha, ihb]
  | choose c a b ihc iha ihb => rw [instantiate, eval, eval, ihc, iha, ihb]
  | call function args ih => rw [instantiate, eval, eval, evalAll_instantiateAll ih]

/-- What a piece of text becomes. Where a number or a name stood, there may be a sign. -/
def Form.instantiate (scope : String → Lookup) : Form → Form
  | .expr level e => .expr (min level 12) (e.instantiate scope)
  | .arguments trees => .arguments (instantiateAll scope trees)
  | .further trees => .further (instantiateAll scope trees)

/-! ## Characters that are passed over -/

/-- The character begins neither a number nor a name. -/
def Bare (c : Char) : Prop :=
  isWordStart c = false ∧ c.isDigit = false ∧ c ≠ baseMark ∧ c ≠ '$' ∧ c ≠ macroMark

instance (c : Char) : Decidable (Bare c) :=
  inferInstanceAs (Decidable (_ ∧ _))

theorem bare_of_isGap {c : Char} (h : Text.isGap c = true) : Bare c := by
  simp only [Text.isGap, Bool.or_eq_true, beq_iff_eq] at h
  rcases h with ((rfl | rfl) | rfl) | rfl <;> decide

theorem BinaryOp.bare_sign (op : BinaryOp) : ∀ c ∈ op.sign, Bare c := by
  cases op <;> simp [BinaryOp.sign, Bare, isWordStart, baseMark, macroMark]

theorem UnaryOp.bare_sign (op : UnaryOp) : ∀ c ∈ op.sign, Bare c := by
  cases op <;> simp [UnaryOp.sign, Bare, isWordStart, baseMark, macroMark]

theorem substitute_append_of_bare (h : ∀ c ∈ cs, Bare c) (rest : List Char) :
    substitute scope (cs ++ rest) = cs ++ substitute scope rest := by
  induction cs with
  | nil => rfl
  | cons c cs ih =>
      rw [List.forall_mem_cons] at h
      obtain ⟨⟨hstart, hdigit, hbase, hdollar, hmacro⟩, hcs⟩ := h
      rw [List.cons_append, substitute]
      simp only [hstart, hdigit, beq_eq_false_iff_ne.2 hbase, beq_eq_false_iff_ne.2 hdollar,
        beq_eq_false_iff_ne.2 hmacro, Bool.or_self, Bool.false_eq_true, if_false]
      rw [ih hcs, List.cons_append]

theorem substitute_gap {gap : List Char} (h : IsGap gap) (rest : List Char) :
    substitute scope (gap ++ rest) = gap ++ substitute scope rest :=
  substitute_append_of_bare (fun c hc => bare_of_isGap (h c hc)) rest

theorem Spaced.substitute (h : Spaced token cs) (htoken : ∀ c ∈ token, Bare c)
    (rest : List Char) : Expr.substitute scope (cs ++ rest) = cs ++ Expr.substitute scope rest := by
  obtain ⟨before, after, hbefore, hafter, rfl⟩ := h
  rw [List.append_assoc, substitute_gap hbefore, List.append_assoc,
    substitute_append_of_bare htoken, substitute_gap hafter]
  simp only [List.append_assoc]

theorem Spaced.substitute_singleton {c : Char} (h : Spaced [c] cs) (hc : Bare c)
    (rest : List Char) : Expr.substitute scope (cs ++ rest) = cs ++ Expr.substitute scope rest :=
  h.substitute (List.forall_mem_singleton.2 hc) rest

/-! ## What follows a token -/

/-- No character here prolongs a number or a name that stands before, and a parenthesis opens here
exactly where such a name is called. -/
structure EndsWord (called : Bool) (rest : List Char) : Prop where
  token : EndsToken rest
  parenthesis : (rest.find? fun c => !Text.isBlank c) = some '(' ↔ called = true

theorem endsWord_nil : EndsWord false [] where
  token _ hc := nomatch hc
  parenthesis := by simp

theorem find?_append_of_isGap {gap : List Char} (h : IsGap gap) (rest : List Char) :
    ((gap ++ rest).find? fun c => !Text.isBlank c) = rest.find? fun c => !Text.isBlank c := by
  have hnone : (gap.find? fun c => !Text.isBlank c) = none := by
    rw [List.find?_eq_none]
    intro c hc
    simp [isBlank_of_isGap (h c hc)]
  rw [List.find?_append, hnone, Option.none_or]

theorem EndsWord.append_of_isGap {gap : List Char} (hrest : EndsWord called rest)
    (hgap : IsGap gap) : EndsWord called (gap ++ rest) where
  token := hrest.token.append_of_isGap hgap
  parenthesis := by rw [find?_append_of_isGap hgap, hrest.parenthesis]

theorem Spaced.endsWord {c : Char} (h : Spaced (c :: token) cs) (hblank : Text.isBlank c = false)
    (hword : isWordChar c = false ∧ c ≠ baseMark) (rest : List Char) :
    EndsWord (c == '(') (cs ++ rest) where
  token := h.endsToken hword rest
  parenthesis := by
    obtain ⟨before, after, hbefore, -, rfl⟩ := h
    rw [List.append_assoc, find?_append_of_isGap hbefore, List.append_assoc, List.cons_append,
      List.find?_cons_of_pos (by simp [hblank]), Option.some.injEq, beq_iff_eq]

theorem Spaced.endsWord_sign {op : BinaryOp} (h : Spaced op.sign cs) (rest : List Char) :
    EndsWord false (cs ++ rest) := by
  obtain ⟨c, tail, hsign, -, -, hword, hmark, hparenthesis⟩ := BinaryOp.sign_head op
  have hblank : Text.isBlank c = false :=
    BinaryOp.blankFree_sign op c (hsign ▸ List.mem_cons_self)
  rw [hsign] at h
  rw [← beq_eq_false_iff_ne.2 hparenthesis]
  exact h.endsWord hblank ⟨hword, hmark⟩ rest

/-- After an argument of a call, a comma or the end of the arguments follows. -/
theorem Form.WrittenAs.endsWord (h : (Form.further args).WrittenAs cs)
    (hrest : EndsWord false rest) : EndsWord false (cs ++ rest) := by
  cases h with
  | noFurther => exact hrest
  | nextArgument hcomma =>
      rw [List.append_assoc]
      exact hcomma.endsWord (by decide) (by decide) _

/-! ## Numbers and names -/

/-- Wherever nothing prolongs them, the characters `cs` become `cs'`. -/
def Becomes (scope : String → Lookup) (called : Bool) (cs cs' : List Char) : Prop :=
  ∀ rest, EndsWord called rest → substitute scope (cs ++ rest) = cs' ++ substitute scope rest

/-- A row of characters that continue a literal is copied behind its first character. -/
theorem substitute_literal {c : Char} {tail : List Char}
    (hc : c.isDigit = true ∨ c = baseMark ∨ c = '$') (htail : ∀ d ∈ tail, isLiteralChar d = true)
    (hrest : EndsToken rest) :
    substitute scope (c :: tail ++ rest) = c :: tail ++ substitute scope rest := by
  have hends : ∀ d, rest.head? = some d → isLiteralChar d = false := by
    intro d hd
    obtain ⟨hword, hmark⟩ := hrest d hd
    rw [isLiteralChar, hword, beq_eq_false_iff_ne.2 hmark, Bool.or_self]
  obtain ⟨htake, hdrop⟩ := takeWhile_append_eq htail hends
  have hfirst : (c.isDigit || c == baseMark || c == '$') = true := by
    simpa [or_assoc] using hc
  rw [List.cons_append, substitute, if_pos hfirst, htake, hdrop, List.cons_append]

theorem isLiteralChar_of_isWordChar {c : Char} (h : isWordChar c = true) :
    isLiteralChar c = true := by
  rw [isLiteralChar, h, Bool.true_or]

theorem IsNumber.isLiteralChar {n : Nat} (h : IsNumber n token) :
    ∀ c ∈ token, Expr.isLiteralChar c = true := by
  have hbased : ∀ {base : Nat} {digits : List Char}, Denotes base digits n →
      ∀ c ∈ digits, Expr.isLiteralChar c = true := fun hdenotes c hc =>
    isLiteralChar_of_isWordChar (isWordChar_of_isBasedDigit (hdenotes.isBasedDigit c hc))
  cases h with
  | decimal _ hdenotes => exact hbased hdenotes
  | hexadecimal hletter hdenotes =>
      rw [List.forall_mem_cons, List.forall_mem_cons]
      refine ⟨by decide, ?_, hbased hdenotes⟩
      rcases hletter with rfl | rfl <;> decide
  | @based size letter base digits hsize hletter hdenotes =>
      have hmem : ∀ pair ∈ baseLetters, Expr.isLiteralChar pair.1 = true := by decide
      rw [List.forall_mem_append, List.forall_mem_cons, List.forall_mem_cons]
      exact ⟨fun c hc => isLiteralChar_of_isWordChar (isWordChar_of_isDigit (hsize c hc)),
        by decide, hmem _ hletter, hbased hdenotes⟩

theorem becomes_number (scope : String → Lookup) {n : Nat} (h : IsNumber n token) :
    Becomes scope false token token := by
  intro rest hrest
  have hall := h.isLiteralChar
  obtain ⟨c, tail, rfl, hc⟩ := h.head
  rw [List.forall_mem_cons] at hall
  exact substitute_literal (hc.imp_right .inl) hall.2 hrest.token

theorem head?_of_isName {name : List Char} (h : IsName name) : name.head? ≠ some '$' := by
  obtain ⟨c, tail, rfl, hstart, -⟩ := h
  intro hhead
  obtain rfl : c = '$' := Option.some.inj hhead
  exact absurd hstart (by decide)

/-- A name is found whole, and replaced unless it is that of a system function. -/
theorem substitute_word {word : List Char} (h : IsWord word text) (hrest : EndsToken rest) :
    substitute scope (word ++ rest) =
      (if text.toList.head? = some '$' then word else replaced scope word rest) ++
        substitute scope rest := by
  have hreplaced : ∀ {c : Char} {tail : List Char}, (c == macroMark || isWordStart c) = true →
      (c.isDigit || c == baseMark || c == '$') = false → (∀ d ∈ tail, isWordChar d = true) →
      substitute scope (c :: tail ++ rest) =
        replaced scope (c :: tail) rest ++ substitute scope rest := by
    intro c tail hstart hliteral htail
    obtain ⟨htake, hdrop⟩ := takeWhile_append_eq htail hrest.not_isWordChar
    rw [List.cons_append, substitute, hliteral, if_neg Bool.false_ne_true, if_pos hstart, htake,
      hdrop]
  cases h with
  | plain hname =>
      rw [String.toList_ofList, if_neg (head?_of_isName hname)]
      obtain ⟨c, tail, rfl, hstart, htail⟩ := hname
      refine hreplaced (by rw [hstart, Bool.or_true]) ?_ htail
      have hmark : c ≠ baseMark := by
        rintro rfl
        exact absurd hstart (by decide)
      have hdollar : c ≠ '$' := by
        rintro rfl
        exact absurd hstart (by decide)
      rw [isDigit_eq_false_of_isWordStart hstart, beq_eq_false_iff_ne.2 hmark,
        beq_eq_false_iff_ne.2 hdollar]
      rfl
  | backtick hname =>
      rw [String.toList_ofList, if_neg (head?_of_isName hname)]
      exact hreplaced (by decide) (by decide) hname.isWordChar
  | dollar hname =>
      rw [String.toList_ofList, List.head?_cons, if_pos rfl]
      exact substitute_literal (.inr (.inr rfl))
        (fun d hd => isLiteralChar_of_isWordChar (hname.isWordChar d hd)) hrest

/-- The name of a call stays. -/
theorem becomes_called (scope : String → Lookup) {word : List Char} (h : IsWord word text) :
    Becomes scope true word word := by
  intro rest hrest
  have hreplaced : replaced scope word rest = word := by
    unfold replaced
    split
    · rw [if_pos (hrest.parenthesis.2 rfl)]
    · rfl
  rw [substitute_word h hrest.token, hreplaced, ite_self]

/-- A name that is not called is replaced by the value that is shown for it. -/
theorem becomes_name (scope : String → Lookup) {word : List Char} (h : IsWord word text) :
    Becomes scope false word ((shown? scope text).elim word fun v => (toString v).toList) := by
  intro rest hrest
  have hparenthesis : (rest.find? fun c => !Text.isBlank c) ≠ some '(' :=
    mt hrest.parenthesis.1 Bool.false_ne_true
  rw [substitute_word h hrest.token, replaced, h.parameterOf_eq, shown?]
  by_cases hdollar : text.toList.head? = some '$'
  · simp only [if_pos hdollar]
    cases scope text <;> rfl
  · simp only [if_neg hdollar, if_neg hparenthesis]
    cases scope text <;> rfl

/-- What stands for a name afterwards is a text of what the name becomes. -/
theorem writtenAs_shown (hscope : Shows scope) {word : List Char} (h : IsWord word text)
    (hspaced : Spaced ((shown? scope text).elim word fun v => (toString v).toList) cs) :
    (Form.expr 12 ((Expr.name text).instantiate scope)).WrittenAs cs := by
  rw [instantiate]
  cases hshown : shown? scope text with
  | none =>
      rw [hshown] at hspaced
      exact .tighter (.name h hspaced)
  | some v =>
      rw [hshown] at hspaced
      exact writtenAs_numeral (hscope text v (known_of_shown? hshown)) hspaced

/-! ## Whole texts -/

/-- A token that becomes another one becomes it between the same gaps. -/
theorem Spaced.exists_becomes (h : Spaced token cs) (htoken : Becomes scope called token token') :
    ∃ cs', Spaced token' cs' ∧ Becomes scope called cs cs' := by
  obtain ⟨before, after, hbefore, hafter, rfl⟩ := h
  refine ⟨before ++ (token' ++ after), ⟨before, after, hbefore, hafter, rfl⟩, ?_⟩
  intro rest hrest
  rw [List.append_assoc, substitute_gap hbefore, List.append_assoc,
    htoken _ (hrest.append_of_isGap hafter), substitute_gap hafter]
  simp only [List.append_assoc]

/-- Substitution turns every text of the grammar into a text of what its tree becomes. -/
theorem Form.WrittenAs.exists_becomes (hscope : Shows scope) {form : Form}
    (h : form.WrittenAs cs) :
    ∃ cs', (form.instantiate scope).WrittenAs cs' ∧ Becomes scope false cs cs' := by
  induction h with
  | tighter _ ih =>
      obtain ⟨cs', hcs, heq⟩ := ih
      exact ⟨cs', hcs.looser (by omega), heq⟩
  | choose _ hquestion _ hcolon _ ihcondition ihyes ihno =>
      obtain ⟨cs', hcs, hcondition⟩ := ihcondition
      obtain ⟨ys', hys, hyes⟩ := ihyes
      obtain ⟨ns', hns, hno⟩ := ihno
      refine ⟨_, .choose hcs hquestion hys hcolon hns, fun rest hrest => ?_⟩
      simp only [List.append_assoc]
      rw [hcondition _ (hquestion.endsWord (by decide) (by decide) _),
        hquestion.substitute_singleton (by decide),
        hyes _ (hcolon.endsWord (by decide) (by decide) _),
        hcolon.substitute_singleton (by decide), hno _ hrest]
  | @leftward op left right ls sign rs hop _ hsign _ ihleft ihright =>
      obtain ⟨k, hk⟩ := level_eq_of_ne_power hop
      obtain ⟨ls', hls, hleft⟩ := ihleft
      obtain ⟨rs', hrs, hright⟩ := ihright
      rw [Form.instantiate, min_eq_left (by omega)] at hls hrs ⊢
      refine ⟨_, .leftward hop hls hsign hrs, fun rest hrest => ?_⟩
      simp only [List.append_assoc]
      rw [hleft _ (hsign.endsWord_sign _), hsign.substitute (BinaryOp.bare_sign op),
        hright _ hrest]
  | power _ hsign _ ihbase ihexponent =>
      obtain ⟨bs', hbs, hbase⟩ := ihbase
      obtain ⟨es', hes, hexponent⟩ := ihexponent
      refine ⟨_, .power hbs hsign hes, fun rest hrest => ?_⟩
      simp only [List.append_assoc]
      rw [hbase _ (hsign.endsWord_sign _), hsign.substitute (BinaryOp.bare_sign .power),
        hexponent _ hrest]
  | @signed op operand sign cs hsign _ ih =>
      obtain ⟨cs', hcs, heq⟩ := ih
      refine ⟨_, .signed hsign hcs, fun rest hrest => ?_⟩
      simp only [List.append_assoc]
      rw [hsign.substitute (UnaryOp.bare_sign op), heq _ hrest]
  | number htoken hspaced =>
      obtain ⟨cs', hcs, heq⟩ := hspaced.exists_becomes (becomes_number scope htoken)
      exact ⟨cs', .tighter (.number htoken hcs), heq⟩
  | name hword hspaced =>
      obtain ⟨cs', hcs, heq⟩ := hspaced.exists_becomes (becomes_name scope hword)
      exact ⟨cs', writtenAs_shown hscope hword hcs, heq⟩
  | call hword hspaced hopening _ hclosing ih =>
      obtain ⟨ws', hws, hname⟩ := hspaced.exists_becomes (becomes_called scope hword)
      obtain ⟨as', has, hargs⟩ := ih
      refine ⟨_, .tighter (.call hword hws hopening has hclosing), fun rest hrest => ?_⟩
      simp only [List.append_assoc]
      rw [hname _ (hopening.endsWord (by decide) (by decide) _),
        hopening.substitute_singleton (by decide),
        hargs _ (hclosing.endsWord (by decide) (by decide) _),
        hclosing.substitute_singleton (by decide)]
  | parentheses hopening _ hclosing ih =>
      obtain ⟨cs', hcs, heq⟩ := ih
      refine ⟨_, .tighter (.parentheses hopening hcs hclosing), fun rest hrest => ?_⟩
      simp only [List.append_assoc]
      rw [hopening.substitute_singleton (by decide),
        heq _ (hclosing.endsWord (by decide) (by decide) _),
        hclosing.substitute_singleton (by decide)]
  | noArguments => exact ⟨[], .noArguments, fun _ _ => rfl⟩
  | firstArgument _ hargs ih ihargs =>
      obtain ⟨cs', hcs, heq⟩ := ih
      obtain ⟨as', has, hfurther⟩ := ihargs
      refine ⟨_, .firstArgument hcs has, fun rest hrest => ?_⟩
      simp only [List.append_assoc]
      rw [heq _ (hargs.endsWord hrest), hfurther _ hrest]
  | noFurther => exact ⟨[], .noFurther, fun _ _ => rfl⟩
  | nextArgument hcomma _ hargs ih ihargs =>
      obtain ⟨cs', hcs, heq⟩ := ih
      obtain ⟨as', has, hfurther⟩ := ihargs
      refine ⟨_, .nextArgument hcomma hcs has, fun rest hrest => ?_⟩
      simp only [List.append_assoc]
      rw [hcomma.substitute_singleton (by decide), heq _ (hargs.endsWord hrest),
        hfurther _ hrest]

/-- A substituted text is a text of the tree with its names replaced. -/
theorem writtenAs_substitute (hscope : Shows scope) {e : Expr}
    (h : (Form.expr 0 e).WrittenAs cs) :
    (Form.expr 0 (e.instantiate scope)).WrittenAs (substitute scope cs) := by
  obtain ⟨cs', hcs, heq⟩ := h.exists_becomes hscope
  have hall := heq [] endsWord_nil
  rw [List.append_nil, substitute, List.append_nil] at hall
  rwa [hall]

end Expr

namespace Formula

open RegisterBank.Expr (Form ScopeOfWords Shows substitute)

variable {f : Formula} {env : Environment} {mode : Mode} {text : String}

theorem shows_lookup (hwords : ScopeOfWords (env.lookup mode))
    (hleast : ∀ name, env.lookup mode name ≠ .known Word.least) : Shows (env.lookup mode) := by
  intro name v hv
  have hrange := hwords name v hv
  have hne : v ≠ Word.least := by
    rintro rfl
    exact hleast name hv
  unfold Word.InRange Word.least Word.greatest at *
  omega

/-- Replacing the known names in a text by their values gives a text that can be read, and the
formula read from it evaluates to the same value or fails for the same reason. The values are words,
and none of them is the least word, because this cannot be written. -/
theorem exists_parse_substitute (h : parse text = .ok f)
    (hwords : ScopeOfWords (env.lookup mode))
    (hleast : ∀ name, env.lookup mode name ≠ .known Word.least) :
    ∃ g, parse (String.ofList (substitute (env.lookup mode) text.toList)) = .ok g ∧
      g.tree = f.tree.instantiate (env.lookup mode) ∧
      g.tree.eval (env.lookup mode) = f.tree.eval (env.lookup mode) := by
  have hscope := shows_lookup hwords hleast
  have hwritten := Expr.writtenAs_of_parse_eq_ok (parse_tree_of_parse_eq_ok h).1
  have hsubstituted := Expr.writtenAs_substitute hscope hwritten
  rw [← String.toList_ofList (l := substitute (env.lookup mode) text.toList)] at hsubstituted
  exact ⟨_, parse_eq_ok_of_writtenAs hsubstituted, rfl, Expr.eval_instantiate hscope f.tree⟩

theorem parse_difference : parse "A - B" =
    .ok ⟨"A - B", .binary .subtract (.name "A") (.name "B")⟩ := by
  have hA : (Form.expr 13 (.name "A")).WrittenAs ['A'] := Expr.writtenAs_letter (by decide)
  have hB : (Form.expr 13 (.name "B")).WrittenAs ['B'] := Expr.writtenAs_letter (by decide)
  have hwritten := hA.join .subtract (by decide) (by decide) (Expr.spaced_between ['-'])
    (hB.looser (by decide))
  exact parse_eq_ok_of_writtenAs (hwritten.looser (Nat.zero_le _))

/-- A negative value is pasted behind a minus sign. -/
theorem exists_parse_substitute_difference :
    let env := (({} : Environment).insert "A" 5).insert "B" (-3)
    String.ofList (substitute (env.lookup .value) "A - B".toList) = "5 - -3" ∧
      ∃ g, parse "5 - -3" = .ok g ∧ g.tree.eval (env.lookup .value) = .ok 8 := by
  intro env
  have htext : String.ofList (substitute (env.lookup .value) "A - B".toList) = "5 - -3" := by
    decide +kernel
  have hlookup : ∀ name v, env.lookup .value name = .known v → v = -3 ∨ v = 5 := by
    intro name v hv
    rw [Environment.lookup_insert, Environment.lookup_insert] at hv
    split at hv
    · exact .inl (Lookup.known.inj hv).symm
    · split at hv
      · exact .inr (Lookup.known.inj hv).symm
      · cases hv
  have hwords : ScopeOfWords (env.lookup .value) := by
    intro name v hv
    rcases hlookup name v hv with rfl | rfl <;> decide
  have hleast : ∀ name, env.lookup .value name ≠ .known Word.least := by
    intro name hv
    exact absurd (hlookup name _ hv) (by decide)
  obtain ⟨g, hg, -, hvalue⟩ := exists_parse_substitute parse_difference hwords hleast
  rw [htext] at hg
  exact ⟨htext, g, hg, hvalue⟩

end Formula

end RegisterBank
