import Mathlib.Algebra.Ring.Parity
import Mathlib.Data.List.Induction
import RegisterBank.Manual.Escape

/-!
# Escaped text as TeX reads it

TeX takes a special character for plain text if an odd number of backslashes stands before it, since
every other backslash belongs to the one before it. Escaping writes one backslash before each
special character and does not look at what stands before: a character that has an odd number of
backslashes before it already is plain without the escape and special with it
(`occurrences_escapeChars`). So the cells of a row are read back from the row if and only if no
special character in them is escaped already (`reads_join_iff`).

What stands before the rest of a text is carried along, so a count goes on where another one ended.
-/

namespace RegisterBank.Manual

variable {before before' s t cell : List Char} {c d : Char} {escaped : Bool}
  {cells : List (List Char)}

/-! ## Escaped characters -/

/-- The number of backslashes at the end of a text. -/
def backslashes (before : List Char) : Nat :=
  (before.reverse.takeWhile (· == '\\')).length

/-- The text makes the character after it plain. -/
def Escapes (before : List Char) : Prop :=
  Odd (backslashes before)

instance : DecidablePred Escapes := fun before =>
  inferInstanceAs (Decidable (Odd (backslashes before)))

theorem not_escapes_nil : ¬ Escapes [] := by decide

theorem escapes_append_singleton : Escapes (before ++ [c]) ↔ c = '\\' ∧ ¬ Escapes before := by
  by_cases hc : c = '\\'
  · simp [Escapes, backslashes, hc, Nat.odd_add_one]
  · simp [Escapes, backslashes, hc]

theorem not_escapes_append_singleton (hc : c ≠ '\\') : ¬ Escapes (before ++ [c]) :=
  fun h => hc (escapes_append_singleton.1 h).1

theorem escapes_append_congr (h : Escapes before ↔ Escapes before') (s : List Char) :
    Escapes (before ++ s) ↔ Escapes (before' ++ s) := by
  induction s generalizing before before' with
  | nil => simpa using h
  | cons c s ih =>
      rw [List.append_cons, List.append_cons before']
      exact ih (by rw [escapes_append_singleton, escapes_append_singleton, h])

/-- How often a character stands escaped, or not escaped, in a text after `before`. -/
def occurrences (c : Char) (escaped : Bool) (before : List Char) : List Char → Nat
  | [] => 0
  | d :: rest =>
    (if d = c ∧ decide (Escapes before) = escaped then 1 else 0)
      + occurrences c escaped (before ++ [d]) rest

theorem occurrences_cons (c : Char) (escaped : Bool) (before : List Char) (d : Char)
    (rest : List Char) :
    occurrences c escaped before (d :: rest) =
      (if d = c ∧ decide (Escapes before) = escaped then 1 else 0)
        + occurrences c escaped (before ++ [d]) rest := rfl

theorem occurrences_append (s t : List Char) :
    occurrences c escaped before (s ++ t) =
      occurrences c escaped before s + occurrences c escaped (before ++ s) t := by
  induction s generalizing before with
  | nil => simp [occurrences]
  | cons d s ih =>
      have hbefore : before ++ d :: s = before ++ [d] ++ s := List.append_cons ..
      rw [List.cons_append, occurrences_cons, occurrences_cons, ih, hbefore, Nat.add_assoc]

/-- Of the text before only matters whether it escapes the first character. -/
theorem occurrences_congr (h : Escapes before ↔ Escapes before') (s : List Char) :
    occurrences c escaped before s = occurrences c escaped before' s := by
  induction s generalizing before before' with
  | nil => rfl
  | cons d s ih =>
      have hnext : Escapes (before ++ [d]) ↔ Escapes (before' ++ [d]) := escapes_append_congr h [d]
      rw [occurrences_cons, occurrences_cons, ih hnext, decide_eq_decide.2 h]

theorem occurrences_of_not_mem (h : c ∉ s) : occurrences c escaped before s = 0 := by
  induction s generalizing before with
  | nil => rfl
  | cons d s ih =>
      rw [List.mem_cons, not_or] at h
      rw [occurrences_cons, ih h.2, if_neg fun hd => h.1 hd.1.symm]

/-- A character stands nowhere as counted if it stands otherwise everywhere. -/
theorem occurrences_eq_zero_iff :
    occurrences c escaped before s = 0 ↔
      ∀ head tail, s = head ++ c :: tail → decide (Escapes (before ++ head)) ≠ escaped := by
  induction s generalizing before with
  | nil => simp [occurrences]
  | cons d s ih =>
      rw [occurrences_cons, Nat.add_eq_zero_iff, ih]
      constructor
      · rintro ⟨hfirst, hrest⟩ head tail hsplit
        cases head with
        | nil =>
            obtain ⟨rfl, -⟩ := List.cons.inj hsplit
            rw [List.append_nil]
            exact fun hescaped => by simp [hescaped] at hfirst
        | cons e head =>
            rw [List.cons_append] at hsplit
            obtain ⟨rfl, htail⟩ := List.cons.inj hsplit
            rw [List.append_cons]
            exact hrest head tail htail
      · intro hall
        refine ⟨if_neg ?_, ?_⟩
        · rintro ⟨rfl, hescaped⟩
          exact hall [] s rfl (by rwa [List.append_nil])
        · intro head tail hsplit
          rw [← List.append_cons]
          exact hall (d :: head) tail (by rw [hsplit, List.cons_append])

/-! ## Escaping -/

theorem isSpecial_iff :
    isSpecial c = true ↔ c ∈ ['&', '_', '%', '$', '#', '\x7b', '\x7d'] := by
  simp [isSpecial]
  tauto

/-- A text without special characters. -/
def Plain (text : List Char) : Prop :=
  ∀ c ∈ text, isSpecial c = false

instance : DecidablePred Plain := fun s =>
  decidable_of_iff (s.any isSpecial = false) (by simp [Plain])

/-- Every special character of the text has an even number of backslashes before it. -/
def Clean (text : List Char) : Prop :=
  ∀ head c tail, text = head ++ c :: tail → isSpecial c = true → ¬ Escapes head

theorem clean_iff : Clean s ↔ ∀ c, isSpecial c = true → occurrences c true [] s = 0 := by
  simp only [occurrences_eq_zero_iff, List.nil_append, ne_eq, decide_eq_true_eq]
  exact ⟨fun h c hc head tail hsplit => h head c tail hsplit hc,
    fun h head c tail hsplit hc => h c hc head tail hsplit⟩

theorem Clean.of_append (h : Clean (s ++ t)) (hs : ¬ Escapes s) : Clean t := by
  intro head c tail ht hc hescapes
  refine h (s ++ head) c tail (by rw [ht, List.append_assoc]) hc ?_
  exact (escapes_append_congr (iff_of_false hs not_escapes_nil) head).2 hescapes

instance : DecidablePred Clean := fun s =>
  decidable_of_iff
    (['&', '_', '%', '$', '#', '\x7b', '\x7d'].all fun c => occurrences c true [] s == 0)
    (by simp only [clean_iff, isSpecial_iff, List.all_eq_true, beq_iff_eq])

theorem clean_of_plain (h : Plain s) : Clean s := by
  rintro head c tail rfl hc
  exact absurd (h c (List.mem_append_right head List.mem_cons_self)) (by simp [hc])

/-- Text without special characters on either side leaves a text as clean as it is. -/
theorem clean_append_append_iff (hbefore : Plain before) (hescapes : ¬ Escapes before)
    (ht : Plain t) : Clean (before ++ s ++ t) ↔ Clean s := by
  have hnot : ∀ {u : List Char}, Plain u → ∀ c, isSpecial c = true → c ∉ u :=
    fun hu c hc hmem => Bool.false_ne_true ((hu c hmem).symm.trans hc)
  rw [clean_iff, clean_iff]
  refine forall₂_congr fun c hc => ?_
  rw [occurrences_append, occurrences_append, occurrences_of_not_mem (hnot hbefore c hc),
    occurrences_of_not_mem (hnot ht c hc), Nat.zero_add, Nat.add_zero, List.nil_append,
    occurrences_congr (iff_of_false hescapes not_escapes_nil)]

theorem ne_backslash_of_isSpecial (h : isSpecial c = true) : c ≠ '\\' := by
  rintro rfl
  exact absurd h (by decide)

/-- After escaping, those special characters are not escaped that were escaped before. -/
theorem occurrences_escapeChars (hc : isSpecial c = true)
    (h : Escapes before ↔ Escapes before') (s : List Char) :
    occurrences c false before (escapeChars s) = occurrences c true before' s := by
  induction s generalizing before before' with
  | nil => rfl
  | cons d s ih =>
      by_cases hd : isSpecial d = true
      · have hd' := ne_backslash_of_isSpecial hd
        have hnext : Escapes (before ++ ['\\'] ++ [d]) ↔ Escapes (before' ++ [d]) :=
          iff_of_false (not_escapes_append_singleton hd') (not_escapes_append_singleton hd')
        have hescaped : decide (Escapes (before ++ ['\\'])) = false ↔
            decide (Escapes before') = true := by
          simp [escapes_append_singleton, h]
        rw [escapeChars, if_pos hd, occurrences_cons, occurrences_cons, occurrences_cons, ih hnext,
          if_neg fun hback => ne_backslash_of_isSpecial hc hback.1.symm, Nat.zero_add]
        simp only [hescaped]
      · have hne : d ≠ c := fun hdc => hd (hdc ▸ hc)
        rw [escapeChars, if_neg hd, occurrences_cons, occurrences_cons,
          ih (escapes_append_congr h [d]), if_neg fun hdc => hne hdc.1, if_neg fun hdc => hne hdc.1]

theorem escapes_escapeChars : Escapes (escapeChars s) ↔ Escapes s := by
  induction s using List.reverseRecOn with
  | nil => rfl
  | append_singleton s c ih =>
      by_cases hc : isSpecial c = true
      · have hne := ne_backslash_of_isSpecial hc
        rw [escapeChars_append, escapeChars, if_pos hc, escapeChars, List.append_cons]
        exact iff_of_false (not_escapes_append_singleton hne) (not_escapes_append_singleton hne)
      · rw [escapeChars_append, escapeChars, if_neg hc, escapeChars, escapes_append_singleton,
          escapes_append_singleton, ih]

theorem escapeChars_of_plain (h : Plain s) : escapeChars s = s := by
  induction s with
  | nil => rfl
  | cons c s ih =>
      rw [Plain, List.forall_mem_cons] at h
      rw [escapeChars, if_neg (by simp [h.1]), ih h.2]

/-- The plain text that TeX shows for escaped text. A backslash before any other character than a
special one is kept, together with that character. -/
def unescape : List Char → List Char
  | '\\' :: c :: rest => if isSpecial c then c :: unescape rest else '\\' :: c :: unescape rest
  | c :: rest => c :: unescape rest
  | [] => []

/-- Escaped text shows what it was written from. -/
theorem unescape_escapeChars (h : Clean s) : unescape (escapeChars s) = s := by
  induction s using unescape.induct with
  | case1 c rest hc ih =>
      exact absurd (show Escapes ['\\'] by decide) (h ['\\'] c rest rfl hc)
  | case2 c rest hc ih =>
      have hbackslash : isSpecial '\\' = false := by decide
      have hpair : ¬ Escapes (['\\'] ++ [c]) := fun hescapes =>
        (escapes_append_singleton.1 hescapes).2 (by decide)
      have hrest : Clean rest := h.of_append (s := ['\\', c]) hpair
      simp [escapeChars, hbackslash, hc, unescape, ih hrest]
  | case3 c rest hpair ih =>
      by_cases hback : c = '\\'
      · cases rest with
        | nil => simp [hback, escapeChars, unescape, show isSpecial '\\' = false by decide]
        | cons d rest => exact (hpair d rest hback rfl).elim
      · have hfirst : ¬ Escapes ([] ++ [c]) := not_escapes_append_singleton hback
        have hrest : Clean rest := h.of_append (s := [c]) hfirst
        by_cases hc : isSpecial c = true
        · simp [escapeChars, hc, unescape, ih hrest]
        · simp [escapeChars, hc, unescape, hback, ih hrest]
  | case4 => rfl

/-! ## Cells -/

/-- The cells of a row: what stands between its ampersands that are not escaped. -/
def columns (before : List Char) : List Char → List (List Char)
  | [] => [[]]
  | c :: rest =>
    if c = '&' ∧ ¬ Escapes before then [] :: columns (before ++ [c]) rest
    else (columns (before ++ [c]) rest).modifyHead (c :: ·)

theorem columns_congr (h : Escapes before ↔ Escapes before') (s : List Char) :
    columns before s = columns before' s := by
  induction s generalizing before before' with
  | nil => rfl
  | cons c s ih =>
      rw [columns, columns, ih (escapes_append_congr h [c])]
      simp only [h]

/-- Text in which all ampersands are escaped belongs to one cell. -/
theorem columns_append (hcell : occurrences '&' false before cell = 0) (s : List Char) :
    columns before (cell ++ s) = (columns (before ++ cell) s).modifyHead (cell ++ ·) := by
  induction cell generalizing before with
  | nil => simp [show (fun x : List Char => x) = id from rfl]
  | cons c cell ih =>
      rw [occurrences_cons, Nat.add_eq_zero_iff] at hcell
      have hopen : ¬ (c = '&' ∧ ¬ Escapes before) := by
        rintro ⟨hc, hescapes⟩
        simp [hc, hescapes] at hcell
      have hbefore : before ++ c :: cell = before ++ [c] ++ cell := List.append_cons ..
      rw [List.cons_append, columns, if_neg hopen, ih hcell.2, hbefore, List.modifyHead_modifyHead]
      rfl

theorem columns_of_occurrences_eq_zero (h : occurrences '&' false [] cell = 0) :
    columns [] cell = [cell] := by
  have hcell := columns_append h []
  rwa [List.append_nil, columns, List.modifyHead_cons, List.append_nil] at hcell

/-- An ampersand after a cell that does not escape it begins the next cell. -/
theorem columns_append_cons (hcell : occurrences '&' false [] cell = 0) (hends : ¬ Escapes cell)
    (s : List Char) : columns [] (cell ++ '&' :: s) = cell :: columns [] s := by
  have hnext : Escapes ([] ++ cell ++ ['&']) ↔ Escapes [] :=
    iff_of_false (not_escapes_append_singleton (by decide)) not_escapes_nil
  rw [columns_append hcell, columns, if_pos ⟨rfl, hends⟩, columns_congr hnext,
    List.modifyHead_cons, List.append_nil]

theorem columns_intercalate (hne : cells ≠ [])
    (hcells : ∀ cell ∈ cells, occurrences '&' false [] cell = 0 ∧ ¬ Escapes cell) :
    columns [] (['&'].intercalate cells) = cells := by
  induction cells with
  | nil => exact absurd rfl hne
  | cons cell rest ih =>
      rw [List.forall_mem_cons] at hcells
      obtain ⟨⟨hcell, hends⟩, hrest⟩ := hcells
      cases rest with
      | nil => rw [List.intercalate_singleton, columns_of_occurrences_eq_zero hcell]
      | cons next rest =>
          rw [List.intercalate_cons_cons, List.append_assoc, List.singleton_append,
            columns_append_cons hcell hends, ih (List.cons_ne_nil _ _) hrest]

/-- What stands not escaped in a row are its separators and what stands so in a cell. -/
theorem occurrences_intercalate (hends : ∀ cell ∈ cells, ¬ Escapes cell) :
    occurrences c false [] (['&'].intercalate cells) =
      (if c = '&' then cells.length - 1 else 0) + (cells.map (occurrences c false [])).sum := by
  induction cells with
  | nil => simp [List.intercalate, occurrences]
  | cons cell rest ih =>
      rw [List.forall_mem_cons] at hends
      obtain ⟨hcell, hrest⟩ := hends
      cases rest with
      | nil => simp
      | cons next rest =>
          have hnext : Escapes (cell ++ ['&']) ↔ Escapes [] :=
            iff_of_false (not_escapes_append_singleton (by decide)) not_escapes_nil
          rw [List.intercalate_cons_cons, List.append_assoc, List.singleton_append,
            occurrences_append, List.nil_append, occurrences_cons, occurrences_congr hnext,
            ih hrest]
          simp only [List.map_cons, List.sum_cons, List.length_cons]
          by_cases hc : '&' = c
          · rw [if_pos ⟨hc, decide_eq_false hcell⟩, if_pos hc.symm, if_pos hc.symm]
            omega
          · rw [if_neg fun h => hc h.1, if_neg fun h => hc h.symm, if_neg fun h => hc h.symm]
            omega

/-! ## Rows -/

/-- TeX reads the texts in the cells of a row: there is one separator between any two cells, each
cell shows its text, and no other special character has its meaning. -/
structure Reads (row : List Char) (texts : List (List Char)) : Prop where
  separators : occurrences '&' false [] row + 1 = texts.length
  cells : (columns [] row).map unescape = texts
  escaped : ∀ head c tail, row = head ++ c :: tail →
    c ∈ ['_', '%', '$', '#', '\x7b', '\x7d'] → Escapes head

variable {texts : List (List Char)}

/-- A special character stands not escaped in the row where it separates cells and where a text has
escaped it already. -/
theorem occurrences_join (hc : isSpecial c = true) (hends : ∀ text ∈ texts, ¬ Escapes text) :
    occurrences c false [] (['&'].intercalate (texts.map escapeChars)) =
      (if c = '&' then texts.length - 1 else 0) + (texts.map (occurrences c true [])).sum := by
  have hcells : ∀ cell ∈ texts.map escapeChars, ¬ Escapes cell := by
    simpa [escapes_escapeChars] using hends
  rw [occurrences_intercalate hcells, List.length_map, List.map_map]
  congr 2
  exact List.map_congr_left fun text _ => occurrences_escapeChars hc Iff.rfl text

theorem forall_clean_iff :
    (∀ text ∈ texts, Clean text) ↔
      ∀ c, isSpecial c = true → (texts.map (occurrences c true [])).sum = 0 := by
  simp only [clean_iff, List.sum_eq_zero_iff_forall_eq_nat, List.forall_mem_map]
  exact ⟨fun h c hc text htext => h text htext c hc, fun h text htext c hc => h c hc text htext⟩

/-- The texts that are escaped and joined to a row are read in it if and only if all of them are
clean. -/
theorem reads_join_iff (hne : texts ≠ []) (hends : ∀ text ∈ texts, ¬ Escapes text) :
    Reads (['&'].intercalate (texts.map escapeChars)) texts ↔ ∀ text ∈ texts, Clean text := by
  have hlength : 0 < texts.length := List.length_pos_iff.2 hne
  constructor
  · intro h
    rw [forall_clean_iff]
    intro c hc
    rcases List.mem_cons.1 (isSpecial_iff.1 hc) with rfl | hother
    · have hcount := h.separators
      rw [occurrences_join hc hends, if_pos rfl] at hcount
      omega
    · have hnone : occurrences c false [] (['&'].intercalate (texts.map escapeChars)) = 0 :=
        occurrences_eq_zero_iff.2 fun head tail hsplit => by
          simpa using h.escaped head c tail hsplit hother
      rw [occurrences_join hc hends] at hnone
      exact (Nat.add_eq_zero_iff.1 hnone).2
  · intro hclean
    have hcount := forall_clean_iff.1 hclean
    refine ⟨?_, ?_, ?_⟩
    · rw [occurrences_join (by decide) hends, if_pos rfl, hcount _ (by decide)]
      omega
    · have hcells : ∀ cell ∈ texts.map escapeChars,
          occurrences '&' false [] cell = 0 ∧ ¬ Escapes cell := by
        rw [List.forall_mem_map]
        intro text htext
        rw [occurrences_escapeChars (by decide) Iff.rfl, escapes_escapeChars]
        exact ⟨clean_iff.1 (hclean text htext) '&' (by decide), hends text htext⟩
      rw [columns_intercalate (by simpa using hne) hcells, List.map_map]
      calc texts.map (unescape ∘ escapeChars)
        _ = texts.map id :=
          List.map_congr_left fun text htext => unescape_escapeChars (hclean text htext)
        _ = texts := List.map_id texts
    · intro head c tail hsplit hc
      have hspecial := isSpecial_iff.2 (List.mem_cons_of_mem _ hc)
      have hne : c ≠ '&' := by
        rintro rfl
        exact absurd hc (by decide)
      have hnone := occurrences_join hspecial hends
      rw [if_neg hne, hcount c hspecial] at hnone
      simpa using occurrences_eq_zero_iff.1 hnone head tail hsplit

end RegisterBank.Manual
