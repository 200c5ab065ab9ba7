/-!
# Pieces between separators

A text is cut at every occurrence of one character. There is always one piece more than there are
separators, and joining the pieces gives the text back.
-/

namespace RegisterBank.Text

def pieces (separator : Char) : List Char → List (List Char)
  | [] => [[]]
  | c :: rest =>
    if c = separator then [] :: pieces separator rest
    else
      match pieces separator rest with
      | [] => [[c]]
      | piece :: others => (c :: piece) :: others

theorem pieces_ne_nil (separator : Char) (cs : List Char) : pieces separator cs ≠ [] := by
  induction cs with
  | nil => simp [pieces]
  | cons c rest ih =>
    by_cases h : c = separator
    · simp [pieces, h]
    · cases hp : pieces separator rest with
      | nil => exact absurd hp ih
      | cons piece others => simp [pieces, h, hp]

/-- The pieces with the separators between them are the text. -/
theorem intercalate_pieces (separator : Char) (cs : List Char) :
    [separator].intercalate (pieces separator cs) = cs := by
  induction cs with
  | nil => rfl
  | cons c rest ih =>
    by_cases h : c = separator
    · cases hp : pieces separator rest with
      | nil => exact absurd hp (pieces_ne_nil separator rest)
      | cons piece others =>
        rw [hp] at ih
        simp [pieces, h, hp, List.intercalate, List.intersperse_cons_cons] at ih ⊢
        exact ih
    · cases hp : pieces separator rest with
      | nil => exact absurd hp (pieces_ne_nil separator rest)
      | cons piece others =>
        rw [hp] at ih
        cases others with
        | nil => simpa [pieces, h, hp, List.intercalate] using ih
        | cons second others =>
          simp [pieces, h, hp, List.intercalate, List.intersperse_cons_cons] at ih ⊢
          exact ih

theorem pieces_of_not_mem {separator : Char} {cs : List Char} (h : separator ∉ cs) :
    pieces separator cs = [cs] := by
  induction cs with
  | nil => rfl
  | cons c rest ih =>
    rw [List.mem_cons, not_or] at h
    simp [pieces, ih h.2, Ne.symm h.1]

/-- A separator ends a piece. -/
theorem pieces_append_cons (separator : Char) (cs rest : List Char) :
    pieces separator (cs ++ separator :: rest) = pieces separator cs ++ pieces separator rest := by
  induction cs with
  | nil => simp [pieces]
  | cons c cs ih =>
    by_cases h : c = separator
    · simp [pieces, h, ih]
    · cases hp : pieces separator cs with
      | nil => exact absurd hp (pieces_ne_nil separator cs)
      | cons piece others => simp [pieces, h, ih, hp]

end RegisterBank.Text
