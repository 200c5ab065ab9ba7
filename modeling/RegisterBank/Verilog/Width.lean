import RegisterBank.Arithmetic.Word
import RegisterBank.Text.Blank
import RegisterBank.Text.Numeral

/-!
# Widths in the hardware language

A width is a text: a number or an expression that the synthesis tool evaluates. The larger of two
widths is folded to a number where both are numbers, and otherwise written as a choice.
-/

namespace RegisterBank.Verilog

/-- The signed 64-bit number that a text is. -/
def numeric? (width : String) : Option Int :=
  (Text.signed? (Text.trimChars width.toList)).bind Word.check?

/-- A text for the larger of two widths. -/
def larger (a b : String) : String :=
  if a = b then a
  else
    match numeric? a, numeric? b with
    | some x, some y => toString (if x ≤ y then y else x)
    | _, _ => s!"(({a} > {b}) ? {a} : {b})"

/-- The vector range of a declaration of the given width; a single bit has none. -/
def range (width : String) : String :=
  if Text.trim width = "1" then "" else s!"[{width}-1:0] "

end RegisterBank.Verilog
