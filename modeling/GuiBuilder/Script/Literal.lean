import GuiBuilder.Fault
import GuiBuilder.Number.Layout
import GuiBuilder.Text.Basic

/-!
# Literals of a script

Texts, numbers and truth values as literals of Lua. A text literal stands between double quotes
and stays on its line: quotes, backslashes and the characters that would end the line are escaped,
and the other control characters are written as three decimal digits. An integer with too many
digits cannot be written.
-/

namespace GuiBuilder.Script

/-- Three decimal digits of a number below 1000. -/
def threeDigits (n : Nat) : List Char :=
  [Nat.digitChar (n / 100 % 10), Nat.digitChar (n / 10 % 10), Nat.digitChar (n % 10)]

/-- A code point inside a text literal. -/
def escaped (p : CodePoint) : Text :=
  match p with
  | .char '\\' => [.char '\\', .char '\\']
  | .char '"' => [.char '\\', .char '"']
  | .char '\n' => [.char '\\', .char 'n']
  | .char '\r' => [.char '\\', .char 'r']
  | .char '\t' => [.char '\\', .char 't']
  | p =>
    if p.toNat < 32 ∨ p.toNat = 127 then .char '\\' :: (threeDigits p.toNat).map CodePoint.char
    else [p]

/-- A text as a literal. -/
def quoted (t : Text) : Text := .char '"' :: t.flatMap escaped ++ [.char '"']

/-- A natural number as a literal, unless it has more digits than an integer may have. -/
def integer (n : Nat) : Except Fault Text :=
  if Numeral.maxIntegerDigits < (decimalDigits n).length then .error .unwritableInteger
  else .ok (Text.ofNat n)

/-- A number as a literal: integral values without a point, others with their shortest digits. -/
def number (x : Finite64) : Text :=
  match x.toInt? with
  | some i => Text.ofInt i
  | none => Layout.display.finite x

/-- Any binary64 value as it would stand in a script. -/
def numeral : Binary64 → Text
  | .finite x => number x
  | x => Layout.display.write x

/-- A truth value as a literal. -/
def boolean (b : Bool) : Text := Text.ofString (if b then "true" else "false")

end GuiBuilder.Script
