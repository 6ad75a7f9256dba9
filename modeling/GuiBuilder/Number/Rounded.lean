import GuiBuilder.Number.Layout

/-!
# Numbers rounded to significant digits

Besides the shortest form there is one with a given number of significant digits, of which the
zeros at the end are left out. It is positional where the leading digit stands for `10 ^ -4` up to
the last of the significant digits, has an exponent of two digits at least otherwise, and always a
digit on either side of the point.
-/

namespace GuiBuilder

/-- A decimal without the zeros at the end of its digits. `fuel` bounds their number. -/
def Decimal.withoutZeros : (fuel : Nat) → Decimal → Decimal
  | 0, d => d
  | fuel + 1, d =>
    if d.digits % 10 = 0 ∧ d.digits ≠ 0 then withoutZeros fuel ⟨d.digits / 10, d.exponent + 1⟩ else d

/-- A decimal as one with at most `places` digits, a half rounded up. -/
def Decimal.rounded (places : Nat) (d : Decimal) : Decimal :=
  let excess := (decimalDigits d.digits).length - places
  let unit := Nat.pow 10 excess
  Decimal.withoutZeros (places + 1)
    ⟨(2 * d.digits + unit) / (2 * unit), d.exponent + (excess : Nat)⟩

/-- A decimal written with one digit before the point, at least one behind it, and an exponent. -/
def Decimal.scientificPointed (width : Nat) (d : Decimal) : List Char :=
  let digits := decimalDigits d.digits
  let fraction := digits.drop 1
  digits.take 1 ++ ('.' :: if fraction.isEmpty then ['0'] else fraction)
    ++ ('e' :: exponentDigits width (d.exponent + (digits.length - 1 : Nat)))

/-- A finite number with at most `places` significant digits. Zero has no sign. -/
def Layout.rounded (places : Nat) (x : Finite64) : Text :=
  let d := x.magnitude.exactDecimal.rounded places
  let leading := d.exponent + ((decimalDigits d.digits).length - 1 : Nat)
  let digits :=
    if d.digits = 0 then ['0', '.', '0']
    else if -4 ≤ leading ∧ leading < places then d.positional
    else d.scientificPointed 2
  (Layout.signed (x.negative && decide (d.digits ≠ 0)) digits).map CodePoint.char

end GuiBuilder
