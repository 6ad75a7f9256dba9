import GuiBuilder.Number.Decimal
import GuiBuilder.Text.Basic

/-!
# The written form of a number

A finite number is written with its shortest digits, either positionally (`0.25`, `12.0`) or with
an exponent (`1.5e+16`). A `Layout` holds what differs between the formats of this library: how
small a number may be before the exponent form takes over, how wide the exponent is at least, and
the words for the values that are no numbers. The exponent form takes over at `10 ^ 16` in all of
them.
-/

namespace GuiBuilder

/-- How numbers are written. -/
structure Layout where
  /-- The least decimal exponent that is written positionally. -/
  leastPositional : Int
  /-- The least number of digits of a written exponent. -/
  exponentWidth : Nat
  /-- The word for infinity. -/
  infinity : String
  /-- The word for negative infinity. -/
  negativeInfinity : String
  /-- The word for NaN. -/
  nan : String
deriving DecidableEq

/-- The decimal digits of a number. -/
def decimalDigits (n : Nat) : List Char := Nat.toDigits 10 n

/-- The digits of an exponent: its sign, then at least `width` digits. -/
def exponentDigits (width : Nat) (e : Int) : List Char :=
  let digits := decimalDigits e.natAbs
  (if e < 0 then '-' else '+') :: (List.replicate (width - digits.length) '0' ++ digits)

/-- A decimal written positionally, with at least one digit on either side of the point. -/
def Decimal.positional (d : Decimal) : List Char :=
  let digits := decimalDigits d.digits
  if 0 ≤ d.exponent then
    digits ++ List.replicate d.exponent.toNat '0' ++ ['.', '0']
  else
    let places := (-d.exponent).toNat
    if places < digits.length then
      digits.take (digits.length - places) ++ ('.' :: digits.drop (digits.length - places))
    else
      '0' :: '.' :: (List.replicate (places - digits.length) '0' ++ digits)

/-- A decimal written with one digit before the point and an exponent. -/
def Decimal.scientific (width : Nat) (d : Decimal) : List Char :=
  let digits := decimalDigits d.digits
  let fraction := digits.drop 1
  digits.take 1 ++ (if fraction.isEmpty then [] else '.' :: fraction)
    ++ ('e' :: exponentDigits width (d.exponent + (digits.length - 1 : Nat)))

namespace Layout

/-- The written form of a magnitude. -/
def magnitude (layout : Layout) (x : Magnitude) : List Char :=
  let d := x.shortest
  let leading := d.exponent + ((decimalDigits d.digits).length - 1 : Nat)
  if d.digits = 0 then ['0', '.', '0']
  else if layout.leastPositional ≤ leading ∧ leading < 16 then d.positional
  else d.scientific layout.exponentWidth

/-- A minus sign before the written form of a negative value. -/
def signed (negative : Bool) (digits : List Char) : List Char :=
  if negative then '-' :: digits else digits

/-- The written form of a finite number. -/
def finite (layout : Layout) (x : Finite64) : Text :=
  (signed x.negative (layout.magnitude x.magnitude)).map CodePoint.char

/-- The written form of a number. -/
def write (layout : Layout) : Binary64 → Text
  | .finite x => layout.finite x
  | .infinite negative =>
    Text.ofString (if negative then layout.negativeInfinity else layout.infinity)
  | .nan => Text.ofString layout.nan

end Layout

/-- Numbers as they are shown: positional from `10 ^ -4`, exponents of at least two digits. -/
def Layout.display : Layout := ⟨-4, 2, "inf", "-inf", "nan"⟩

end GuiBuilder
