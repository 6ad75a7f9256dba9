/-!
# Binary floating-point numbers of 64 bits

Slider bounds and the numbers of a JSON text are binary64 values. They are kept exactly, as a
mantissa and an exponent, so that reading, printing and comparing them is integer arithmetic. A
`Magnitude` is a finite value without its sign, `Finite64` adds the sign (and so has two zeros),
and `Binary64` adds the infinities and NaN.

`Magnitude.nearest?` rounds a quotient of natural numbers to the nearest magnitude, a tie to the
even mantissa; it is the only place where anything is rounded.
-/

namespace GuiBuilder

/-- The finite binary64 value `mantissa * 2 ^ (exponent - 1074)`. Each value has one
representation: the mantissa has its full 53 bits unless the exponent is the lowest. -/
structure Magnitude where
  /-- The significant bits. -/
  mantissa : Nat
  /-- The exponent, counted from that of the smallest positive value. -/
  exponent : Nat
  canonical : mantissa < Nat.pow 2 53 ∧ exponent ≤ 2045 ∧ (exponent = 0 ∨ Nat.pow 2 52 ≤ mantissa)
deriving DecidableEq

/-- The quotient of two natural numbers, rounded to the nearest one, a tie to the even one. -/
def divNearestEven (n d : Nat) : Nat :=
  let q := n / d
  let r := n % d
  if 2 * r < d then q
  else if d < 2 * r then q + 1
  else if q % 2 = 0 then q
  else q + 1

namespace Magnitude

/-- The value zero. -/
def zero : Magnitude := ⟨0, 0, by decide⟩

instance : Inhabited Magnitude := ⟨zero⟩

/-- The magnitude with this mantissa and exponent, if they are canonical. -/
def ofParts? (mantissa exponent : Nat) : Option Magnitude :=
  if h : mantissa < Nat.pow 2 53 ∧ exponent ≤ 2045 ∧ (exponent = 0 ∨ Nat.pow 2 52 ≤ mantissa) then
    some ⟨mantissa, exponent, h⟩
  else none

/-- The magnitude nearest to `n / d`, a tie going to the even mantissa; none when that lies
beyond the largest one. The quotient is cut to 53 bits; rounding up may carry into a 54th, which
is then the next power of two. -/
def nearest? (n d : Nat) : Option Magnitude :=
  let scaled := n * Nat.pow 2 1074
  let exponent := (scaled / d).log2 - 52
  let mantissa := divNearestEven scaled (d * Nat.pow 2 exponent)
  (ofParts? mantissa exponent).or
    (if mantissa = Nat.pow 2 53 then ofParts? (Nat.pow 2 52) (exponent + 1) else none)

/-- The value as a fraction: `numerator / 2 ^ 1074` is the value. -/
def numerator (x : Magnitude) : Nat := x.mantissa * Nat.pow 2 x.exponent

/-- The value, when it is a natural number. -/
def toNat? (x : Magnitude) : Option Nat :=
  if x.numerator % Nat.pow 2 1074 = 0 then some (x.numerator / Nat.pow 2 1074) else none

/-- The value without its fraction. -/
def floor (x : Magnitude) : Nat := x.numerator / Nat.pow 2 1074

end Magnitude

/-- A finite binary64 value. Zero occurs with both signs. -/
structure Finite64 where
  /-- Whether the sign is minus. -/
  negative : Bool
  /-- The absolute value. -/
  magnitude : Magnitude
deriving DecidableEq

namespace Finite64

/-- Positive zero. -/
def zero : Finite64 := ⟨false, .zero⟩

instance : Inhabited Finite64 := ⟨zero⟩

/-- The number nearest to an integer, if it is within range. -/
def ofInt? (i : Int) : Option Finite64 :=
  (Magnitude.nearest? i.natAbs 1).map fun m => ⟨decide (i < 0), m⟩

/-- The same number with zero made positive: the normal form of numeric equality. -/
def unsignedZero (x : Finite64) : Finite64 :=
  if x.magnitude = .zero then zero else x

/-- Numeric equality: the two zeros are equal. -/
def same (x y : Finite64) : Bool := decide (x.unsignedZero = y.unsignedZero)

/-- The value, when it is an integer. -/
def toInt? (x : Finite64) : Option Int :=
  x.magnitude.toNat?.map fun n => if x.negative then -(n : Int) else n

end Finite64

/-- A binary64 value. -/
inductive Binary64 where
  /-- A finite number. -/
  | finite (x : Finite64)
  /-- An infinity. -/
  | infinite (negative : Bool)
  /-- Not a number. -/
  | nan
deriving DecidableEq

namespace Binary64

instance : Inhabited Binary64 := ⟨.nan⟩

/-- A magnitude with a sign, or an infinity when there is no magnitude. -/
def ofMagnitude? (negative : Bool) : Option Magnitude → Binary64
  | some m => .finite ⟨negative, m⟩
  | none => .infinite negative

/-- Whether the value is one of the two zeros. -/
def isZero : Binary64 → Bool
  | .finite x => decide (x.magnitude = .zero)
  | _ => false

/-- Numeric equality: the two zeros are equal, and what is not a number equals nothing. -/
def same : Binary64 → Binary64 → Bool
  | .finite x, .finite y => x.same y
  | .infinite m, .infinite n => decide (m = n)
  | _, _ => false

end Binary64

end GuiBuilder
