import GuiBuilder.Number.Binary64

/-!
# Decimal numbers and binary magnitudes

A `Decimal` is digits and a power of ten. `Decimal.toMagnitude?` reads one as the nearest binary
magnitude. `Magnitude.shortest` writes a magnitude as a decimal that reads back as that magnitude:
it takes the coarsest decimal grid on which one of the two neighbours of the value reads back, and
the nearer of the two when both do.
-/

namespace GuiBuilder

/-- The number `digits * 10 ^ exponent`. -/
structure Decimal where
  /-- The significant digits, as one number. -/
  digits : Nat
  /-- The power of ten. -/
  exponent : Int
deriving DecidableEq

/-- The magnitude nearest to a decimal, or none when the decimal is too large for one. Exponents
far outside the range are decided without computing the power: ten to the `k` has more than `3 k`
bits. -/
def Decimal.toMagnitude? (d : Decimal) : Option Magnitude :=
  if d.digits = 0 then some .zero
  else if 0 ≤ d.exponent then
    if 342 < d.exponent then none
    else Magnitude.nearest? (d.digits * Nat.pow 10 d.exponent.toNat) 1
  else
    let k := (-d.exponent).toNat
    if d.digits.log2 + 1077 ≤ 3 * k then some .zero
    else Magnitude.nearest? d.digits (Nat.pow 10 k)

namespace Magnitude

/-- The decimal that is exactly the value. -/
def exactDecimal (x : Magnitude) : Decimal :=
  if x.exponent < 1074 then
    ⟨x.mantissa * Nat.pow 5 (1074 - x.exponent), (x.exponent : Int) - 1074⟩
  else
    ⟨x.mantissa * Nat.pow 2 (x.exponent - 1074), 0⟩

/-- A multiple of `10 ^ grid` next to the value that reads back as the value: of the two
neighbours the nearer one, a tie going to the even digit. -/
def neighbour? (x : Magnitude) (grid : Int) : Option Decimal :=
  let n := if 0 ≤ grid then x.numerator else x.numerator * Nat.pow 10 (-grid).toNat
  let d := if 0 ≤ grid then Nat.pow 2 1074 * Nat.pow 10 grid.toNat else Nat.pow 2 1074
  let below : Decimal := ⟨n / d, grid⟩
  let above : Decimal := ⟨n / d + 1, grid⟩
  let ordered := if divNearestEven n d = n / d then [below, above] else [above, below]
  ordered.find? fun c => decide (c.toMagnitude? = some x)

/-- The first neighbour that reads back, on the grid `10 ^ grid` or one of the next finer ones. -/
def findNeighbour? (x : Magnitude) : (tries : Nat) → (grid : Int) → Option Decimal
  | 0, _ => none
  | tries + 1, grid => (x.neighbour? grid).or (x.findNeighbour? tries (grid - 1))

/-- A power of ten above which no grid has a neighbour that reads back, by at most two. -/
def coarsestGrid (x : Magnitude) : Int :=
  (((x.mantissa.log2 : Int) + 1 + x.exponent - 1074) * 30103).fdiv 100000 + 1

/-- The shortest decimal that reads back as the value, the nearest of the shortest ones. -/
def shortest (x : Magnitude) : Decimal :=
  if x.mantissa = 0 then ⟨0, 0⟩
  else (x.findNeighbour? 20 x.coarsestGrid).getD x.exactDecimal

end Magnitude

end GuiBuilder
