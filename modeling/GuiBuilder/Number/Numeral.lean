import GuiBuilder.Number.Decimal
import GuiBuilder.Text.Blank

/-!
# Numbers in texts

A numeral is a sign, digits before and after a point, and a power of ten. Texts that stand for a
number are read in two ways: `Numeral.float?` accepts a point, an exponent and the words for
infinity and NaN; `Numeral.int?` accepts an integer, with a fraction of zeros at most. Both read
ASCII digits only. White space may surround a number and underscores may separate its parts, in the
case of `Numeral.float?` only one of the two.
-/

namespace GuiBuilder

/-- The value of an ASCII digit. -/
def CodePoint.digit? : CodePoint → Option Nat
  | .char c => if c.isDigit then some (c.toNat - '0'.toNat) else none
  | .surrogate _ => none

/-- The digits at the start of a text, and what follows them. -/
def Text.spanDigits : Text → List Nat × Text
  | [] => ([], [])
  | p :: t =>
    match p.digit? with
    | some d => (d :: (spanDigits t).1, (spanDigits t).2)
    | none => ([], p :: t)

/-- The number that a list of decimal digits spells. -/
def digitsValue (digits : List Nat) : Nat := digits.foldl (fun n d => 10 * n + d) 0

/-- A number as it is written: a sign, digits before and after the point, a power of ten. -/
structure Numeral where
  negative : Bool
  whole : List Nat
  fraction : List Nat
  exponent : Int
deriving DecidableEq

namespace Numeral

/-- The decimal that a numeral spells, without its sign. -/
def decimal (n : Numeral) : Decimal :=
  ⟨digitsValue (n.whole ++ n.fraction), n.exponent - n.fraction.length⟩

/-- The binary64 value nearest to a numeral. -/
def toBinary64 (n : Numeral) : Binary64 :=
  Binary64.ofMagnitude? n.negative n.decimal.toMagnitude?

end Numeral

namespace Text

/-- A sign at the start of a text: whether it is minus, and what follows it. -/
def spanSign : Text → Bool × Text
  | .char '-' :: t => (true, t)
  | .char '+' :: t => (false, t)
  | t => (false, t)

/-- A character in lower case, as far as it is an ASCII letter. -/
def lowerAscii (t : Text) : Text :=
  t.map fun p => match p with
    | .char c => .char c.toLower
    | .surrogate i => .surrogate i

/-- The exponent that a text consists of: nothing, or a mark, a sign and digits. -/
def exponent? (t : Text) : Option Int :=
  match lowerAscii (t.take 1), t.drop 1 with
  | [], _ => some 0
  | [.char 'e'], rest =>
    let (negative, digits) := spanSign rest
    match spanDigits digits with
    | (d :: ds, []) =>
      let n : Int := digitsValue (d :: ds)
      some (if negative then -n else n)
    | _ => none
  | _, _ => none

/-- Whether an underscore stands at an end of the text or beside another one. -/
def hasLooseUnderscore (t : Text) : Bool :=
  let pieces := t.split (.char '_')
  decide (1 < pieces.length) && pieces.any List.isEmpty

/-- The text without its underscores, if it has some and each of them stands alone inside it. -/
def joined? (t : Text) : Option Text :=
  if t.contains (.char '_') && !t.hasLooseUnderscore then
    some (t.filter fun p => decide (p ≠ .char '_'))
  else none

end Text

namespace Numeral

/-- An unsigned number: digits, an optional point and fraction, an optional exponent. -/
def unsigned? (negative : Bool) (t : Text) : Option Numeral :=
  let (whole, rest) := Text.spanDigits t
  let (fraction, rest) := match rest with
    | .char '.' :: r => Text.spanDigits r
    | _ => ([], rest)
  if whole.isEmpty && fraction.isEmpty then none
  else (Text.exponent? rest).map fun e => ⟨negative, whole, fraction, e⟩

/-- The number that is written without underscores and white space: a numeral, or a word for
infinity or NaN in any case. -/
def plainFloat? (t : Text) : Option Binary64 :=
  let (negative, rest) := Text.spanSign t
  let word := Text.lowerAscii rest
  if word = Text.ofString "inf" ∨ word = Text.ofString "infinity" then
    some (.infinite negative)
  else if word = Text.ofString "nan" then some .nan
  else (unsigned? negative rest).map toBinary64

/-- The number that a text stands for. White space may surround a number that is written without
underscores, and underscores may separate the parts of one without white space. -/
def float? (t : Text) : Option Binary64 :=
  (plainFloat? t.trim).or (t.joined?.bind plainFloat?)

/-- Why a text stands for no integer. -/
inductive IntRefusal where
  /-- It is not written as an integer. -/
  | malformed
  /-- It has too many digits. -/
  | oversized
deriving DecidableEq

/-- The most digits that an integer may have in a text that is read or written. -/
def maxIntegerDigits : Nat := 4300

/-- The wording of the refusal of an integer for its number of digits. -/
def tooManyDigits (digits : Nat) : Text :=
  Text.ofString "Exceeds the limit (4300 digits) for integer string conversion: value has "
    ++ Text.ofNat digits
    ++ Text.ofString " digits; use sys.set_int_max_str_digits() to increase the limit"

/-- The wording of the refusal to write an integer for its number of digits. -/
def unwritable : Text :=
  Text.ofString "Exceeds the limit (4300 digits) for integer string conversion; "
    ++ Text.ofString "use sys.set_int_max_str_digits() to increase the limit"

/-- Digits that fill a text, not too many of them and without a leading zero. -/
def bareInteger? (negative : Bool) (t : Text) : Except IntRefusal Int :=
  match Text.spanDigits t with
  | (digits, rest) =>
    if digits.isEmpty || (decide (digits.head? = some 0) && decide (1 < digits.length)) then
      .error .malformed
    else if maxIntegerDigits < digits.length then .error .oversized
    else if !rest.isEmpty then .error .malformed
    else
      let n : Int := digitsValue digits
      .ok (if negative then -n else n)

/-- Whether a code point may stand among the zeros that lead an integer. -/
def isPadding (p : CodePoint) : Bool := decide (p = .char '0') || decide (p = .char '_')

/-- A text that starts with a zero without all zeros and underscores at its start. The last of
them stays when nothing or a point follows. -/
def withoutPadding (t : Text) : Text :=
  if t.head? = some (.char '0') then
    let rest := t.dropWhile isPadding
    if rest.isEmpty || decide (rest.head? = some (.char '.')) then
      (t.takeWhile isPadding).getLast?.toList ++ rest
    else rest
  else t

/-- A text without a fraction of nothing but zeros. -/
def withoutZeroFraction (t : Text) : Text :=
  let zeros := (t.dropWhile fun p => decide (p ≠ .char '.')).drop 1
  if !zeros.isEmpty && zeros.all fun p => decide (p = .char '0') then
    t.takeWhile fun p => decide (p ≠ .char '.')
  else t

/-- The integer that a text stands for. Leading zeros do not count, and a fraction is accepted
when it is zeros. Behind leading zeros an integer without a minus sign may still have one. -/
def int? (t : Text) : Except IntRefusal Int :=
  let (negative, rest) := Text.spanSign t.trim
  if rest.head? = some (.char '-') then .error .malformed
  else
    let bare := withoutZeroFraction (withoutPadding rest)
    match bare.joined?.getD bare with
    | .char '-' :: digits => if negative then .error .malformed else bareInteger? true digits
    | digits => bareInteger? negative digits

end Numeral

end GuiBuilder
