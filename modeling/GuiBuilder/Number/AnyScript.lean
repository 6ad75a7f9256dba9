import GuiBuilder.Number.Numeral
import GuiBuilder.Text.Digit
import GuiBuilder.Value.Display

/-!
# Numbers in the digits of any script

Where a number is typed in, it may be written with the digits of any script and have blanks around
it. An underscore may stand between two digits. Otherwise a floating-point number is written as
`Numeral.plainFloat?` reads it, and an integer as digits after an optional sign; leading zeros are
digits like all others.
-/

namespace GuiBuilder

/-- Why a typed number is refused. -/
inductive NumberRefusal where
  /-- The text is no floating-point number. -/
  | notFloat (t : Text)
  /-- The text is no integer. -/
  | notInteger (t : Text)
  /-- The integer has this many digits, which is over the limit. -/
  | oversized (digits : Nat)
deriving DecidableEq

namespace NumberRefusal

/-- How much of a text that is no integer is shown, quotes and escapes counted. -/
def shownLength : Nat := 200

/-- The wording of a refusal. -/
def message : NumberRefusal → Text
  | notFloat t => "could not convert string to float: " ++ Text.shown t
  | notInteger t => "invalid literal for int() with base 10: " ++ (Text.shown t).take shownLength
  | oversized digits => Numeral.tooManyDigits digits

end NumberRefusal

namespace Text

/-- Whether a code point is a blank of the ASCII typewriter. -/
def isAsciiBlank (p : CodePoint) : Bool :=
  decide (p = .char ' ') || (decide (0x09 ≤ p.toNat) && decide (p.toNat ≤ 0x0D))

/-- The text without the ASCII blanks around it. -/
def trimAscii (t : Text) : Text :=
  ((t.dropWhile isAsciiBlank).reverse.dropWhile isAsciiBlank).reverse

/-- The text without the underscores between digits, if all of them are; `after` says whether a
digit comes just before the text. -/
def joinDigits? : (after : Bool) → Text → Option Text
  | _, [] => some []
  | after, .char '_' :: p :: t =>
    if after && p.digit?.isSome then (joinDigits? true t).map (p :: ·) else none
  | _, p :: t =>
    if p = .char '_' then none else (joinDigits? p.digit?.isSome t).map (p :: ·)

/-- The digits and underscores at the start of a text, and what follows them. -/
def spanGroups (t : Text) : Text × Text :=
  let inGroups (p : CodePoint) : Bool := p.digit?.isSome || decide (p = .char '_')
  (t.takeWhile inGroups, t.dropWhile inGroups)

end Text

namespace Numeral

/-- The floating-point number that a typed text stands for. -/
def typedFloat? (t : Text) : Except NumberRefusal Binary64 :=
  match (Text.joinDigits? false (Text.trimAscii (t.map CodePoint.unscripted))).bind plainFloat? with
  | some x => .ok x
  | none => .error (.notFloat t)

/-- The integer that a typed text stands for. Too many digits are refused whatever follows them. -/
def typedInt? (t : Text) : Except NumberRefusal Int :=
  let (negative, rest) := Text.spanSign (Text.trimAscii (t.map CodePoint.unscripted))
  let (groups, rest) := Text.spanGroups rest
  match Text.joinDigits? false groups with
  | none | some [] => .error (.notInteger t)
  | some digits =>
    if maxIntegerDigits < digits.length then .error (.oversized digits.length)
    else if !rest.isEmpty then .error (.notInteger t)
    else
      let n : Int := digitsValue (Text.spanDigits digits).1
      .ok (if negative then -n else n)

end Numeral

end GuiBuilder
