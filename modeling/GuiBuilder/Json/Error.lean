import GuiBuilder.Number.Numeral

/-!
# Errors of a JSON text

A text is refused for its form, at a position, for an integer with too many digits, or for
containers that are nested too deeply. The position of an error of form is given as an offset in
code points and as line and column.
-/

namespace GuiBuilder.Json

/-- What is wrong with the form of a JSON text. -/
inductive Malformation where
  /-- No value starts here. -/
  | expectedValue
  /-- The name of a field has to start here. -/
  | expectedName
  | expectedColon
  | expectedComma
  /-- A string that starts here does not end. -/
  | unterminatedString
  | controlCharacter
  | unknownEscape
  | incompleteEscape
  /-- Something follows the value. -/
  | extraData
  | byteOrderMark
deriving DecidableEq

/-- The wording of an error of form. -/
def Malformation.message : Malformation → String
  | expectedValue => "Expecting value"
  | expectedName => "Expecting property name enclosed in double quotes"
  | expectedColon => "Expecting ':' delimiter"
  | expectedComma => "Expecting ',' delimiter"
  | unterminatedString => "Unterminated string starting at"
  | controlCharacter => "Invalid control character at"
  | unknownEscape => "Invalid \\escape"
  | incompleteEscape => "Invalid \\uXXXX escape"
  | extraData => "Extra data"
  | byteOrderMark => "Unexpected UTF-8 BOM (decode using utf-8-sig)"

/-- The containers of JSON. -/
inductive Container where
  | array
  | object
deriving DecidableEq

/-- The name of a container in messages. -/
def Container.name : Container → String
  | array => "array"
  | object => "object"

/-- How much a reader of JSON takes on. -/
structure Limits where
  /-- How deeply containers may be nested. -/
  depth : Nat
  /-- The most digits that an integer may have. -/
  digits : Nat
deriving DecidableEq

/-- The limits of a reader that takes containers nested so deep, and integers as they may be in any
text. -/
def Limits.ofDepth (depth : Nat) : Limits := ⟨depth, Numeral.maxIntegerDigits⟩

/-- Why a text is no JSON. -/
inductive Error where
  /-- The form is wrong at an offset, counted in code points. -/
  | malformed (cause : Malformation) (line column offset : Nat)
  /-- An integer has this many digits, which is over the limit. -/
  | oversizedInteger (digits : Nat)
  /-- This container is nested too deeply. -/
  | tooDeep (container : Container)
deriving DecidableEq

/-- The wording of an error. -/
def Error.message : Error → Text
  | malformed cause line column offset =>
    Text.ofString cause.message ++ Text.ofString ": line " ++ Text.ofNat line
      ++ Text.ofString " column " ++ Text.ofNat column ++ Text.ofString " (char "
      ++ Text.ofNat offset ++ Text.ofString ")"
  | oversizedInteger digits => Numeral.tooManyDigits digits
  | tooDeep container =>
    Text.ofString "maximum recursion depth exceeded while decoding a JSON "
      ++ Text.ofString container.name ++ Text.ofString " from a unicode string"

/-- The error of form at an offset of a text. The first line and the first column are number 1,
and a line ends at a line feed. -/
def Error.atOffset (t : Text) (cause : Malformation) (offset : Nat) : Error :=
  let before := t.take offset
  let line := (before.filter fun p => decide (p = .char '\n')).length + 1
  let column := (before.reverse.takeWhile fun p => decide (p ≠ .char '\n')).length + 1
  .malformed cause line column offset

end GuiBuilder.Json
