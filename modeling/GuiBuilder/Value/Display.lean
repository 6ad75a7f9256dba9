import GuiBuilder.Number.Layout
import GuiBuilder.Text.Printable
import GuiBuilder.Text.Utf8
import GuiBuilder.Value.Basic

/-!
# Showing values in messages

A message that mentions a value shows a text as it is and everything else in a notation of its
own: `None`, `True`, `['a', 1]`. Inside a container texts are quoted, with an apostrophe unless the
text holds one and no double quote, and unprintable code points are written as escapes.
-/

namespace GuiBuilder

namespace Text

/-- An escape of `width` hexadecimal digits after a letter. -/
def hexEscape (letter : Char) (width n : Nat) : Text :=
  ('\\' :: letter :: hexDigits width n).map CodePoint.char

/-- A code point of a quoted text. -/
def shownPoint (quote : Char) (p : CodePoint) : Text :=
  if p = .char quote ∨ p = .char '\\' then [.char '\\', p]
  else if p = .char '\n' then ofString "\\n"
  else if p = .char '\r' then ofString "\\r"
  else if p = .char '\t' then ofString "\\t"
  else if p.isPrintable then [p]
  else if p.toNat < 0x100 then hexEscape 'x' 2 p.toNat
  else if p.toNat < 0x10000 then hexEscape 'u' 4 p.toNat
  else hexEscape 'U' 8 p.toNat

/-- A text between quotes, as a message shows it. -/
def shown (t : Text) : Text :=
  let quote := if t.contains (.char '\x27') && !t.contains (.char '"') then '"' else '\x27'
  .char quote :: t.flatMap (shownPoint quote) ++ [.char quote]

end Text

namespace Value

mutual

/-- A value inside a container. -/
def shown : Value → Text
  | .null => Text.ofString "None"
  | .bool true => Text.ofString "True"
  | .bool false => Text.ofString "False"
  | .int i => Text.ofInt i
  | .float x => Layout.display.write x
  | .text t => Text.shown t
  | .array items => .char '[' :: shownItems items ++ [.char ']']
  | .object fields => .char '{' :: shownFields fields ++ [.char '}']

/-- Neighbouring items. -/
def shownItems : List Value → Text
  | [] => []
  | [v] => shown v
  | v :: w :: rest => shown v ++ Text.ofString ", " ++ shownItems (w :: rest)

/-- Neighbouring fields. -/
def shownFields : List (Text × Value) → Text
  | [] => []
  | [(k, v)] => Text.shown k ++ Text.ofString ": " ++ shown v
  | (k, v) :: f :: rest =>
    Text.shown k ++ Text.ofString ": " ++ shown v ++ Text.ofString ", " ++ shownFields (f :: rest)

end

/-- The word for the kind of a value. -/
def kindWord : Value → String
  | .null => "NoneType"
  | .bool _ => "bool"
  | .int _ => "int"
  | .float _ => "float"
  | .text _ => "str"
  | .array _ => "list"
  | .object _ => "dict"

/-- A value as a message shows it: a text as it is. -/
def display : Value → Text
  | .text t => t
  | v => shown v

end Value

end GuiBuilder
