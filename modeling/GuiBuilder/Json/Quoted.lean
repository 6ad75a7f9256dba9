import GuiBuilder.Text.Utf8

/-!
# Quoted texts in JSON

A JSON string is a text between quotes, in which some code points are written as escapes. The
formats of this library differ only in which code points stand for themselves: in canonical JSON
all but the control characters, in the preferences only printable ASCII. A code point beyond
U+FFFF that has to be escaped is written as its pair of surrogate halves.
-/

namespace GuiBuilder.Json

/-- The numbers of the UTF-16 units of a code point. -/
def units (p : CodePoint) : List Nat :=
  let n := p.toNat
  if n < 0x10000 then [n]
  else [0xD800 + (n - 0x10000) / 0x400, 0xDC00 + (n - 0x10000) % 0x400]

/-- The letter of a two-character escape, for the code points that have one. -/
def shortEscape? : CodePoint → Option Char
  | .char '"' => some '"'
  | .char '\\' => some '\\'
  | .char '\x08' => some 'b'
  | .char '\x0c' => some 'f'
  | .char '\n' => some 'n'
  | .char '\r' => some 'r'
  | .char '\t' => some 't'
  | _ => none

/-- An escape that spells one UTF-16 unit. -/
def unitEscape (n : Nat) : Text := (('\\' :: 'u' :: hexDigits 4 n)).map CodePoint.char

/-- A code point inside quotes. -/
def escaped (plain : CodePoint → Bool) (p : CodePoint) : Text :=
  match shortEscape? p with
  | some letter => [.char '\\', .char letter]
  | none => if plain p then [p] else (units p).flatMap unitEscape

/-- A text between quotes; `plain` says which code points need no escape. -/
def quoted (plain : CodePoint → Bool) (t : Text) : Text :=
  .char '"' :: t.flatMap (escaped plain) ++ [.char '"']

/-- Everything but the control characters of ASCII stands for itself. -/
def plainText (p : CodePoint) : Bool := decide (0x20 ≤ p.toNat)

/-- Only printable ASCII stands for itself. -/
def plainAscii (p : CodePoint) : Bool := decide (0x20 ≤ p.toNat) && decide (p.toNat < 0x7F)

end GuiBuilder.Json
