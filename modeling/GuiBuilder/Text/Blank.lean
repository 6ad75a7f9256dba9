import GuiBuilder.Text.Basic

/-!
# Blank characters

Two classes of blanks are in use. A label counts as blank when it holds only characters of
`CodePoint.isBlank`: the Unicode spaces together with the ASCII separators U+001C to U+001F. A
number in a text may be surrounded by characters of `CodePoint.isSpace`, the Unicode property
White_Space, which leaves those four separators out. Neither holds the zero-width characters.
-/

namespace GuiBuilder

namespace CodePoint

/-- The Unicode property White_Space. -/
def isSpace (p : CodePoint) : Bool :=
  let n := p.toNat
  (0x09 ≤ n && n ≤ 0x0D) || n == 0x20 || n == 0x85 || n == 0xA0 || n == 0x1680 ||
    (0x2000 ≤ n && n ≤ 0x200A) || n == 0x2028 || n == 0x2029 || n == 0x202F || n == 0x205F ||
    n == 0x3000

/-- White space or one of the four ASCII separators. -/
def isBlank (p : CodePoint) : Bool :=
  p.isSpace || (0x1C ≤ p.toNat && p.toNat ≤ 0x1F)

end CodePoint

namespace Text

/-- Nothing but blanks; the empty text is blank. -/
def isBlank (t : Text) : Bool := t.all CodePoint.isBlank

/-- The text without the white space around it. -/
def trim (t : Text) : Text :=
  ((t.dropWhile CodePoint.isSpace).reverse.dropWhile CodePoint.isSpace).reverse

@[simp] theorem isBlank_nil : isBlank [] = true := rfl

@[simp] theorem isBlank_cons (p : CodePoint) (t : Text) :
    isBlank (p :: t) = (p.isBlank && isBlank t) := rfl

end Text

end GuiBuilder
