import GuiBuilder.Text.Basic

/-!
# The UTF-8 form of a text

A text has a UTF-8 form exactly when it is encodable. `Text.firstSurrogates?` is why another text
has none: its first run of surrogate halves, and where that stands.
-/

namespace GuiBuilder

namespace Text

/-- The UTF-8 bytes of a text, unless a surrogate half stands in it. -/
def utf8? : Text → Option (List UInt8)
  | [] => some []
  | .char c :: t => (utf8? t).map (String.utf8EncodeChar c ++ ·)
  | .surrogate _ :: _ => none

theorem utf8?_isSome {t : Text} : (utf8? t).isSome = true ↔ t.Encodable := by
  induction t with
  | nil => simp [utf8?, Encodable]
  | cons p t ih =>
    cases p with
    | char c => simpa [utf8?, Encodable, CodePoint.isChar] using ih
    | surrogate i => simp [utf8?, Encodable, CodePoint.isChar]

/-- The text that some bytes spell in UTF-8, if they are well formed. -/
def ofUtf8? (bytes : ByteArray) : Option Text :=
  (String.fromUTF8? bytes).map ofString

/-- Why a text has no UTF-8 form: its first run of surrogate halves. -/
structure Utf8Refusal where
  /-- Where the run starts, counted in code points. -/
  start : Nat
  /-- The first half of the run. -/
  first : Fin 2048
  /-- How many further halves follow it at once. -/
  more : Nat
deriving DecidableEq

/-- The first run of surrogate halves of a text. -/
def firstSurrogates? : Text → Option Utf8Refusal
  | [] => none
  | .char _ :: t => (firstSurrogates? t).map fun r => { r with start := r.start + 1 }
  | .surrogate i :: t => some ⟨0, i, (t.takeWhile fun p => !p.isChar).length⟩

end Text

/-- The digit of value `d` in base sixteen, in lower case. -/
def hexDigit (d : Nat) : Char := Nat.digitChar (d % 16)

/-- The last `width` digits of `n` in base sixteen, in lower case. -/
def hexDigits : (width : Nat) → (n : Nat) → List Char
  | 0, _ => []
  | width + 1, n => hexDigits width (n / 16) ++ [hexDigit n]

/-- The wording of a refused encoding. -/
def Text.Utf8Refusal.message (r : Utf8Refusal) : Text :=
  let reason := ": surrogates not allowed"
  if r.more = 0 then
    Text.ofString "'utf-8' codec can't encode character '\\u"
      ++ (hexDigits 4 (0xD800 + r.first.val)).map CodePoint.char
      ++ Text.ofString "' in position " ++ Text.ofNat r.start ++ Text.ofString reason
  else
    Text.ofString "'utf-8' codec can't encode characters in position "
      ++ Text.ofNat r.start ++ Text.ofString "-" ++ Text.ofNat (r.start + r.more)
      ++ Text.ofString reason

end GuiBuilder
