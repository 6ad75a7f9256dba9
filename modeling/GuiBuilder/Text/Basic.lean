/-!
# Text

Labels, flags, logic fragments and names arrive from outside and may hold any code point, lone
surrogates included: a surrogate half has no UTF-8 form, yet an escape such as the one for
U+D800 brings it in. A text is therefore a list of code points, each a character or a surrogate
half. `Text.Encodable` says that no half occurs; `Text.toString?` is defined on exactly the
encodable texts.
-/

namespace GuiBuilder

/-- A Unicode code point: a character, or one half of a surrogate pair standing alone. -/
inductive CodePoint where
  /-- A Unicode scalar value. -/
  | char (c : Char)
  /-- The surrogate half U+D800 + `i`. -/
  | surrogate (i : Fin 2048)
deriving DecidableEq

namespace CodePoint

/-- The number of the code point. -/
def toNat : CodePoint → Nat
  | char c => c.toNat
  | surrogate i => 0xD800 + i.val

/-- The code point of a number below 0x110000. -/
def ofNat? (n : Nat) : Option CodePoint :=
  if h : n.isValidChar then some (char (Char.ofNatAux n h))
  else if h : 0xD800 ≤ n ∧ n < 0xE000 then some (surrogate ⟨n - 0xD800, by omega⟩)
  else none

/-- A code point that is a character. -/
def isChar : CodePoint → Bool
  | char _ => true
  | surrogate _ => false

instance : Inhabited CodePoint := ⟨char 'A'⟩

theorem ofNat?_toNat (p : CodePoint) : ofNat? p.toNat = some p := by
  cases p with
  | char c =>
    have hv : c.toNat.isValidChar := c.valid
    rw [ofNat?, toNat, dif_pos hv]
    rfl
  | surrogate i =>
    have hi := i.isLt
    have hv : ¬ (0xD800 + i.val).isValidChar := by
      unfold Nat.isValidChar
      omega
    rw [ofNat?, toNat, dif_neg hv, dif_pos (by omega)]
    simp

end CodePoint

/-- A text is a list of code points. -/
abbrev Text := List CodePoint

instance : LawfulBEq Text := inferInstance

namespace Text

/-- The text that spells a string. -/
def ofString (s : String) : Text := s.toList.map CodePoint.char

instance : Coe String Text := ⟨ofString⟩

/-- No surrogate half occurs, so the text has a UTF-8 form. -/
def Encodable (t : Text) : Prop := ∀ p ∈ t, p.isChar = true

instance (t : Text) : Decidable t.Encodable := inferInstanceAs (Decidable (∀ p ∈ t, p.isChar = true))

theorem encodable_nil : Encodable [] := nofun

theorem encodable_append {t u : Text} : (t ++ u).Encodable ↔ t.Encodable ∧ u.Encodable :=
  List.forall_mem_append

/-- Characters are encodable. -/
theorem encodable_map_char (cs : List Char) : Encodable (cs.map CodePoint.char) := by
  intro p hp
  obtain ⟨c, -, rfl⟩ := List.mem_map.1 hp
  rfl

theorem encodable_ofString (s : String) : (ofString s).Encodable := encodable_map_char s.toList

/-- The characters of the text, when it has no other code points. -/
def chars? : Text → Option (List Char)
  | [] => some []
  | .char c :: t => (chars? t).map (c :: ·)
  | .surrogate _ :: _ => none

/-- The string with the same code points, when there is one. -/
def toString? (t : Text) : Option String := t.chars?.map String.ofList

/-- The decimal digits of a natural number. -/
def ofNat (n : Nat) : Text := (Nat.toDigits 10 n).map CodePoint.char

/-- The decimal digits of an integer, after a minus sign when it is negative. -/
def ofInt (i : Int) : Text :=
  if i < 0 then ofString "-" ++ ofNat i.natAbs else ofNat i.natAbs

/-- Texts one after the other, with `separator` between neighbours. -/
def join (separator : Text) : List Text → Text
  | [] => []
  | [t] => t
  | t :: u :: rest => t ++ separator ++ join separator (u :: rest)

/-- The texts between the occurrences of `separator`: one more than there are occurrences. -/
def split (separator : CodePoint) : Text → List Text
  | [] => [[]]
  | p :: t =>
    if p = separator then [] :: split separator t
    else match split separator t with
      | [] => [[p]]
      | line :: lines => (p :: line) :: lines

/-- Whether `inner` occurs at the end of the text. -/
def endsWith (t inner : Text) : Bool := inner.isSuffixOf t

/-- The text with every line end, also a carriage return or one before a line feed, as a line
feed. -/
def unifyLineEnds : Text → Text
  | [] => []
  | .char '\r' :: .char '\n' :: t => .char '\n' :: unifyLineEnds t
  | .char '\r' :: t => .char '\n' :: unifyLineEnds t
  | p :: t => p :: unifyLineEnds t

end Text

end GuiBuilder
