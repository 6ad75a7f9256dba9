import GuiBuilder.Number.Numeral
import GuiBuilder.Schema.Problem
import GuiBuilder.Value.Basic

/-!
# Checks of single values

Each check reads a value as text, truth value, number or integer. Truth values and numbers are
read leniently: a number may come as a text, an integer as a floating-point number without a
fraction, and a truth value as a number or one of a few words. Texts are not converted, but every
text that is kept must be encodable.
-/

namespace GuiBuilder.Schema

/-- A text with a UTF-8 form. -/
def readText : Value → Checked Text
  | .text t => if t.Encodable then .ok t else .fail .notEncodable
  | _ => .fail .notText

/-- Any text, surrogate halves included. -/
def readAnyText : Value → Checked Text
  | .text t => .ok t
  | _ => .fail .notText

/-- A text that is read for what it says: it must be encodable. -/
def withReadable {α : Type} (t : Text) (read : Text → Checked α) : Checked α :=
  if t.Encodable then read t else .fail .unreadableText

/-- One of a few texts. -/
def readAmong (allowed : List String) : Value → Checked String
  | .text t => withReadable t fun t =>
    match allowed.find? fun a => decide (Text.ofString a = t) with
    | some a => .ok a
    | none => .fail (.notAmong allowed)
  | _ => .fail (.notAmong allowed)

/-- The words for false. -/
def falseWords : List String := ["0", "off", "f", "false", "n", "no"]

/-- The words for true. -/
def trueWords : List String := ["1", "on", "t", "true", "y", "yes"]

/-- The truth value of a word, in any case. -/
def boolOfWord? (t : Text) : Option Bool :=
  let word := t.lowerAscii
  if falseWords.any fun w => decide (Text.ofString w = word) then some false
  else if trueWords.any fun w => decide (Text.ofString w = word) then some true
  else none

/-- The truth value of an integer: that of 0 or 1. -/
def boolOfInt? (i : Int) : Option Bool :=
  if i = 0 then some false else if i = 1 then some true else none

/-- The least number that is too large for 64 bits with a sign. -/
def wordBound : Int := 9223372036854775808

/-- Whether an integer fits into 64 bits with a sign. -/
def fitsWord (i : Int) : Bool := decide (-wordBound ≤ i) && decide (i < wordBound)

/-- A truth value. -/
def readBool : Value → Checked Bool
  | .bool b => .ok b
  | .int i =>
    match boolOfInt? i with
    | some b => .ok b
    | none => .fail (if fitsWord i then .unreadableBool else .notBool)
  | .float (.finite x) =>
    match x.toInt?.bind boolOfInt? with
    | some b => .ok b
    | none => .fail .notBool
  | .text t => withReadable t fun t =>
    match boolOfWord? t with
    | some b => .ok b
    | none => .fail .unreadableBool
  | _ => .fail .notBool

/-- A number that has to be finite. -/
def finite : Binary64 → Checked Finite64
  | .finite x => .ok x
  | _ => .fail .notFinite

/-- A truth value as a number. -/
def ofBool (b : Bool) : Nat := if b then 1 else 0

/-- An integer as the nearest number. -/
def numberOfInt (i : Int) : Checked Finite64 :=
  match Finite64.ofInt? i with
  | some x => .ok x
  | none => .fail .notNumber

/-- A finite number. -/
def readNumber : Value → Checked Finite64
  | .bool b => numberOfInt (ofBool b)
  | .int i => numberOfInt i
  | .float x => finite x
  | .text t => withReadable t fun t =>
    match Numeral.float? t with
    | some x => finite x
    | none => .fail .unreadableNumber
  | _ => .fail .notNumber

/-- An integer. A floating-point number must be one and lie strictly within 64 bits. -/
def readInt : Value → Checked Int
  | .bool b => .ok (ofBool b)
  | .int i => .ok i
  | .float (.finite x) =>
    match x.toInt? with
    | none => .fail .fractionalInteger
    | some i => if -wordBound < i ∧ i < wordBound then .ok i else .fail .oversizedInteger
  | .float _ => .fail .notFinite
  | .text t => withReadable t fun t =>
    match Numeral.int? t with
    | .ok i => .ok i
    | .error .malformed => .fail .unreadableInteger
    | .error .oversized => .fail .oversizedInteger
  | _ => .fail .notInteger

/-- An integer that is not negative. -/
def readNat (v : Value) : Checked Nat :=
  (readInt v).andThen fun i => if 0 ≤ i then .ok i.toNat else .fail .negative

/-- The items of a list from an index on. -/
def readItems {α : Type} (read : Value → Checked α) : (index : Nat) → List Value → Checked (List α)
  | _, [] => .ok []
  | index, v :: rest =>
    List.cons <$> (read v).under (.index index) <*> readItems read (index + 1) rest

/-- An array, each item of which is read in the same way. -/
def readArray {α : Type} (read : Value → Checked α) : Value → Checked (List α)
  | .array items => readItems read 0 items
  | _ => .fail .notArray

/-- An array of texts with UTF-8 forms. That they are encodable is checked once all are texts. -/
def readTexts (v : Value) : Checked (List Text) :=
  (readArray readAnyText v).andThen fun texts =>
    if ∀ t ∈ texts, t.Encodable then .ok texts else .fail .notEncodable

end GuiBuilder.Schema
