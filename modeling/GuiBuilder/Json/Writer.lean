import GuiBuilder.Json.Error
import GuiBuilder.Json.Quoted
import GuiBuilder.Number.Layout
import GuiBuilder.Value.Basic

/-!
# Writing JSON

`Json.inline` writes a value on one line and `Json.indented` over several, with one more level of
indentation in each container; an empty container stays on its line. A `Style` holds what differs
between the formats: the separators, the code points that stand for themselves in strings, and
the written form of numbers. `Json.indentedWithin` keeps to some limits on what it writes.
-/

namespace GuiBuilder.Json

/-- What a JSON format decides. -/
structure Style where
  /-- Between neighbours of a container that is written on one line. -/
  comma : String
  /-- Between a key and its value. -/
  colon : String
  /-- The code points that stand for themselves in a string. -/
  plain : CodePoint → Bool
  /-- How floating-point numbers are written. -/
  layout : Layout

/-- The canonical form of a widget tree: no blanks, raw text, and numbers positional from
`10 ^ -5`. What is no finite number is written as null. -/
def Style.canonical : Style := ⟨",", ":", plainText, ⟨-5, 1, "null", "null", "null"⟩⟩

/-- The form of the preferences: ASCII, with a blank after a comma and a colon. -/
def Style.spaced : Style := ⟨", ", ": ", plainAscii, ⟨-4, 2, "Infinity", "-Infinity", "NaN"⟩⟩

mutual

/-- A value on one line. -/
def inline (style : Style) : Value → Text
  | .null => Text.ofString "null"
  | .bool true => Text.ofString "true"
  | .bool false => Text.ofString "false"
  | .int i => Text.ofInt i
  | .float x => style.layout.write x
  | .text t => quoted style.plain t
  | .array items => .char '[' :: inlineItems style items ++ [.char ']']
  | .object fields => .char '{' :: inlineFields style fields ++ [.char '}']

/-- Neighbouring items on one line. -/
def inlineItems (style : Style) : List Value → Text
  | [] => []
  | [v] => inline style v
  | v :: w :: rest => inline style v ++ Text.ofString style.comma ++ inlineItems style (w :: rest)

/-- Neighbouring fields on one line. -/
def inlineFields (style : Style) : List (Text × Value) → Text
  | [] => []
  | [(k, v)] => quoted style.plain k ++ Text.ofString style.colon ++ inline style v
  | (k, v) :: f :: rest =>
    quoted style.plain k ++ Text.ofString style.colon ++ inline style v
      ++ Text.ofString style.comma ++ inlineFields style (f :: rest)

end

/-- A line feed and the indentation of a level: four blanks for each. -/
def newLine (level : Nat) : Text := .char '\n' :: List.replicate (4 * level) (.char ' ')

mutual

/-- A value over several lines, inside `level` containers. -/
def indented (style : Style) (level : Nat) : Value → Text
  | .array (item :: rest) =>
    .char '[' :: newLine (level + 1) ++ indentedItems style (level + 1) (item :: rest)
      ++ newLine level ++ [.char ']']
  | .object (field :: rest) =>
    .char '{' :: newLine (level + 1) ++ indentedFields style (level + 1) (field :: rest)
      ++ newLine level ++ [.char '}']
  | .array [] => Text.ofString "[]"
  | .object [] => [.char '{', .char '}']
  | .null => inline style .null
  | .bool b => inline style (.bool b)
  | .int i => inline style (.int i)
  | .float x => inline style (.float x)
  | .text t => inline style (.text t)

/-- Neighbouring items, each on a line of its own. -/
def indentedItems (style : Style) (level : Nat) : List Value → Text
  | [] => []
  | [v] => indented style level v
  | v :: w :: rest =>
    indented style level v ++ [.char ','] ++ newLine level ++ indentedItems style level (w :: rest)

/-- Neighbouring fields, each on a line of its own. -/
def indentedFields (style : Style) (level : Nat) : List (Text × Value) → Text
  | [] => []
  | [(k, v)] => quoted style.plain k ++ Text.ofString style.colon ++ indented style level v
  | (k, v) :: f :: rest =>
    quoted style.plain k ++ Text.ofString style.colon ++ indented style level v
      ++ [.char ','] ++ newLine level ++ indentedFields style level (f :: rest)

end

/-! ### Limits -/

/-- Why a value cannot be written. -/
inductive WriteError where
  /-- A container is nested too deeply. -/
  | tooDeep
  /-- An integer has too many digits. -/
  | oversizedInteger
deriving DecidableEq

mutual

/-- What keeps a value from being written where containers may be nested `depth` deep and integers
have at most `digits` digits: the first such thing in its text. -/
def obstacle? (digits : Nat) : (depth : Nat) → Value → Option WriteError
  | _, .int i => if digits < (decimalDigits i.natAbs).length then some .oversizedInteger else none
  | depth + 1, .array items => itemsObstacle? digits depth items
  | depth + 1, .object fields => fieldsObstacle? digits depth fields
  | 0, .array _ | 0, .object _ => some .tooDeep
  | _, .null | _, .bool _ | _, .float _ | _, .text _ => none

/-- What keeps items from being written. -/
def itemsObstacle? (digits : Nat) : (depth : Nat) → List Value → Option WriteError
  | _, [] => none
  | depth, v :: items => (obstacle? digits depth v).or (itemsObstacle? digits depth items)

/-- What keeps fields from being written. -/
def fieldsObstacle? (digits : Nat) : (depth : Nat) → List (Text × Value) → Option WriteError
  | _, [] => none
  | depth, (_, v) :: fields => (obstacle? digits depth v).or (fieldsObstacle? digits depth fields)

end

/-- A value over several lines, written within some limits. -/
def indentedWithin (limits : Limits) (style : Style) (v : Value) : Except WriteError Text :=
  match obstacle? limits.digits limits.depth v with
  | some e => .error e
  | none => .ok (indented style 0 v)

end GuiBuilder.Json
