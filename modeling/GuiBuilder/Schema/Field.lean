import GuiBuilder.Schema.Problem
import GuiBuilder.Value.Basic

/-!
# Fields of a record

A field has a name, and possibly another one in JSON. Data may give it under either; where both
are present the one of JSON wins. A problem with a value is placed at the key under which the value
came, and a missing field at its name in JSON.
-/

namespace GuiBuilder

/-- The two names of a field. -/
structure FieldName where
  name : String
  jsonName : String
deriving DecidableEq

/-- A field with the same name in JSON. -/
def FieldName.plain (name : String) : FieldName := ⟨name, name⟩

/-- Which of the two names of a field is meant. -/
inductive Spelling where
  | name
  | json
deriving DecidableEq

namespace FieldName

/-- The name of a field in one of the spellings. -/
def spelled (f : FieldName) : Spelling → Text
  | .name => Text.ofString f.name
  | .json => Text.ofString f.jsonName

/-- Whether a key names the field. -/
def isNamed (f : FieldName) (key : Text) : Bool :=
  decide (f.spelled .name = key) || decide (f.spelled .json = key)

/-- The value of a field, with the key under which it is given. -/
def find? (f : FieldName) (fields : Fields) : Option (Text × Value) :=
  match fields.get? (f.spelled .json) with
  | some v => some (f.spelled .json, v)
  | none => (fields.get? (f.spelled .name)).map fun v => (f.spelled .name, v)

/-- Reads a field that may be left out. -/
def optional {α : Type} (f : FieldName) (default : α) (read : Value → Checked α)
    (fields : Fields) : Checked α :=
  match f.find? fields with
  | some (key, v) => (read v).under (.key key)
  | none => .ok default

/-- Reads a field that must be there. -/
def required {α : Type} (f : FieldName) (read : Value → Checked α) (fields : Fields) : Checked α :=
  match f.find? fields with
  | some (key, v) => (read v).under (.key key)
  | none => .rejected [⟨[.key (f.spelled .json)], .missing⟩]

end FieldName

end GuiBuilder
