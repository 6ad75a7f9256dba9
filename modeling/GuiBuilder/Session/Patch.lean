import GuiBuilder.Schema.Widget

/-!
# Patches

A patch puts values into the fields of a record, one after the other, and checks the result like
data from outside. A field may be named by either of its names; the id and the variant of a record
stay as they are. A patch that names another key, or that leaves a record that does not pass, is
refused as a whole.
-/

namespace GuiBuilder

/-- Why a patch was refused. -/
inductive PatchError where
  /-- No field has this name. -/
  | unknownField (key : Text)
  /-- The field of this name stays as it is. -/
  | readOnly (key : Text)
  /-- The record does not pass with the new values. -/
  | rejected (r : Rejection)
deriving DecidableEq

/-- The wording of a refused patch. -/
def PatchError.message : PatchError → Text
  | unknownField key => "Unknown property: " ++ key
  | readOnly key => "Property is read-only: " ++ key
  | rejected r => r.message

namespace Patch

/-- The fields that no patch changes. -/
def readOnlyFields : List FieldName := [Field.id, Field.type]

/-- The field among some that a key names. -/
def fieldOf? (names : List FieldName) (key : Text) : Option FieldName :=
  names.find? fun f => f.isNamed key

/-- The fields of a record with the values of a patch put in, one after the other. -/
def putAll (names : List FieldName) : (record : Fields) → (patch : Fields) → Except PatchError Fields
  | record, [] => .ok record
  | record, (key, v) :: rest =>
    match fieldOf? names key with
    | none => .error (.unknownField key)
    | some f =>
      if f ∈ readOnlyFields then .error (.readOnly key)
      else putAll names (Fields.put (f.spelled .name) v record) rest

/-- A record with the values of a patch put in, if it passes the check. -/
def apply {α : Type} (schema : Schema) (read : Value → Checked α)
    (fields : List (FieldName × Value)) (patch : Fields) : Except PatchError α :=
  match putAll (fields.map Prod.fst) (spellFields .name fields) patch with
  | .error e => .error e
  | .ok record =>
    match (read (.object record)).as schema with
    | .ok a => .ok a
    | .error r => .error (.rejected r)

end Patch

/-- The element after a patch. -/
def Element.patch (e : Element) (patch : Fields) : Except PatchError Element :=
  Patch.apply e.kind.schema (Element.ofValueOf e.kind) e.fields patch

/-- The folder after a patch. -/
def Folder.patch (f : Folder) (patch : Fields) : Except PatchError Folder :=
  Patch.apply .folder Folder.ofValue (f.fields .name) patch

/-- The window after a patch. -/
def Window.patch (w : Window) (patch : Fields) : Except PatchError Window :=
  Patch.apply .window Window.ofValue (w.fields .name) patch

/-- The file after a patch. -/
def File.patch (f : File) (patch : Fields) : Except PatchError File :=
  Patch.apply .file File.ofValue (f.fields .name) patch

end GuiBuilder
