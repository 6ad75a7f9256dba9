import GuiBuilder.Schema.Scalar
import GuiBuilder.Value.Display
import GuiBuilder.Widget.Field

/-!
# Reading the widget tree

`Window.ofValue`, `Folder.ofValue`, `File.ofValue` and `Element.ofValue` check data against the
records of the widget tree. Fields are checked in the order of the record, unknown keys are
ignored, and a field that is left out takes its default. An element says its variant in its field
`type`; the variant then becomes part of the place of its problems.
-/

namespace GuiBuilder

/-- The record of a variant. -/
def Kind.schema : Kind → Schema
  | button => .button
  | toggle => .toggle
  | slider => .slider
  | dropdown => .dropdown

namespace Schema

/-- The fields of a record. -/
def readRecord {α : Type} (schema : Schema) (read : Fields → Checked α) : Value → Checked α
  | .object fields => read fields
  | _ => .fail (.notRecord schema)

/-- The logic of an element: a text, or none. -/
def readLogic : Value → Checked (Option Text)
  | .null => .ok none
  | v => some <$> readText v

/-- An integer as a slider bound. -/
def bound (n : Nat) : Finite64 := (Finite64.ofInt? n).getD .zero

/-- The lower end of a slider that does not say it. -/
def defaultMin : Finite64 := bound 0

/-- The upper end of a slider that does not say it. -/
def defaultMax : Finite64 := bound 100

/-- The value of a slider that does not say it. -/
def defaultValue : Finite64 := bound 50

/-- The numbers of a slider. -/
def readRange (fields : Fields) : Checked SliderRange :=
  SliderRange.mk <$> Field.min.optional defaultMin readNumber fields
    <*> Field.max.optional defaultMax readNumber fields
    <*> Field.value.optional defaultValue readNumber fields
    <*> Field.decimals.optional 0 readNat fields

/-- The fields that are particular to a variant. -/
def readControl (kind : Kind) (fields : Fields) : Checked Control :=
  match kind with
  | .button => .ok .button
  | .toggle =>
    Control.toggle <$> Field.flag.required readText fields
      <*> Field.initially.optional false readBool fields
  | .slider => Control.slider <$> Field.flag.required readText fields <*> readRange fields
  | .dropdown =>
    Control.dropdown <$> Field.flag.required readText fields
      <*> Field.options.optional [] readTexts fields

/-- The fields of an element of a known variant, apart from the variant itself. -/
def readElement (kind : Kind) (fields : Fields) : Checked Element :=
  Element.mk <$> Field.id.required readText fields
    <*> Field.text.optional [] readText fields
    <*> Field.logic.optional none readLogic fields
    <*> readControl kind fields

/-- The variant that an element says, shown in a message: a surrogate half is shown as the three
replacement characters of its bytes. -/
def shownVariant (v : Value) : Text :=
  v.display.flatMap fun p =>
    if p.isChar then [p] else List.replicate 3 (.char '\uFFFD')

end Schema

open Schema

namespace Element

/-- Reads an element of one variant, as a record of its own: the field `type` may be left out. -/
def ofValueOf (kind : Kind) : Value → Checked Element :=
  readRecord kind.schema fun fields =>
    (fun _ e => e) <$> Field.type.optional kind.name (readAmong [kind.name]) fields
      <*> readElement kind fields

/-- Reads an element of the variant that it says. -/
def ofValue : Value → Checked Element
  | .object fields =>
    match Fields.get? (Field.type.spelled .name) fields with
    | none => .fail .noVariant
    | some v =>
      match v.text?.bind Kind.ofName? with
      | some kind => (readElement kind fields).under (.key (Text.ofString kind.name))
      | none => .fail (.unknownVariant (shownVariant v))
  | _ => .fail .notElement

end Element

/-- Reads a folder. -/
def Folder.ofValue : Value → Checked Folder :=
  readRecord .folder fun fields =>
    Folder.mk <$> Field.id.required readText fields
      <*> Field.text.optional [] readText fields
      <*> Field.elements.optional [] (readArray Element.ofValue) fields

/-- Reads a window. -/
def Window.ofValue : Value → Checked Window :=
  readRecord .window fun fields =>
    Window.mk <$> Field.title.optional [] readText fields
      <*> Field.folders.optional [] (readArray Folder.ofValue) fields

/-- Reads a file. The language may be left out, and is always the same. -/
def File.ofValue : Value → Checked File :=
  readRecord .file fun fields =>
    (fun id name window _ => File.mk id name (.window window)) <$> Field.id.required readText fields
      <*> Field.name.required readText fields
      <*> Field.data.required Window.ofValue fields
      <*> Field.language.optional scriptLanguage (readAmong [scriptLanguage]) fields

end GuiBuilder
