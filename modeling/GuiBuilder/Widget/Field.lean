import GuiBuilder.Schema.Field
import GuiBuilder.Widget.Basic

/-!
# The fields of the widget tree

The names of the fields of each record, in the order in which they are written, and the values of
a record's fields. `Window.toValue` gives the record as data, under either names.
-/

namespace GuiBuilder

namespace Field

def type : FieldName := .plain "type"
def id : FieldName := .plain "id"
def text : FieldName := .plain "text"
def logic : FieldName := ⟨"custom_logic", "customLogic"⟩
def flag : FieldName := .plain "flag"
def initially : FieldName := ⟨"default_state", "defaultState"⟩
def min : FieldName := .plain "min"
def max : FieldName := .plain "max"
def value : FieldName := .plain "value"
def decimals : FieldName := .plain "decimals"
def options : FieldName := .plain "values"
def elements : FieldName := .plain "elements"
def title : FieldName := .plain "title"
def folders : FieldName := .plain "folders"
def name : FieldName := .plain "name"
def data : FieldName := .plain "data"
def language : FieldName := .plain "language"

end Field

/-- The language of every script. -/
def scriptLanguage : String := "lua"

namespace Control

/-- The fields that are particular to a variant, with their values. -/
def fields : Control → List (FieldName × Value)
  | button => []
  | toggle flag initially => [(Field.flag, .text flag), (Field.initially, .bool initially)]
  | slider flag r =>
    [(Field.flag, .text flag), (Field.min, .float (.finite r.min)),
      (Field.max, .float (.finite r.max)), (Field.value, .float (.finite r.value)),
      (Field.decimals, .int r.decimals)]
  | dropdown flag options =>
    [(Field.flag, .text flag), (Field.options, .array (options.map .text))]

end Control

/-- Fields with their values, as those of an object. -/
def spellFields (s : Spelling) (fields : List (FieldName × Value)) : Fields :=
  fields.map fun (f, v) => (f.spelled s, v)

namespace Element

/-- The fields of an element, with their values. -/
def fields (e : Element) : List (FieldName × Value) :=
  [(Field.type, .text (Text.ofString e.kind.name)), (Field.id, .text e.id),
    (Field.text, .text e.text),
    (Field.logic, match e.logic with | some t => .text t | none => .null)]
    ++ e.control.fields

/-- An element as data. -/
def toValue (s : Spelling) (e : Element) : Value := .object (spellFields s e.fields)

end Element

namespace Folder

/-- The fields of a folder, with their values. -/
def fields (s : Spelling) (f : Folder) : List (FieldName × Value) :=
  [(Field.id, .text f.id), (Field.text, .text f.text),
    (Field.elements, .array (f.elements.map (Element.toValue s)))]

/-- A folder as data. -/
def toValue (s : Spelling) (f : Folder) : Value := .object (spellFields s (f.fields s))

end Folder

namespace Window

/-- The fields of a window, with their values. -/
def fields (s : Spelling) (w : Window) : List (FieldName × Value) :=
  [(Field.title, .text w.title), (Field.folders, .array (w.folders.map (Folder.toValue s)))]

/-- A window as data. -/
def toValue (s : Spelling) (w : Window) : Value := .object (spellFields s (w.fields s))

end Window

/-- The content of a file as data. -/
def Content.toValue (s : Spelling) : Content → Value
  | window w => w.toValue s
  | data v _ => v

namespace File

/-- The fields of a file, with their values. -/
def fields (s : Spelling) (f : File) : List (FieldName × Value) :=
  [(Field.id, .text f.id), (Field.name, .text f.name), (Field.data, f.content.toValue s),
    (Field.language, .text (Text.ofString scriptLanguage))]

/-- A file as data. -/
def toValue (s : Spelling) (f : File) : Value := .object (spellFields s (f.fields s))

end File

end GuiBuilder
