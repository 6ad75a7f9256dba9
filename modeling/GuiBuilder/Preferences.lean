import GuiBuilder.Json.Reader
import GuiBuilder.Json.Writer
import GuiBuilder.Text.Utf8

/-!
# Preferences

Preferences are named values, kept in a JSON file. What the file does not say has a default: the
defaults come first, in their order, and further names follow in the order of the file. A file
that is no JSON counts as empty; a file that holds something else than an object is refused. Saving
and loading fail where values are nested more deeply than the writer or the reader takes them to be.
-/

namespace GuiBuilder

/-- Preferences: names with values, in order. -/
structure Preferences where
  fields : Fields

/-- Why a preferences file could not be loaded. -/
inductive Preferences.LoadError where
  /-- The file is not UTF-8. -/
  | undecodable
  /-- The file holds something else than an object. -/
  | notObject
  /-- An integer in the file has this many digits, which is over the limit. -/
  | oversizedInteger (digits : Nat)
  /-- This container in the file is nested too deeply. -/
  | tooDeep (container : Json.Container)
deriving DecidableEq

namespace Preferences

/-- Fields with texts as values. -/
def textFields (fields : List (String × String)) : Fields :=
  fields.map fun (name, v) => (Text.ofString name, .text (Text.ofString v))

/-- The preferences of an empty file. -/
def defaults : Preferences :=
  ⟨[("history_capacity", .int 50), ("export_extension", .text "lua"),
    ("saved_scripts_limit", .int 10), ("ai_deployment", .text "gpt-5-mini"),
    ("hotkeys", .object (textFields
      [("undo", "ctrl+z"), ("redo", "ctrl+y"), ("save", "ctrl+s"), ("run", "f5")]))]⟩

/-- The preferences that a JSON text says, over the defaults. Containers may be nested `depth`
deep. -/
def ofText (depth : Nat) (t : Text) : Except LoadError Preferences :=
  match Json.read depth t with
  | .ok (.object fields) => .ok ⟨Fields.merge defaults.fields fields⟩
  | .ok _ => .error .notObject
  | .error (.oversizedInteger digits) => .error (.oversizedInteger digits)
  | .error (.tooDeep container) => .error (.tooDeep container)
  | .error (.malformed ..) => .ok defaults

/-- The preferences that a file says, over the defaults, or the defaults when there is no file. -/
def load (depth : Nat) : Option ByteArray → Except LoadError Preferences
  | none => .ok defaults
  | some bytes =>
    match Text.ofUtf8? bytes with
    | none => .error .undecodable
    | some t => ofText depth (Text.unifyLineEnds t)

/-- The text of the file in which the preferences are kept. -/
def toText (p : Preferences) : Text := Json.indented .spaced 0 (.object p.fields)

/-- Saves the preferences: the text to which the file is changed, if containers are nested at most
`room` deep and integers can be written. Otherwise the file has lost what it held. -/
def save (room : Nat) (p : Preferences) : Except Json.WriteError Text :=
  Json.indentedWithin (.ofDepth room) .spaced (.object p.fields)

/-- The value of a preference, null when there is none of that name. -/
def get (p : Preferences) (name : Text) : Value := (Fields.get? name p.fields).getD .null

/-- The preferences with one of them set. -/
def set (p : Preferences) (name : Text) (v : Value) : Preferences :=
  ⟨Fields.put name v p.fields⟩

/-- The preferences with several of them set, one after the other. -/
def setAll (p : Preferences) (fields : Fields) : Preferences := ⟨Fields.merge p.fields fields⟩

/-- The key for an action, an empty text when it has none. There is no answer when the hotkeys are
no object. -/
def hotkey? (p : Preferences) (action : Text) : Option Value :=
  match p.get "hotkeys" with
  | .object fields => some ((Fields.get? action fields).getD (.text []))
  | _ => none

end Preferences

end GuiBuilder
