import GuiBuilder.History
import GuiBuilder.Json.Error
import GuiBuilder.Schema.Problem
import GuiBuilder.Storage.Found

/-!
# Faults

A call with an argument that makes no sense to it does not answer: it ends in a fault. This is
apart from an edit that is refused, which answers that it did not succeed and says why in the
console. A fault leaves behind whatever the call had changed before.
-/

namespace GuiBuilder

/-- Why a call did not answer. -/
inductive Fault where
  /-- Data was refused. -/
  | rejected (r : Rejection)
  /-- A history cannot have this capacity. -/
  | badCapacity
  /-- A capacity must be a number. -/
  | capacityNotNumber
  /-- The history exceeds a capacity that is no whole number. -/
  | historyStalled
  /-- There is no variant of an element with this name. -/
  | unknownKind (shown : Text)
  /-- The variant of an element is asked for by an array or object. -/
  | kindIsContainer
  /-- An index must be an integer. -/
  | indexNotInteger
  /-- A name must be a text. -/
  | nameNotText
  /-- An extension must be a text. -/
  | extensionNotText
  /-- An index lies outside of a list. -/
  | noSuchIndex
  /-- No file is open. -/
  | noFile
  /-- A file holds data in the place of a window. -/
  | noWindow
  /-- No folder is left to be selected. -/
  | noFolder
  /-- A file cannot be written at a path. -/
  | path (e : PathError)
  /-- A text is no path. -/
  | badPath (r : PathRefusal)
  /-- A text has no UTF-8 form. -/
  | notEncodable (refusal : Text.Utf8Refusal)
  /-- The result of a task is no object. -/
  | resultNotObject
  /-- What an assistant proposes is no object. -/
  | proposalNotObject
  /-- The result of a task lacks this field. -/
  | missingKey (name : String)
  /-- An integer has too many digits to be written. -/
  | unwritableInteger
  /-- A JSON text has an integer with too many digits. -/
  | oversizedInteger (digits : Nat)
  /-- A JSON text has a container that is nested too deeply. -/
  | tooDeep (container : Json.Container)
  /-- The model answers with something of this kind that is no text. -/
  | contentNotText (kind : String)
  /-- The assistant has never been connected. -/
  | neverConnected
  /-- There are too few or too many arguments. -/
  | wrongArguments
  /-- The shelf of saved scripts is closed. -/
  | shelfClosed
  /-- A saved script has this id already. -/
  | duplicateScript
  /-- An array or object is no id of a saved script. -/
  | badScriptId
  /-- An integer of more than 64 bits is no id of a saved script. -/
  | oversizedScriptId
  /-- The limit of the shelf is no whole number. -/
  | limitNotInteger
  /-- The limit of the shelf is an integer of more than 64 bits. -/
  | oversizedLimit
  /-- The limit of the shelf is an array or object. -/
  | limitIsContainer
deriving DecidableEq

/-- The wording of a fault, for those that have one. -/
def Fault.message : Fault → Text
  | rejected r => r.message
  | badCapacity => Text.ofString (History.badCapacity)
  | unknownKind shown => "Unknown element type: " ++ shown
  | noWindow => "'NoneType' object has no attribute 'model_dump_json'"
  | contentNotText kind => Text.ofString ("'" ++ kind ++ "' object has no attribute 'find'")
  | badPath .null => Text.ofString Path.nullMessage
  | notEncodable refusal => refusal.message
  | unwritableInteger => Numeral.unwritable
  | oversizedInteger digits => (Json.Error.oversizedInteger digits).message
  | tooDeep container => (Json.Error.tooDeep container).message
  | shelfClosed => "Cannot operate on a closed database."
  | duplicateScript => "UNIQUE constraint failed: saved_scripts.id"
  | _ => []

end GuiBuilder
