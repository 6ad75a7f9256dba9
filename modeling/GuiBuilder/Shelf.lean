import GuiBuilder.Fault
import GuiBuilder.Json.Reader
import GuiBuilder.Number.AnyScript
import GuiBuilder.Number.Rounded
import GuiBuilder.Schema.Scalar
import GuiBuilder.Widget.Canonical

/-!
# Saved scripts

The shelf keeps saved windows under names and ids, the newest ones up to a limit. It is a table of
numbered rows: a new row takes the number after the largest one, and pruning keeps the rows with
the largest numbers. A window is stored in its canonical form and read back from it.

Rows outlive the shelf: closing it ends its use, and opening it again finds the rows that were
stored. A call that succeeds stores all rows there are. A limit that is no integer makes pruning
fail, and the row that was to be saved is then there without being stored.

A failure among the rows, of a new id that is taken or of pruning, stands until a later call gets as
far as the rows. While it stands, an argument that the rows cannot be searched for is reported as
that failure, unless the question is a new one.
-/

namespace GuiBuilder

/-- A window that was saved. When that was is left out: the rows stand in the order in which they
were saved, and nothing else depends on the time. -/
structure SavedScript where
  id : Text
  name : Text
  window : Window
deriving DecidableEq

namespace Shelf

/-- A row of the table. -/
structure Row where
  number : Nat
  id : Text
  name : Text
  /-- The window in its canonical form. -/
  content : Text
deriving DecidableEq

/-- The limits of the reader of saved scripts. No window is nested as deep. -/
def Row.limits : Json.Limits := .ofDepth 200

/-- The saved script of a row, if its content can be read back. -/
def Row.script? (r : Row) : Option SavedScript :=
  (Window.ofJson? Row.limits r.content).map fun w => ⟨r.id, r.name, w⟩

end Shelf

/-- How many rows pruning keeps. -/
inductive Shelf.Limit where
  /-- So many of the newest ones; all of them if the number is negative. -/
  | rows (n : Int)
  /-- The value that was given stands for no integer, so pruning fails among the rows. -/
  | noInteger
  /-- The value that was given is refused before pruning starts. -/
  | unusable (f : Fault)
deriving DecidableEq

/-- What the rows are searched for with an id. -/
inductive Shelf.Question where
  | find
  | remove
deriving DecidableEq

/-- The shelf of saved scripts. -/
structure Shelf where
  rows : List Shelf.Row
  /-- The rows that the shelf has when it is opened again. -/
  stored : List Shelf.Row
  limit : Shelf.Limit
  isOpen : Bool
  /-- The failure among the rows that stands. -/
  failure : Option Fault
  /-- The questions that have been asked since the shelf was opened. -/
  asked : List Shelf.Question
deriving DecidableEq

namespace Shelf

/-- How many scripts are kept unless told otherwise. -/
def defaultLimit : Limit := .rows 10

namespace Limit

/-- The limit that a number is: an integer of 64 bits, strictly so in the case of a floating-point
number. -/
def ofNumber : Binary64 → Limit
  | .finite x =>
    match x.toInt? with
    | some n => if -Schema.wordBound < n ∧ n < Schema.wordBound then .rows n else .noInteger
    | none => .noInteger
  | _ => .noInteger

/-- The limit that a text is: the number that it stands for, an integer if it is digits only. -/
def ofText (t : Text) : Limit :=
  let (negative, rest) := Text.spanSign (Text.trimAscii t)
  let (digits, more) := Text.spanDigits rest
  let size : Int := digitsValue digits
  let n := if negative then -size else size
  if !digits.isEmpty && more.isEmpty && Schema.fitsWord n then .rows n
  else match Numeral.unsigned? negative rest with
    | some n => ofNumber n.toBinary64
    | none => .noInteger

/-- The limit that a value is. -/
def ofValue : Value → Limit
  | .int n => if Schema.fitsWord n then .rows n else .unusable .oversizedLimit
  | .bool b => .rows b.toNat
  | .float x => ofNumber x
  | .text t =>
    match Text.firstSurrogates? t with
    | some refusal => .unusable (.notEncodable refusal)
    | none => ofText t
  | .null => .noInteger
  | .array _ | .object _ => .unusable .limitIsContainer

end Limit

/-- An empty shelf. -/
def empty (limit : Limit) : Shelf := ⟨[], [], limit, true, none, []⟩

/-- The shelf after it has been closed. -/
def close (s : Shelf) : Shelf := { s with rows := s.stored, isOpen := false }

/-- The shelf after it has been opened again, with a limit of its own. -/
def reopen (s : Shelf) (limit : Limit) : Shelf := ⟨s.stored, s.stored, limit, true, none, []⟩

/-- The shelf with some rows, which are there when it is opened again. -/
def store (s : Shelf) (rows : List Row) : Shelf := { s with rows := rows, stored := rows }

/-- The number that a new row takes. -/
def nextNumber (rows : List Row) : Nat := (rows.map Row.number).foldl max 0 + 1

/-- The rows in the order of their numbers, the largest first. -/
def newestFirst (rows : List Row) : List Row :=
  rows.mergeSort fun a b => decide (b.number ≤ a.number)

/-- The rows with the largest numbers, `n` of them; all rows if `n` is negative. -/
def prune (n : Int) (rows : List Row) : List Row :=
  if n < 0 then rows
  else
    let kept := ((newestFirst rows).take n.toNat).map Row.number
    rows.filter fun r => r.number ∈ kept

/-- The shelf after a call that got as far as the rows and did not fail there. -/
def settle (s : Shelf) : Shelf := { s with failure := none }

/-- The shelf after a failure among the rows, and that failure. -/
def fail {α : Type} (s : Shelf) (f : Fault) : Shelf × Except Fault α :=
  ({ s with failure := some f }, .error f)

/-- The refusal of an argument: it is reported as the failure that stands, if one does. -/
def refuse {α : Type} (s : Shelf) (f : Fault) : Shelf × Except Fault α :=
  (s, .error (s.failure.getD f))

/-- Adds a row for a script, and prunes the rows. When pruning fails the new row is there, but only
a later call that succeeds stores it. -/
def insert (s : Shelf) (script : SavedScript) : Shelf × Except Fault SavedScript :=
  if s.rows.any fun r => decide (r.id = script.id) then s.fail .duplicateScript
  else
    let rows := s.rows ++ [⟨nextNumber s.rows, script.id, script.name, script.window.canonical⟩]
    match s.limit with
    | .rows n => (s.store (prune n rows), .ok script)
    | .noInteger => { s with rows := rows }.fail .limitNotInteger
    | .unusable f => ({ s with rows := rows }, .error f)

/-- Reads the name and the window of a script that is to be saved. -/
def readScript (name : Value) (content : Content) : Except Rejection (Text × Window) :=
  let window : Checked Window := match content with
    | .window w => .ok w
    | .data v _ => Window.ofValue v
  (Prod.mk <$> (Schema.readAnyText name).under (.key (Field.name.spelled .name))
    <*> window.under (.key (Field.data.spelled .name))).as .savedScript

/-- Saves the content of a file under a name. The id is new. -/
def save (s : Shelf) (id : Text) (name : Value) (content : Content) :
    Shelf × Except Fault SavedScript :=
  match readScript name content with
  | .error r => (s, .error (.rejected r))
  | .ok (name, w) =>
    if !s.isOpen then (s, .error .shelfClosed)
    else match Text.firstSurrogates? id, Text.firstSurrogates? name with
      | some refusal, _ => s.refuse (.notEncodable refusal)
      | none, some refusal => s.settle.refuse (.notEncodable refusal)
      | none, none => s.settle.insert ⟨id, name, w⟩

/-- The saved scripts, newest first. -/
def list (s : Shelf) : Shelf × Except Fault (List SavedScript) :=
  if s.isOpen then (s.settle, .ok ((newestFirst s.rows).filterMap Row.script?))
  else (s, .error .shelfClosed)

/-- The text with which a number is compared as an id: fifteen significant digits. -/
def numberText? : Binary64 → Option Text
  | .nan => none
  | .infinite negative => some (if negative then "-Inf" else "Inf")
  | .finite x => some (Layout.rounded 15 x)

/-- The text with which a value is compared as an id. -/
def idText? : Value → Except Fault (Option Text)
  | .text t =>
    match Text.firstSurrogates? t with
    | some refusal => .error (.notEncodable refusal)
    | none => .ok (some t)
  | .int i => if Schema.fitsWord i then .ok (some (Text.ofInt i)) else .error .oversizedScriptId
  | .bool b => .ok (some (Text.ofNat b.toNat))
  | .float x => .ok (numberText? x)
  | .null => .ok none
  | .array _ | .object _ => .error .badScriptId

/-- The shelf as a question finds it: a new question ends the failure that stands. -/
def prepare (s : Shelf) (q : Question) : Shelf :=
  if q ∈ s.asked then s else { s.settle with asked := q :: s.asked }

/-- Asks a question with an id. The answer is the text that the ids are compared with. -/
def ask (s : Shelf) (q : Question) (id : Value) : Shelf × Except Fault (Option Text) :=
  if !s.isOpen then (s, .error .shelfClosed)
  else match idText? id with
    | .ok t => ((s.prepare q).settle, .ok t)
    | .error f => (s.prepare q).refuse f

/-- The saved script with an id, if there is one. -/
def get (s : Shelf) (id : Value) : Shelf × Except Fault (Option SavedScript) :=
  let (s, answer) := s.ask .find id
  (s, answer.map fun id => (s.rows.find? fun r => decide (some r.id = id)).bind Row.script?)

/-- Takes the saved script with an id away, and says whether there was one. -/
def delete (s : Shelf) (id : Value) : Shelf × Except Fault Bool :=
  match s.ask .remove id with
  | (s, .error f) => (s, .error f)
  | (s, .ok id) =>
    (s.store (s.rows.filter fun r => decide (some r.id ≠ id)),
      .ok (s.rows.any fun r => decide (some r.id = id)))

end Shelf

end GuiBuilder
