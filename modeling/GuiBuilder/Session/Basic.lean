import GuiBuilder.Console
import GuiBuilder.Document
import GuiBuilder.Lineage
import GuiBuilder.Preferences
import GuiBuilder.Fault

/-!
# Editing sessions

A session is one user's work on some files: the history of the open tabs, what is selected, the
console, the chat with the assistant and the preferences. Every edit that succeeds pushes one
snapshot of the tabs; `Outcome.andThen` runs one call after another until one ends in a fault.

The active file is the one that the selection names, or the first one when no tab has that id. Ids
that come from outside are values of any kind; only a text can name anything.
-/

namespace GuiBuilder

/-- The first folder of a window that has an element of this id. -/
def Window.folderOfElement? (w : Window) (id : Text) : Option Folder :=
  w.folders.find? fun f => f.elements.any fun e => decide (e.id = id)

/-- The tabs in which every file of an id is changed. -/
def Tabs.change (tabs : Tabs) (id : Text) (f : File → File) : Tabs :=
  tabs.map fun file => if file.id = id then f file else file

/-- What is selected: the active file, and a folder and an element of its window. -/
structure Selection where
  file : Text
  folder : Value
  element : Option Text

/-- A message of the chat with the assistant. -/
structure ChatMessage where
  role : String
  text : Value

/-- One user's work on some files. -/
structure Session where
  history : History Tabs
  selection : Selection
  console : Console
  /-- The chat with the assistant, oldest message first. -/
  chat : List ChatMessage
  /-- Whether a background task has not been reported yet. -/
  busy : Bool
  /-- The fingerprint of the window whose script was generated last, and that script. -/
  cache : Option (Text × Text)
  ids : IdSupply
  preferences : Preferences

/-- What a call leaves behind, and its answer or fault. -/
structure Outcome (α : Type) where
  session : Session
  result : Except Fault α

namespace Outcome

variable {α β : Type}

/-- Goes on where a call has answered. -/
def andThen (o : Outcome α) (next : Session → α → Outcome β) : Outcome β :=
  match o with
  | ⟨s, .ok a⟩ => next s a
  | ⟨s, .error f⟩ => ⟨s, .error f⟩

/-- The same outcome with the answer in another form. -/
def map (o : Outcome α) (f : α → β) : Outcome β := ⟨o.session, o.result.map f⟩

end Outcome

namespace Session

/-- A call that answers. -/
def answer {α : Type} (s : Session) (a : α) : Outcome α := ⟨s, .ok a⟩

/-- A call that ends in a fault. -/
def fault {α : Type} (s : Session) (f : Fault) : Outcome α := ⟨s, .error f⟩

@[simp] theorem answer_andThen {α β : Type} (s : Session) (a : α)
    (next : Session → α → Outcome β) : (s.answer a).andThen next = next s a := rfl

@[simp] theorem fault_andThen {α β : Type} (s : Session) (f : Fault)
    (next : Session → α → Outcome β) : (s.fault f).andThen next = s.fault f := rfl

/-! ### Views -/

/-- The open files. -/
def files (s : Session) : Tabs := s.history.current

/-- The active file, if any file is open. -/
def activeFile? (s : Session) : Option File :=
  (Tabs.file? s.files s.selection.file).or s.files.head?

/-- The open file that a value names. -/
def fileNamed? (s : Session) (id : Value) : Option File := id.text?.bind (Tabs.file? s.files)

/-- Goes on with the active file. -/
def withActive {α : Type} (s : Session) (next : File → Outcome α) : Outcome α :=
  match s.activeFile? with
  | some file => next file
  | none => s.fault .noFile

/-- Goes on with the active file and its window. -/
def withWindow {α : Type} (s : Session) (next : File → Window → Outcome α) : Outcome α :=
  s.withActive fun file =>
    match file.content with
    | .window w => next file w
    | .data .. => s.fault .noWindow

/-! ### Console -/

/-- The session after a log entry. -/
def log (s : Session) (level : Level) (message : Text) : Session :=
  { s with console := s.console.log ⟨level, message⟩ }

/-! ### Selection -/

/-- The first folder of a window as a selection: its id, or nothing. -/
def firstFolder (w : Window) : Value :=
  match w.folders with
  | f :: _ => .text f.id
  | [] => .null

/-- Makes a file the active one, and selects the first folder of its window if there is one. When
the file holds no window, what else is selected stays and the call ends in a fault. -/
def activate (s : Session) (file : File) : Outcome Unit :=
  match file.content with
  | .window w =>
    ({ s with selection := ⟨file.id, firstFolder w, none⟩ } : Session).answer ()
  | .data .. =>
    ({ s with selection := { s.selection with file := file.id } } : Session).fault .noWindow

/-- Selects the open file that a value names. -/
def selectFile (s : Session) (id : Value) : Outcome Bool :=
  match s.fileNamed? id with
  | some file => (s.activate file).map fun _ => true
  | none => (s.log .error "File not found.").answer false

/-- Selects a folder, whether or not there is one of that id. -/
def selectFolder (s : Session) (id : Value) : Session :=
  { s with selection := { s.selection with folder := id, element := none } }

/-- Selects nothing but the file. -/
def clearSelection (s : Session) : Session := s.selectFolder .null

/-- Selects the element that a value names, and its folder. -/
def selectElement (s : Session) (id : Value) : Outcome Bool :=
  s.withWindow fun _ w =>
    match id.text?.bind fun t => (w.folderOfElement? t).map fun f => (t, f) with
    | some (t, folder) =>
      ({ s with selection := { s.selection with folder := .text folder.id, element := some t } }
        : Session).answer true
    | none => s.answer false

/-! ### Commits -/

/-- Makes some tabs the current ones, as one step of the history. -/
def commit (s : Session) (tabs : Tabs) : Outcome Unit :=
  if s.history.stalls then
    ({ s with history := s.history.stalled tabs } : Session).fault .historyStalled
  else ({ s with history := s.history.push tabs } : Session).answer ()

/-- Puts a content into the files of an id. -/
def replaceContent (s : Session) (id : Text) (c : Content) : Outcome Unit :=
  s.commit (Tabs.change s.files id fun file => { file with content := c })

/-- Puts a window into the files of an id. -/
def replaceWindow (s : Session) (id : Text) (w : Window) : Outcome Unit :=
  s.replaceContent id (.window w)

/-- The session with one id drawn. -/
def drawId (s : Session) : Session := { s with ids := s.ids.rest }

/-! ### Start -/

/-- The capacity that an integer is. -/
def capacityOfInt (i : Int) : Except Fault Capacity :=
  if h : 0 < i.toNat then .ok (.count i.toNat h) else .error .badCapacity

/-- The capacity that a value is. A number that is no integer is a bound, and one above all
integers none at all. -/
def capacityOf : Value → Except Fault Capacity
  | .int i => capacityOfInt i
  | .bool b => capacityOfInt (if b then 1 else 0)
  | .float (.finite x) =>
    if x.negative ∨ x.magnitude.floor = 0 then .error .badCapacity
    else .ok (.bound x.magnitude.floor)
  | .float (.infinite true) => .error .badCapacity
  | .float (.infinite false) | .float .nan => .ok .unbounded
  | _ => .error .capacityNotNumber

/-- A session on one file. A capacity that is not given is taken from the preferences. -/
def start (file : File) (capacity : Value) (ids : IdSupply) (preferences : Preferences) :
    Except Fault Session :=
  let capacity := if capacity.isGiven then capacity else preferences.get "history_capacity"
  match capacityOf capacity with
  | .error f => .error f
  | .ok n =>
    match activate ⟨.start n [file], ⟨file.id, .null, none⟩, .initial, [], false, none, ids,
      preferences⟩ file with
    | ⟨s, .ok ()⟩ => .ok s
    | ⟨_, .error f⟩ => .error f

/-- A session on a given file, or on a fresh one. -/
def begin (file : Option File) (capacity : Value) (ids : IdSupply) (preferences : Preferences) :
    Except Fault Session :=
  match file with
  | some file => start file capacity ids preferences
  | none =>
    match File.fresh ids (.text defaultFileName) .null (.text defaultTitle) with
    | (.ok file, ids) => start file capacity ids preferences
    | (.error r, _) => .error (.rejected r)

end Session

end GuiBuilder
