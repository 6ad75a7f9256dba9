import GuiBuilder.Session.Basic
import GuiBuilder.Session.Patch

/-!
# Edits of the widget tree

Folders and elements are added, changed and deleted in the window of the active file. What an edit
changes is what is selected: the element that is selected if there is one, else the folder, else
the window. An edit that succeeds is one commit; one that is refused leaves the history and the
selection as they are.
-/

namespace GuiBuilder

/-- What is selected in a window. -/
inductive Selected where
  | element (e : Element)
  | folder (f : Folder)
  | window (w : Window)

/-- The word for what is selected. -/
def Selected.word : Selected → String
  | element _ => "element"
  | folder _ => "folder"
  | window _ => "window"

namespace Window

/-- The first element with an id, in document order. -/
def element? (w : Window) (id : Text) : Option Element := w.elements.find? fun e => decide (e.id = id)

/-- The first folder with an id. -/
def folder? (w : Window) (id : Text) : Option Folder := w.folders.find? fun f => decide (f.id = id)

/-- What a selection selects in a window. An id that is not given selects nothing. -/
def selected (w : Window) (selection : Selection) : Selected :=
  let element := (selection.element.filter fun id => !id.isEmpty).bind w.element?
  let folder := (selection.folder.text?.filter fun id => !id.isEmpty).bind w.folder?
  match element, folder with
  | some e, _ => .element e
  | none, some f => .folder f
  | none, none => .window w

/-- The window with a folder at the end. -/
def addFolder (w : Window) (f : Folder) : Window := { w with folders := w.folders ++ [f] }

/-- The window in which every folder of an id is changed. -/
def changeFolder (w : Window) (id : Text) (change : Folder → Folder) : Window :=
  { w with folders := w.folders.map fun f => if f.id = id then change f else f }

/-- The window in which every element of an id is changed. -/
def changeElement (w : Window) (id : Text) (change : Element → Element) : Window :=
  { w with
    folders := w.folders.map fun f =>
      { f with elements := f.elements.map fun e => if e.id = id then change e else e } }

/-- The window without the elements of an id. -/
def removeElement (w : Window) (id : Text) : Window :=
  { w with
    folders := w.folders.map fun f =>
      { f with elements := f.elements.filter fun e => decide (e.id ≠ id) } }

/-- The window without the folders of an id. -/
def removeFolder (w : Window) (id : Text) : Window :=
  { w with folders := w.folders.filter fun f => decide (f.id ≠ id) }

end Window

/-- The folder with an element at the end. -/
def Folder.addElement (f : Folder) (e : Element) : Folder :=
  { f with elements := f.elements ++ [e] }

/-- Whether something but the file is selected. -/
def Selection.isGiven (selection : Selection) : Bool :=
  selection.element.any (fun id => !id.isEmpty) || selection.folder.isGiven

namespace Session

/-- What is selected in the active file; nothing when it holds no window. -/
def selected (s : Session) : Outcome (Option Selected) :=
  s.withActive fun file =>
    match file.content with
    | .window w => s.answer (some (w.selected s.selection))
    | .data .. => if s.selection.isGiven then s.fault .noWindow else s.answer none

/-- Adds an empty folder at the end and selects it. -/
def addFolder (s : Session) : Outcome Folder :=
  match Folder.make s.ids.next newFolderText with
  | .error r => s.drawId.fault (.rejected r)
  | .ok folder =>
    s.drawId.withWindow fun file w =>
      (s.drawId.replaceWindow file.id (w.addFolder folder)).andThen fun s _ =>
        (s.selectFolder (.text folder.id)).answer folder

/-- The session with an element selected, and the folder left as it is. -/
def markElement (s : Session) (id : Option Text) : Session :=
  { s with selection := { s.selection with element := id } }

/-- Adds a new element at the end of the selected folders and selects it. -/
def addElement (s : Session) (kind : Value) : Outcome (Option Element) :=
  s.withWindow fun file w =>
    match s.selection.folder.text?.filter fun id => (w.folder? id).isSome with
    | none => (s.log .warn "Select a folder first.").answer none
    | some folderId =>
      match Kind.ofValue kind with
      | .error .container => s.fault .kindIsContainer
      | .error (.unknown shown) =>
        (s.log .error (Fault.message (.unknownKind shown))).answer none
      | .ok kind =>
        match Element.make kind s.ids.next with
        | .error r => (s.drawId.log .error r.message).answer none
        | .ok e =>
          let new := w.changeFolder folderId fun f => f.addElement e
          (s.drawId.replaceWindow file.id new).andThen fun s _ =>
            (s.markElement (some e.id)).answer (some e)

/-- Deletes an element or folder of the window of a file. The window itself is not deleted, nor
its last folder. -/
def delete (s : Session) (file : File) (w : Window) : Selected → Outcome Bool
  | .element e =>
    (s.replaceWindow file.id (w.removeElement e.id)).andThen fun s _ =>
      (s.markElement none).answer true
  | .folder f =>
    if w.folders.length ≤ 1 then (s.log .warn "Cannot delete the last tab.").answer false
    else
      (s.replaceWindow file.id (w.removeFolder f.id)).andThen fun s _ =>
        match (w.removeFolder f.id).folders with
        | first :: _ => (s.selectFolder (.text first.id)).answer true
        | [] => s.fault .noFolder
  | .window _ => s.answer false

/-- Deletes the selected element or folder. -/
def deleteSelected (s : Session) : Outcome Bool :=
  s.withActive fun file =>
    match file.content with
    | .window w => s.delete file w (w.selected s.selection)
    | .data .. => if s.selection.isGiven then s.fault .noWindow else s.answer false

/-- The window of a file after a patch of what is selected in it. -/
def patchSelected (w : Window) (patch : Fields) : Selected → Except PatchError Window
  | .element e => (e.patch patch).map fun new => w.changeElement e.id fun _ => new
  | .folder f => (f.patch patch).map fun new => w.changeFolder f.id fun _ => new
  | .window w => w.patch patch

/-- Patches what is selected. -/
def updateSelected (s : Session) (patch : Fields) : Outcome Bool :=
  s.withWindow fun file w =>
    let target := w.selected s.selection
    match patchSelected w patch target with
    | .ok new => (s.replaceWindow file.id new).map fun _ => true
    | .error e =>
      (s.log .error ("Rejected edit on " ++ Text.ofString target.word ++ ": " ++ e.message)).answer
        false

end Session

end GuiBuilder
