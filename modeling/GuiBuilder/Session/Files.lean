import GuiBuilder.Session.Basic
import GuiBuilder.Session.Patch
import GuiBuilder.Text.Blank

/-!
# Open files

Files are opened, renamed and closed, each in a tab of its own. At least one tab stays open. A
window that comes from elsewhere, such as a saved script or a proposal, is opened in a new tab or
takes the place of the window of an open file.
-/

namespace GuiBuilder

/-- The tabs without the files of an id. -/
def Tabs.without (tabs : Tabs) (id : Text) : Tabs := tabs.filter fun f => decide (f.id ≠ id)

/-- The name of a file for a window that is opened without one. -/
def Window.fileName (w : Window) : Text := w.title ++ "." ++ Text.ofString scriptLanguage

namespace Session

/-- Opens a file in a new last tab, selects it and says so in the console. -/
def openTab (s : Session) (file : File) (message : String) : Outcome File :=
  (s.commit (s.files ++ [file])).andThen fun s _ =>
    (s.selectFile (.text file.id)).andThen fun s _ => (s.log .info message).answer file

/-- Opens a new file. -/
def newFile (s : Session) : Outcome File :=
  match File.fresh s.ids (.text newFileName) .null (.text newTitle) with
  | (.error r, ids) => ({ s with ids := ids } : Session).fault (.rejected r)
  | (.ok file, ids) => ({ s with ids := ids } : Session).openTab file "Opened new tab."

/-- Opens a window in a new tab. The name is that of the window unless another one is given. -/
def openWindow (s : Session) (w : Window) (name : Value) : Outcome File :=
  let name := if name.isGiven then name else .text w.fileName
  match File.make (.text s.ids.next) name w with
  | .error r => s.drawId.fault (.rejected r)
  | .ok file => s.drawId.openTab file "Loaded script into new tab."

/-- Puts a content in the place of that of an open file. -/
def applyContent (s : Session) (id : Value) (c : Content) : Outcome Bool :=
  match s.fileNamed? id with
  | none => (s.log .error "File not found.").answer false
  | some file => (s.replaceContent file.id c).map fun _ => true

/-- Puts a window in the place of that of an open file. -/
def applyWindow (s : Session) (id : Value) (w : Window) : Outcome Bool :=
  s.applyContent id (.window w)

/-- Renames an open file. A name of nothing but blanks is refused. -/
def renameFile (s : Session) (id name : Value) : Outcome Bool :=
  if !name.isGiven then (s.log .warn "File name cannot be empty.").answer false
  else match name.text? with
    | none => s.fault .nameNotText
    | some t =>
      if t.isBlank then (s.log .warn "File name cannot be empty.").answer false
      else match s.fileNamed? id with
        | none => (s.log .error "File not found for renaming").answer false
        | some file =>
          match file.patch [(Field.name.spelled .name, .text t)] with
          | .error e => (s.log .error ("Rejected rename: " ++ e.message)).answer false
          | .ok renamed =>
            (s.commit (Tabs.change s.files file.id fun _ => renamed)).andThen fun s _ =>
              (s.log .success ("Renamed to " ++ renamed.name)).answer true

/-- Closes an open file. If the selection names it, the last remaining tab is selected. -/
def closeFile (s : Session) (id : Value) : Outcome Bool :=
  if s.files.length = 1 then (s.log .warn "Cannot close the last tab.").answer false
  else match s.fileNamed? id with
    | none => (s.log .error "File not found.").answer false
    | some file =>
      let remaining := Tabs.without s.files file.id
      (s.commit remaining).andThen fun s _ =>
        if s.selection.file = file.id then
          match remaining.getLast? with
          | some last => (s.selectFile (.text last.id)).map fun _ => true
          | none => s.fault .noFile
        else s.answer true

end Session

end GuiBuilder
