import GuiBuilder.Session.Edit
import GuiBuilder.Session.Files
import GuiBuilder.Session.Output
import GuiBuilder.Session.Versions

/-!
# Commands

Everything that a host can ask of a session is a `Command`, and `Session.run` carries one out.
What a session can become is then what a list of commands makes of it (`Session.after`).
-/

namespace GuiBuilder

/-- What a host can ask of a session. -/
inductive Command where
  | addFolder
  | addElement (kind : Value)
  | deleteSelected
  | updateSelected (patch : Fields)
  | newFile
  | openWindow (window : Window) (name : Value)
  | applyWindow (id : Value) (window : Window)
  | renameFile (id name : Value)
  | closeFile (id : Value)
  | restoreVersion (id index : Value)
  | undo
  | redo
  | selectFile (id : Value)
  | selectFolder (id : Value)
  | selectElement (id : Value)
  | clearSelection
  | selected
  | files
  | findFile (id : Value)
  | code
  | versions (id : Value)
  | versionDiff (id index : Value)
  | analyze
  | exportTo (provide : Text → Except Fault (Text → Found)) (directory : Text) (extension : Value)
  | log (message level : Value)
  | clearLog

/-- What a session answers. -/
inductive Reply where
  | nothing
  | truth (b : Bool)
  | folder (f : Folder)
  | element (e : Element)
  | file (f : File)
  | files (tabs : Tabs)
  /-- The tabs that undo or redo made the current ones. -/
  | restored (tabs : Tabs)
  /-- What is selected; nothing when the file holds no window. -/
  | selected (target : Option Selected)
  | script (t : Text)
  | versions (vs : List Version)
  | diff (entries : List LineDiff.Entry)
  | issues (is : List Issue)
  | exported (e : Exported)
  | entry (e : LogEntry)

/-- Whether an answer says that something was done: it is a part of a document, or true. -/
def Reply.isSuccess : Reply → Bool
  | truth b => b
  | folder _ | element _ | file _ => true
  | _ => false

namespace Session

/-- Puts a message into the log. -/
def logValues (s : Session) (message level : Value) : Outcome LogEntry :=
  match LogEntry.ofValues level message with
  | .error r => s.fault (.rejected r)
  | .ok e => (s.log e.level e.message).answer e

/-- Carries out a command. -/
def run (s : Session) : Command → Outcome Reply
  | .addFolder => s.addFolder.map .folder
  | .addElement kind =>
    (s.addElement kind).map fun e => match e with
      | some e => .element e
      | none => .nothing
  | .deleteSelected => s.deleteSelected.map .truth
  | .updateSelected patch => (s.updateSelected patch).map .truth
  | .newFile => s.newFile.map .file
  | .openWindow w name => (s.openWindow w name).map .file
  | .applyWindow id w => (s.applyWindow id w).map .truth
  | .renameFile id name => (s.renameFile id name).map .truth
  | .closeFile id => (s.closeFile id).map .truth
  | .restoreVersion id index => (s.restoreVersion id index).map .truth
  | .undo =>
    s.undo.1.answer (match s.undo.2 with
      | some tabs => .restored tabs
      | none => .nothing)
  | .redo =>
    s.redo.1.answer (match s.redo.2 with
      | some tabs => .restored tabs
      | none => .nothing)
  | .selectFile id => (s.selectFile id).map .truth
  | .selectFolder id => (s.selectFolder id).answer .nothing
  | .selectElement id => (s.selectElement id).map .truth
  | .clearSelection => s.clearSelection.answer .nothing
  | .selected => s.selected.map .selected
  | .files => s.answer (.files s.files)
  | .findFile id =>
    s.answer (match s.fileNamed? id with
      | some f => .file f
      | none => .nothing)
  | .code => s.code.map .script
  | .versions id => s.answer (.versions (s.versions id))
  | .versionDiff id index => (s.versionDiff id index).map .diff
  | .analyze => s.analyze.map .issues
  | .exportTo provide directory extension => (s.exportTo provide directory extension).map .exported
  | .log message level => (s.logValues message level).map .entry
  | .clearLog => ({ s with console := s.console.clear } : Session).answer .nothing

/-- What a session becomes when commands are carried out one after the other. -/
def after (s : Session) (commands : List Command) : Session :=
  commands.foldl (fun s c => (s.run c).session) s

end Session

end GuiBuilder
