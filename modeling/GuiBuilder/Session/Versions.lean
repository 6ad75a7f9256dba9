import GuiBuilder.LineDiff
import GuiBuilder.Script.Generate
import GuiBuilder.Session.Basic

/-!
# Undo, redo and versions

Undo and redo move through the history and leave the selection alone. The versions of a file can
be listed, compared with the version before, and restored. Restoring is an edit of its own: it
puts the file of the version into its tab, or into a new last tab when the file is not open.
-/

namespace GuiBuilder

/-- The script of the file of a version. -/
def Version.script (v : Version) : Except Fault Text :=
  match v.file.window? with
  | some w => w.script
  | none => .error .noWindow

namespace Session

/-- Makes the tabs before the last edit the current ones. -/
def undo (s : Session) : Session × Option Tabs :=
  match s.history.undo? with
  | none => (s, none)
  | some history => (({ s with history := history } : Session).log .info "Undo successful",
      some history.current)

/-- Makes the tabs after the last undone edit the current ones. -/
def redo (s : Session) : Session × Option Tabs :=
  match s.history.redo? with
  | none => (s, none)
  | some history => (({ s with history := history } : Session).log .info "Redo successful",
      some history.current)

/-- The versions of the file that a value names, newest first. -/
def versions (s : Session) (id : Value) : List Version :=
  match id.text? with
  | some t => s.history.versions t
  | none => []

/-- The index that a value is, if it lies in a list of some length: an integer, or a truth value
as one. Another number in the range is no index, and what is no number cannot be compared. -/
def indexIn (length : Nat) : Value → Except Fault (Option Nat)
  | .int i => .ok (if 0 ≤ i ∧ i < length then some i.toNat else none)
  | .bool b => .ok (if b.toNat < length then some b.toNat else none)
  | .float (.finite x) =>
    let below := x.negative && decide (x.magnitude ≠ .zero)
    if !below && decide (x.magnitude.floor < length) then .error .indexNotInteger else .ok none
  | .float _ => .ok none
  | _ => .error .indexNotInteger

/-- The edit script from the version before the one at an index to that version, as scripts. -/
def versionDiff (s : Session) (id index : Value) : Outcome (List LineDiff.Entry) :=
  let versions := s.versions id
  match indexIn versions.length index with
  | .error f => s.fault f
  | .ok none => (s.log .error "Version not found.").answer []
  | .ok (some i) =>
    match Version.pair? versions i with
    | none => s.fault .noSuchIndex
    | some (selected, previous) =>
      match previous.script with
      | .error f => s.fault f
      | .ok old =>
        match selected.script with
        | .error f => s.fault f
        | .ok new => s.answer (LineDiff.between old new)

/-- Puts the file of a version back. -/
def restoreVersion (s : Session) (id index : Value) : Outcome Bool :=
  let versions := s.versions id
  match indexIn versions.length index with
  | .error f => s.fault f
  | .ok none => (s.log .error "Version not found.").answer false
  | .ok (some i) =>
    match versions[i]? with
    | none => s.fault .noSuchIndex
    | some version =>
      let file := version.file
      let tabs := match Tabs.file? s.files file.id with
        | some _ => Tabs.change s.files file.id fun _ => file
        | none => s.files ++ [file]
      (s.commit tabs).andThen fun s _ =>
        (s.log .success ("Restored version of " ++ file.name)).answer true

end Session

end GuiBuilder
