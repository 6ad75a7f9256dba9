import GuiBuilder.Analysis
import GuiBuilder.Export
import GuiBuilder.Script.Generate
import GuiBuilder.Session.Basic
import GuiBuilder.Storage.Found
import GuiBuilder.Widget.Canonical

/-!
# Scripts, analysis and export of the active file

The script of the active file is generated once for each window: it is kept with the fingerprint
of the window, and generated anew when that has changed. The analysis reports its issues in the
console. An export is a path and a content to be written there, once the directory has been made and
the file system has been asked whether a file can be written at that path.
-/

namespace GuiBuilder

/-- A file to be written. -/
structure Exported where
  path : Text
  content : Text
deriving DecidableEq

/-- The path under which a file is exported to a directory. -/
def exportPath (directory name extension : Text) : Text :=
  Path.join directory (exportName name extension)

namespace Session

/-- The script of the active file. Nothing is kept if there is none. -/
def code (s : Session) : Outcome Text :=
  s.withWindow fun _ w =>
    match Text.utf8? w.canonical, w.fingerprint? with
    | some _, some fingerprint =>
      match s.cache.filter fun kept => decide (kept.1 = fingerprint) with
      | some (_, script) => s.answer script
      | none =>
        match w.script with
        | .error f => s.fault f
        | .ok script => ({ s with cache := some (fingerprint, script) } : Session).answer script
    | _, _ =>
      s.fault (.notEncodable ((Text.firstSurrogates? w.canonical).getD ⟨0, 0, 0⟩))

/-- Reports the issues of the active file in the console. -/
def analyze (s : Session) : Outcome (List Issue) :=
  s.withActive fun file =>
    let s := s.log .info ("Running analysis for " ++ file.name ++ "...")
    match file.content with
    | .data .. => s.fault .noWindow
    | .window w =>
      let s := w.issues.foldl (fun s issue => s.log .warn issue.finding.message) s
      let level := if w.issues.isEmpty then Level.success else .warn
      (s.log level (analysisSummary w.issues)).answer w.issues

/-- Whether a file can be written at a path. -/
def checkPath (find : Text → Found) (path : Text) : Except Fault Unit :=
  match Path.refusal? path with
  | some r => .error (.badPath r)
  | none => (find path).writable.mapError .path

/-- Exports the script of the active file to a directory. An extension that is not given is taken
from the preferences. `provide` makes a directory and those on the way to it, unless they are there,
and says what there is in the file system then, or why they cannot be made. -/
def exportTo (s : Session) (provide : Text → Except Fault (Text → Found)) (directory : Text)
    (extension : Value) : Outcome Exported :=
  s.code.andThen fun s content =>
    s.withActive fun file =>
      let extension := if extension.isGiven then extension else s.preferences.get "export_extension"
      match provide directory with
      | .error f => s.fault f
      | .ok find =>
        match extension.text? with
        | none => s.fault .extensionNotText
        | some extension =>
          let path := exportPath directory file.name extension
          match checkPath find path with
          | .error f => s.fault f
          | .ok () => (s.log .success ("Downloaded " ++ Path.baseName path)).answer ⟨path, content⟩

end Session

end GuiBuilder
