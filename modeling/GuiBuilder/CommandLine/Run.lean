import GuiBuilder.Analysis
import GuiBuilder.CommandLine.Arguments
import GuiBuilder.Json.Reader
import GuiBuilder.LineDiff
import GuiBuilder.Schema.Widget
import GuiBuilder.Script.Generate
import GuiBuilder.Storage.Found

/-!
# Running a command

A command reads one or two layouts, and prints or writes what it makes of them. What it runs in is
an `Environment`: what is found at a path, how deeply JSON may be nested, and which texts the output
takes. A layout that cannot be read, or an output that cannot be written, ends the run with one
message on the error output and exit code 1; nothing else has been printed or written then. Bytes
that are not UTF-8, limits that a layout exceeds and arguments that are no paths are not reported in
this way: they break the run off. So does a text that the output does not take, and what was to be
written has been written by then.
-/

namespace GuiBuilder.CommandLine

/-- What a run finds around it. -/
structure Environment where
  /-- What there is at a path. -/
  find : Text → Found
  /-- How deeply containers may be nested in a layout. -/
  depth : Nat
  /-- Whether the output takes a text. -/
  takes : Text → Bool

/-- Why a run was broken off. -/
inductive Crash where
  /-- A file is not UTF-8. -/
  | undecodable
  /-- An integer in a layout has this many digits, which is over the limit. -/
  | oversizedInteger (digits : Nat)
  /-- This container in a layout is nested too deeply. -/
  | tooDeep (container : Json.Container)
  /-- An argument is no path. -/
  | badPath (r : PathRefusal)
  /-- There is no path of a layout. -/
  | noPath
  /-- A layout has an integer that cannot be written. -/
  | unwritableInteger
  /-- The output does not take what is printed. -/
  | unprintable
deriving DecidableEq

/-- Why a command failed. -/
inductive Failure where
  | path (e : PathError) (name : Text)
  /-- A layout is no JSON. -/
  | json (e : Json.Error)
  /-- A layout is no window. -/
  | rejected (r : Rejection)
  | crash (c : Crash)

/-- The message of a failure that is reported. -/
def Failure.message : Failure → Text
  | path e name => e.message name
  | json e => e.message
  | rejected r => r.message
  | crash _ => []

/-- A path that can be looked up. -/
def checkName (name : Text) : Except Failure Unit :=
  match Path.refusal? name with
  | some r => .error (.crash (.badPath r))
  | none => .ok ()

/-- The window of a layout. -/
def loadWindow (env : Environment) (name : Text) : Except Failure Window := do
  checkName name
  match (env.find name).bytes with
  | .error e => .error (.path e name)
  | .ok bytes =>
    match Text.ofUtf8? bytes with
    | none => .error (.crash .undecodable)
    | some t =>
      match Json.read env.depth (Text.unifyLineEnds t) with
      | .error (.oversizedInteger digits) => .error (.crash (.oversizedInteger digits))
      | .error (.tooDeep container) => .error (.crash (.tooDeep container))
      | .error e => .error (.json e)
      | .ok v =>
        match (Window.ofValue v).as .window with
        | .error r => .error (.rejected r)
        | .ok w => .ok w

/-- The script of a window. -/
def compile (w : Window) : Except Failure Text :=
  w.script.mapError fun _ => .crash .unwritableInteger

/-- A file that is written by a run. -/
structure Written where
  name : Text
  content : Text
deriving DecidableEq

/-- What a run prints, and the file that it writes. -/
structure Product where
  printed : Text
  written : Option Written
deriving DecidableEq

/-- Texts, each with a line feed after it. -/
def printedLines (texts : List Text) : Text := texts.flatMap fun t => t ++ [.char '\n']

/-- The last line of a printed difference. -/
def changeSummary (entries : List LineDiff.Entry) : Text :=
  Text.ofNat (LineDiff.count .added entries) ++ " added, "
    ++ Text.ofNat (LineDiff.count .removed entries) ++ " removed, "
    ++ Text.ofNat (LineDiff.count .same entries) ++ " unchanged"

/-- What is printed when a file of some name has been written. -/
def announcement (name : Text) : Text := printedLines ["Wrote " ++ name]

/-- What a command makes of its layouts. -/
def execute (env : Environment) : Command → Except Failure Product
  | .generate layout output => do
    let w ← loadWindow env layout
    let script ← compile w
    match output.filter fun name => !name.isEmpty with
    | none => .ok ⟨script, none⟩
    | some name =>
      checkName name
      match (env.find name).writable with
      | .error e => .error (.path e name)
      | .ok () => .ok ⟨announcement name, some ⟨name, script⟩⟩
  | .diff old new => do
    let v ← loadWindow env old
    let script ← compile v
    match new with
    | none => .error (.crash .noPath)
    | some new =>
      let w ← loadWindow env new
      let entries := LineDiff.between script (← compile w)
      .ok ⟨printedLines [LineDiff.printed entries, [], changeSummary entries], none⟩
  | .check layout => do
    let w ← loadWindow env layout
    let warnings := w.issues.map fun issue => Text.ofString "WARN: " ++ issue.finding.message
    .ok ⟨printedLines (warnings ++ [analysisSummary w.issues]), none⟩

/-- What a run comes to. -/
inductive Verdict where
  /-- The arguments ended the run. -/
  | stopped (stop : Stop)
  /-- The run was broken off, possibly after a file was written. -/
  | crashed (c : Crash) (written : Option Written)
  /-- The command was carried out. -/
  | finished (exit : Nat) (out err : Text) (written : Option Written)
deriving DecidableEq

/-- The exit code of a run that the arguments ended. -/
def Stop.exit : Stop → Nat
  | help => 0
  | usage => 2

/-- Runs the program. The error output takes any text. -/
def run (env : Environment) (arguments : List Text) : Verdict :=
  match read arguments with
  | .error stop => .stopped stop
  | .ok command =>
    match execute env command with
    | .ok product =>
      if env.takes product.printed then .finished 0 product.printed [] product.written
      else .crashed .unprintable product.written
    | .error (.crash c) => .crashed c none
    | .error failure => .finished 1 [] (printedLines ["ERROR: " ++ failure.message]) none

/-- The layouts that a command reads. -/
def Command.layouts : Command → List Text
  | generate layout _ => [layout]
  | diff old new => old :: new.toList
  | check layout => [layout]

end GuiBuilder.CommandLine
