import GuiBuilder.CommandLine.Run

/-!
# The program

Reads the layouts that the arguments name, runs the command on what was found, and prints and
writes what came of it. When the output cannot be written, the run is repeated with that known.
-/

namespace GuiBuilder.CommandLine

/-- The string of a text. A text with a surrogate half, which no argument holds, is none. -/
def stringOf (t : Text) : IO String :=
  match t.toString? with
  | some s => pure s
  | none => throw (IO.userError "a text that has no UTF-8 form")

/-- Whether a number by which the system says what went wrong, or its negation, is that for a path
that leads through a file. -/
def isNotDirectoryCode (code : UInt32) : Bool := code = 20 || -code = 20

/-- What stands in the way at a path that could not be opened; `otherwise` when the system found
nothing. -/
def foundAfter (otherwise : Found) : IO.Error → Found
  | .noFileOrDirectory .. => otherwise
  | .inappropriateType _ code _ =>
    if isNotDirectoryCode code then .obstructed .notDirectory else .directory
  | .invalidArgument .. => .obstructed .nameTooLong
  | _ => .obstructed .notDirectory

/-- What the file system has at a path that is to be read. -/
def findFile (path : Text) : IO Found := do
  let name ← stringOf path
  try
    return .file (← IO.FS.readBinFile name)
  catch e =>
    return foundAfter .absent e

/-- What is known of a path. Where nothing is known, a file can be made. -/
def lookUp (found : List (Text × Found)) (path : Text) : Found :=
  match found.find? fun entry => decide (entry.1 = path) with
  | some entry => entry.2
  | none => .absent

/-- How deeply containers may be nested in a layout. -/
def nestingLimit : Nat := 991

/-- What a run finds around it where some paths have been looked up. -/
def environment (found : List (Text × Found)) : Environment where
  find := lookUp found
  depth := nestingLimit
  takes t := t.toString?.isSome

/-- How to call the program. -/
def usageText : String :=
  "usage: tora-builder [-h] \x7bgenerate,diff,check\x7d ..."

/-- Prints what a run comes to, and gives its exit code. -/
def report : Verdict → IO UInt32
  | .stopped stop => do
    if stop = .help then IO.println usageText else IO.eprintln usageText
    return UInt32.ofNat stop.exit
  | .crashed .. => do
    IO.eprintln "the run was broken off"
    return 1
  | .finished exit out err _ => do
    IO.print (← stringOf out)
    IO.eprint (← stringOf err)
    return UInt32.ofNat exit

/-- Writes the file of a run, and says what was found in its place if that fails. -/
def write (w : Written) : IO (Option Found) := do
  let name ← stringOf w.name
  let content ← stringOf w.content
  try
    IO.FS.writeFile name content
    return none
  catch e =>
    return some (foundAfter (.obstructed .notFound) e)

end GuiBuilder.CommandLine

open GuiBuilder GuiBuilder.CommandLine

/-- Runs the program on its arguments. -/
def main (arguments : List String) : IO UInt32 := do
  let arguments := arguments.map Text.ofString
  let layouts := match read arguments with
    | .ok command => command.layouts
    | .error _ => []
  let mut found := []
  for path in layouts do
    found := (path, ← findFile path) :: found
  let verdict := run (environment found) arguments
  match verdict with
  | .finished _ _ _ (some w) | .crashed _ (some w) =>
    match ← write w with
    | none => report verdict
    | some inTheWay => report (run (environment ((w.name, inTheWay) :: found)) arguments)
  | _ => report verdict
