import GuiBuilder.LineDiff
import GuiBuilder.Proofs.Script.Literals
import GuiBuilder.Script.Generate

/-!
# Reading scripts

`Script.read` reads a script line by line and says what it builds: an `Outline` holds what the script
says of the window, and nothing of the ids in the widget tree. The reader is a fold of
`Progress.step` over the lines. Between the blocks of elements a line is a statement; inside a block
the lines are settings, then the body of the callback, and then the end of the block. The body ends
at the first line that is one level of indentation and `end`, whatever stands in the lines before. A
block belongs to the folder that was last put into the variable that it names.

`Window.outline` is the outline that the script of a window is meant to have.
-/

namespace GuiBuilder

/-! ### Outlines -/

/-- What a script says of an element. -/
structure ElementOutline where
  text : Text
  control : Control
  /-- The body of the callback. -/
  body : Text
deriving DecidableEq

/-- What a script says of a folder. -/
structure FolderOutline where
  text : Text
  elements : List ElementOutline
deriving DecidableEq

/-- What a script says of a window. -/
structure Outline where
  libraryUrl : Text
  title : Text
  folders : List FolderOutline
deriving DecidableEq

/-- The body of the callback: the logic, or the placeholder where the logic is blank. -/
def Element.body (e : Element) : Text :=
  match e.logic with
  | none => e.placeholder
  | some t => if t.isBlank then e.placeholder else t

/-- What the script of a window says of an element. The numbers of a slider count by their values. -/
def Element.outline (e : Element) : ElementOutline := ⟨e.text, e.control.normal, e.body⟩

/-- What the script of a window says of a folder. -/
def Folder.outline (f : Folder) : FolderOutline := ⟨f.text, f.elements.map Element.outline⟩

/-- What the script of a window says. -/
def Window.outline (libraryUrl : Text) (w : Window) : Outline :=
  ⟨libraryUrl, w.title, w.folders.map Folder.outline⟩

namespace Script

/-! ### Lines -/

/-- The text literal between the two parts of a call. -/
def readCall (before after line : Text) : Option Text :=
  (line.dropPrefix? before).bind fun rest =>
    match readQuoted rest with
    | some (t, rest) => if rest = after then some t else none
    | none => none

/-- A new folder: the variable that holds it, and its text. -/
def readFolder (line : Text) : Option (Text × Text) :=
  (line.dropPrefix? "local ").bind fun rest =>
    (readCall " = window:AddFolder(" ")" (rest.dropWhile isVariablePoint)).map
      (rest.takeWhile isVariablePoint, ·)

/-- The first line of a block: the variable of its folder, and the variant of the element. -/
def readOpening (line : Text) : Option (Text × Kind) :=
  ((line.dropWhile isVariablePoint).dropPrefix? ":Add").bind fun rest =>
    if rest.dropWhile isVariablePoint = "(\x7b" then
      (Kind.ofName? (rest.takeWhile isVariablePoint)).map (line.takeWhile isVariablePoint, ·)
    else none

/-- A line outside the blocks of elements. -/
inductive Statement where
  /-- An empty line, a comment or the last call. -/
  | nothing
  | library (url : Text)
  | window (title : Text)
  | folder (owner text : Text)
  | element (owner : Text) (kind : Kind)
deriving DecidableEq

/-- The statement that a line is. -/
def readStatement (line : Text) : Option Statement :=
  if line = [] ∨ (line.dropPrefix? "--").isSome ∨ line = "library:Init()" then some .nothing
  else
    ((readCall "local library = loadstring(game:HttpGet(" ", true))()" line).map .library).or
      (((readCall "local window = library:CreateWindow(" ")" line).map .window).or
        (((readFolder line).map fun (owner, text) => .folder owner text).or
          ((readOpening line).map fun (owner, kind) => .element owner kind)))

/-- A setting: its name, and the literal before the comma at the end of the line. -/
def readSetting (line : Text) : Option (Text × Literal) :=
  (line.dropPrefix? indent).bind fun rest =>
    ((rest.dropWhile isVariablePoint).dropPrefix? " = ").bind fun value =>
      if value.getLast? = some (.char ',') then
        (readLiteral value.dropLast).map (rest.takeWhile isVariablePoint, ·)
      else none

/-- The line before the body of a callback. -/
def callbackLine (kind : Kind) : Text :=
  indent ++ "callback = function(" ++ Text.ofString kind.parameter ++ ")"

/-- The line behind the body of a callback. -/
def endLine : Text := indent ++ "end"

/-- A line of a body without its indentation, if it has one. -/
def unindentedLine (line : Text) : Text := (line.dropPrefix? (indent ++ indent)).getD line

/-! ### Settings -/

namespace Literal

def text? : Literal → Option Text
  | text t => some t
  | _ => none

def texts? : Literal → Option (List Text)
  | texts ts => some ts
  | _ => none

def boolean? : Literal → Option Bool
  | boolean b => some b
  | _ => none

def finite? : Literal → Option Finite64
  | number n =>
    match n.toBinary64 with
    | .finite x => some x
    | _ => none
  | _ => none

def nat? : Literal → Option ℕ
  | number n => n.toNat?
  | _ => none

end Literal

/-- The literal of a setting. -/
def setting (settings : List (Text × Literal)) (name : String) : Option Literal :=
  settings.lookup (Text.ofString name)

/-- The control that the settings of a variant describe. -/
def readControl (settings : List (Text × Literal)) (kind : Kind) : Option Control :=
  match kind with
  | .button => some .button
  | .toggle => do
    let flag ← (setting settings "flag").bind Literal.text?
    let initially ← (setting settings "state").bind Literal.boolean?
    return .toggle flag initially
  | .slider => do
    let flag ← (setting settings "flag").bind Literal.text?
    let min ← (setting settings "min").bind Literal.finite?
    let max ← (setting settings "max").bind Literal.finite?
    let value ← (setting settings "value").bind Literal.finite?
    let decimals ← (setting settings "decimals").bind Literal.nat?
    return .slider flag ⟨min, max, value, decimals⟩
  | .dropdown => do
    let flag ← (setting settings "flag").bind Literal.text?
    let options ← (setting settings "values").bind Literal.texts?
    return .dropdown flag options

/-- The element that settings and a body describe. -/
def readElement (settings : List (Text × Literal)) (kind : Kind) (body : Text) :
    Option ElementOutline := do
  let text ← (setting settings "text").bind Literal.text?
  let control ← readControl settings kind
  return ⟨text, control, body⟩

/-! ### The fold over the lines -/

/-- Where in a script the reader stands. -/
inductive Place where
  /-- Outside the blocks of elements. -/
  | outside
  /-- Among the settings of an element. -/
  | settings (owner : Text) (kind : Kind) (settings : List (Text × Literal))
  /-- In the body of a callback, behind some of its lines. -/
  | body (owner : Text) (kind : Kind) (settings : List (Text × Literal)) (lines : List Text)
  /-- Before the last line of a block. -/
  | closing (owner : Text) (element : ElementOutline)
deriving DecidableEq

/-- What has been read so far. -/
structure Progress where
  place : Place
  libraryUrl? : Option Text
  title? : Option Text
  /-- The folders with their variables, the last one first. -/
  folders : List (Text × FolderOutline)
deriving DecidableEq

/-- The folders with an element more in the one that a variable holds now. -/
def attach (owner : Text) (element : ElementOutline) :
    List (Text × FolderOutline) → Option (List (Text × FolderOutline))
  | [] => none
  | (held, f) :: folders =>
    if held = owner then some ((held, { f with elements := f.elements ++ [element] }) :: folders)
    else (attach owner element folders).map ((held, f) :: ·)

namespace Progress

/-- Before the first line. -/
def start : Progress := ⟨.outside, none, none, []⟩

/-- What a statement does. -/
def run (p : Progress) : Statement → Progress
  | .nothing => p
  | .library url => { p with libraryUrl? := some url }
  | .window title => { p with title? := some title }
  | .folder owner text => { p with folders := (owner, ⟨text, []⟩) :: p.folders }
  | .element owner kind => { p with place := .settings owner kind [] }

/-- One line further. -/
def step (p : Progress) (line : Text) : Option Progress :=
  match p.place with
  | .outside => (readStatement line).map p.run
  | .settings owner kind settings =>
    match readSetting line with
    | some setting => some { p with place := .settings owner kind (settings ++ [setting]) }
    | none =>
      if line = callbackLine kind then some { p with place := .body owner kind settings [] } else none
  | .body owner kind settings lines =>
    if line = endLine then
      (readElement settings kind (Text.join "\n" lines)).map fun element =>
        { p with place := .closing owner element }
    else some { p with place := .body owner kind settings (lines ++ [unindentedLine line]) }
  | .closing owner element =>
    if line = "\x7d)" then
      (attach owner element p.folders).map fun folders => { p with place := .outside, folders }
    else none

/-- What a script says that has been read to its end. -/
def outline? (p : Progress) : Option Outline :=
  match p.place, p.libraryUrl?, p.title? with
  | .outside, some url, some title => some ⟨url, title, (p.folders.map Prod.snd).reverse⟩
  | _, _, _ => none

end Progress

/-- What a script says. -/
def read (script : Text) : Option Outline :=
  ((LineDiff.lines script).foldlM Progress.step Progress.start).bind Progress.outline?

end Script

end GuiBuilder
