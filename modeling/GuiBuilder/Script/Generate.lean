import GuiBuilder.Script.Literal
import GuiBuilder.Text.Blank
import GuiBuilder.Widget.Basic

/-!
# The script of a window

`Window.script` is the Lua script that builds a window with the Tora UI library. It is a list of
lines: a head that names the window and counts its parts, a block for each folder, in which each
element has a block, and a tail. The block of a folder depends on that folder alone: the variable
that holds the folder is derived from its id and not from its position. A window has no script if a
slider has more decimals than can be written down.

The logic of an element is the body of its callback, indented line by line. Logic that may open a
long bracket is kept as it is, since indentation would change what stands between the brackets.
-/

namespace GuiBuilder

namespace Script

/-- The program that generated scripts name in their first line. -/
def builderName : String := "Tora GUI Builder"

/-- Where scripts load the library from, unless told otherwise. -/
def defaultLibraryUrl : String :=
  "https://raw.githubusercontent.com/liebertsx/Tora-Library/main/src/librarynew"

/-- One level of indentation. -/
def indent : Text := List.replicate 4 (.char ' ')

/-- Whether a character may stand in a variable as it is: an ASCII letter, digit or underscore. -/
def isVariablePoint : CodePoint → Bool
  | .char c => c.isAlphanum || c = '_'
  | .surrogate _ => false

/-- The variable that holds a folder. -/
def folderVariable (id : Text) : Text :=
  "tab_" ++ id.map fun p => if isVariablePoint p then p else .char '_'

/-- Whether a long bracket opens at the start of a text: two brackets with nothing but equals
signs between them. -/
def opensLongBracket : Text → Bool
  | .char '[' :: rest => (rest.dropWhile fun p => decide (p = .char '=')).head? = some (.char '[')
  | _ => false

/-- Whether a long bracket opens anywhere in a text. -/
def hasLongBracket : Text → Bool
  | [] => false
  | p :: rest => opensLongBracket (p :: rest) || hasLongBracket rest

/-- A line of logic, indented unless it is empty. -/
def indentedLine (line : Text) : Text := if line.isEmpty then [] else indent ++ indent ++ line

/-- The lines of a callback's body: the logic, or a placeholder where there is none. -/
def bodyLines (logic : Option Text) (placeholder : Text) : List Text :=
  match logic with
  | none => [indent ++ indent ++ placeholder]
  | some t =>
    if t.isBlank then [indent ++ indent ++ placeholder]
    else if hasLongBracket t then [t]
    else (t.split (.char '\n')).map indentedLine

end Script

open Script

/-- The parameter of the callback of a variant. -/
def Kind.parameter : Kind → String
  | button => ""
  | toggle => "state"
  | slider => "value"
  | dropdown => "option"

/-- What a callback without logic prints. -/
def Element.placeholder (e : Element) : Text :=
  match e.kind with
  | .button => "print(" ++ quoted (e.text ++ " clicked") ++ ")"
  | kind => "print(" ++ quoted (e.text ++ ":") ++ ", " ++ Text.ofString kind.parameter ++ ")"

/-- The settings that a variant has beside its text, as names and literals. There are none if the
decimals of a slider cannot be written. -/
def Control.settings : Control → Except Fault (List (Text × Text))
  | button => .ok []
  | toggle flag initially => .ok [("flag", quoted flag), ("state", boolean initially)]
  | slider flag r => do
    let decimals ← integer r.decimals
    return [("flag", quoted flag), ("min", number r.min), ("max", number r.max),
      ("value", number r.value), ("decimals", decimals)]
  | dropdown flag options =>
    .ok [("flag", quoted flag),
      ("values", .char '{' :: Text.join ", " (options.map quoted) ++ [.char '}'])]

/-- The line of a setting. -/
def Script.settingLine (setting : Text × Text) : Text :=
  indent ++ setting.1 ++ " = " ++ setting.2 ++ ","

namespace Element

/-- The block of an element with some settings beside its text, in the folder that a variable
holds. -/
def block (owner : Text) (e : Element) (settings : List (Text × Text)) : List Text :=
  (owner ++ ":Add" ++ Text.ofString e.kind.name ++ "(\x7b")
    :: ((Text.ofString "text", quoted e.text) :: settings).map settingLine
    ++ (indent ++ "callback = function(" ++ Text.ofString e.kind.parameter ++ ")")
    :: bodyLines e.logic e.placeholder
    ++ [indent ++ "end", "\x7d)"]

/-- The block of an element in the folder that a variable holds. -/
def scriptLines (owner : Text) (e : Element) : Except Fault (List Text) :=
  e.control.settings.map (e.block owner)

end Element

namespace Folder

/-- The lines of a folder before those of its elements. -/
def heading (f : Folder) : List Text :=
  [[], "-- Folder: " ++ quoted f.text,
    "local " ++ folderVariable f.id ++ " = window:AddFolder(" ++ quoted f.text ++ ")"]

/-- The block of a folder, after an empty line; an empty line stands before each element, too. -/
def scriptLines (f : Folder) : Except Fault (List Text) := do
  let blocks ← f.elements.mapM (Element.scriptLines (folderVariable f.id))
  return f.heading ++ blocks.flatMap fun block => [] :: block

end Folder

namespace Window

/-- The first lines of a script: what it builds, and the window itself. -/
def headLines (libraryUrl : Text) (w : Window) : List Text :=
  ["-- Generated by " ++ Text.ofString builderName,
    "-- Window: " ++ quoted w.title,
    "-- Folders: " ++ Text.ofNat w.folders.length ++ " | Elements: "
      ++ Text.ofNat w.elements.length,
    [],
    "local library = loadstring(game:HttpGet(" ++ quoted libraryUrl ++ ", true))()",
    "local window = library:CreateWindow(" ++ quoted w.title ++ ")"]

/-- The lines of a script. -/
def scriptLines (libraryUrl : Text) (w : Window) : Except Fault (List Text) := do
  let blocks ← w.folders.mapM Folder.scriptLines
  return w.headLines libraryUrl ++ blocks.flatten ++ [[], "library:Init()"]

/-- The script of a window that loads the library from a given place, unless the window holds an
integer that cannot be written. -/
def scriptFrom (libraryUrl : Text) (w : Window) : Except Fault Text :=
  (w.scriptLines libraryUrl).map fun lines => Text.join "\n" lines ++ "\n"

/-- The script of a window. -/
def script (w : Window) : Except Fault Text := w.scriptFrom defaultLibraryUrl

end Window

end GuiBuilder
