import GuiBuilder.Text.Blank
import GuiBuilder.Widget.Basic

/-!
# Analysis of a window

Advice on a window that is valid but probably not meant as it is: a flag that an earlier element
has already, an element without a visible text, and logic with different numbers of opening and
closing parentheses. Issues come in document order, and for one element in the order just given.
The analysis never forbids anything.
-/

namespace GuiBuilder

/-- What the analysis finds. -/
inductive Finding where
  /-- An earlier element has the same flag. -/
  | duplicateFlag (flag text : Text)
  /-- An element of the folder with this text has nothing but blanks as its text. -/
  | blankText (folder : Text)
  /-- The logic of the element with this text has unequal numbers of parentheses. -/
  | unevenParentheses (text : Text)
deriving DecidableEq

/-- The wording of a finding. -/
def Finding.message : Finding → Text
  | duplicateFlag flag text =>
    "Duplicate flag detected: \"" ++ flag ++ "\" in element \"" ++ text ++ "\""
  | blankText folder => "Element inside \"" ++ folder ++ "\" has no display text."
  | unevenParentheses text => "Mismatched parentheses in \"" ++ text ++ "\" logic."

/-- A finding about the element with an id. -/
structure Issue where
  finding : Finding
  element : Text
deriving DecidableEq

namespace Element

/-- The flag of an element, if it has one that is not empty. -/
def givenFlag? (e : Element) : Option Text := e.flag?.filter fun flag => !flag.isEmpty

/-- Whether the logic of an element has unequal numbers of parentheses. -/
def hasUnevenParentheses (e : Element) : Bool :=
  match e.logic with
  | none => false
  | some t => decide (t.count (.char '(') ≠ t.count (.char ')'))

/-- The findings about an element of a folder, given the flags of all earlier elements. -/
def findings (seen : List Text) (folder : Folder) (e : Element) : List Finding :=
  (match e.givenFlag? with
    | some flag => if flag ∈ seen then [.duplicateFlag flag e.text] else []
    | none => [])
    ++ (if e.text.isBlank then [.blankText folder.text] else [])
    ++ (if e.hasUnevenParentheses then [.unevenParentheses e.text] else [])

end Element

namespace Window

/-- The elements of a window in document order, each with its folder. -/
def placedElements (w : Window) : List (Folder × Element) :=
  w.folders.flatMap fun f => f.elements.map fun e => (f, e)

/-- The issues of elements in order, given the flags of all earlier ones. -/
def issuesAfter : (seen : List Text) → List (Folder × Element) → List Issue
  | _, [] => []
  | seen, (f, e) :: rest =>
    (e.findings seen f).map (Issue.mk · e.id)
      ++ issuesAfter (e.givenFlag?.toList ++ seen) rest

/-- The issues of a window. -/
def issues (w : Window) : List Issue := issuesAfter [] w.placedElements

end Window

/-- The last line of the report on a window: whether all is well, or how many issues there are. -/
def analysisSummary (issues : List Issue) : Text :=
  if issues.isEmpty then "Syntax Check Passed: Script looks good!"
  else "Analysis completed with " ++ Text.ofNat issues.length ++ " warnings."

end GuiBuilder
