import GuiBuilder.Text.Basic

/-!
# Differences of two texts, line by line

`LineDiff.between` matches the lines of two texts greedily, from the first line on: equal lines are
kept, a new line that occurs nowhere in the rest of the old text is added, and otherwise the old
line is removed. The result is an edit script: the kept and removed lines are the old text, the
kept and added lines the new one. It need not be the shortest edit script.

Lines end at line feeds only, and the empty text has one empty line.
-/

namespace GuiBuilder.LineDiff

/-- What became of a line. -/
inductive Change where
  | same
  | added
  | removed
deriving DecidableEq

/-- The name of a change. -/
def Change.name : Change → String
  | same => "same"
  | added => "added"
  | removed => "removed"

/-- A line of either text, and what became of it. -/
structure Entry where
  change : Change
  line : Text
deriving DecidableEq

/-- The greedy edit script between two lists of lines. -/
def betweenLines : List Text → List Text → List Entry
  | [], [] => []
  | [], n :: new => ⟨.added, n⟩ :: betweenLines [] new
  | o :: old, [] => ⟨.removed, o⟩ :: betweenLines old []
  | o :: old, n :: new =>
    if o = n then ⟨.same, o⟩ :: betweenLines old new
    else if n ∈ old then ⟨.removed, o⟩ :: betweenLines old (n :: new)
    else ⟨.added, n⟩ :: betweenLines (o :: old) new
termination_by old new => old.length + new.length

/-- The lines of a text. -/
def lines (t : Text) : List Text := t.split (.char '\n')

/-- The greedy edit script between two texts. -/
def between (old new : Text) : List Entry := betweenLines (lines old) (lines new)

/-- The mark in front of a printed line. -/
def Change.mark : Change → String
  | same => "  "
  | added => "+ "
  | removed => "- "

/-- An entry as it is printed. -/
def Entry.printed (e : Entry) : Text := Text.ofString e.change.mark ++ e.line

/-- An edit script as it is printed: one line for each entry. -/
def printed (entries : List Entry) : Text := Text.join "\n" (entries.map Entry.printed)

/-- How many lines were changed in some way. -/
def count (change : Change) (entries : List Entry) : Nat :=
  entries.countP fun e => decide (e.change = change)

/-- Whether two texts differ, as their edit script says. -/
def hasChanges (old new : Text) : Bool :=
  (between old new).any fun e => decide (e.change ≠ .same)

end GuiBuilder.LineDiff
