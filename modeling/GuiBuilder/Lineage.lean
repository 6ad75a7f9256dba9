import GuiBuilder.History
import GuiBuilder.Widget.Basic

/-!
# Versions of a file

The versions of a file are the distinct states that it went through in a history, newest first. A
snapshot that does not hold the file is passed over, and so is one in which its content is the same
as in the version kept last. Where a snapshot holds several files of the id, the first one counts.
-/

namespace GuiBuilder

/-- The files that are open, in the order of their tabs. -/
abbrev Tabs := List File

/-- The first file with an id. -/
def Tabs.file? (tabs : Tabs) (id : Text) : Option File := tabs.find? fun f => decide (f.id = id)

/-- A state of a file. -/
structure Version where
  /-- The index of its snapshot in the history. -/
  ordinal : Nat
  /-- The tick of its snapshot. -/
  tick : Nat
  file : File
  /-- Whether it is the newest version. -/
  isLatest : Bool
deriving DecidableEq

namespace Version

/-- The file with an id in each moment that holds it, oldest first; the moments are numbered from
`ordinal` on. -/
def sightings (id : Text) : (ordinal : Nat) → List (Moment Tabs) → List Version
  | _, [] => []
  | ordinal, m :: rest =>
    match Tabs.file? m.snapshot id with
    | some file => ⟨ordinal, m.tick, file, false⟩ :: sightings id (ordinal + 1) rest
    | none => sightings id (ordinal + 1) rest

/-- The versions whose content differs from that of the one kept before, which is `last` at
first. -/
def distinctAfter : (last : Content) → List Version → List Version
  | _, [] => []
  | last, v :: rest =>
    if v.file.content.Same last then distinctAfter last rest
    else v :: distinctAfter v.file.content rest

/-- The first version, and then those whose content differs from that of the one kept before. -/
def distinct : List Version → List Version
  | [] => []
  | v :: rest => v :: distinctAfter v.file.content rest

/-- Marks the first version as the newest. -/
def markLatest : List Version → List Version
  | [] => []
  | v :: rest => { v with isLatest := true } :: rest

end Version

/-- The versions of the file with an id, newest first. -/
def History.versions (h : History Tabs) (id : Text) : List Version :=
  Version.markLatest (Version.distinct (Version.sightings id 0 h.moments)).reverse

namespace Version

/-- The item at an index, where a negative one counts from the end. -/
def atIndex? {α : Type} (items : List α) (index : Int) : Option α :=
  if 0 ≤ index then items[index.toNat]?
  else if -(items.length : Int) ≤ index then items[(items.length + index).toNat]?
  else none

/-- The version at an index and the next older one, with which it is compared; the oldest version
is compared with itself. -/
def pair? (versions : List Version) (index : Int) : Option (Version × Version) :=
  match atIndex? versions index with
  | none => none
  | some selected =>
    if index + 1 < versions.length then
      (atIndex? versions (index + 1)).map fun previous => (selected, previous)
    else some (selected, selected)

end Version

end GuiBuilder
