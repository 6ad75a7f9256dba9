import GuiBuilder.Schema.Widget

/-!
# New parts of a document

Files, folders and elements are named by ids, which a supply gives out. New parts come with the
texts and settings that the builder gives them, and pass the same checks as data from outside: an
id with a surrogate half is refused.
-/

namespace GuiBuilder

/-- Where ids come from: some that are given in advance, and then the numbers from one on. -/
structure IdSupply where
  /-- The ids to be given out first. -/
  reserved : List Text
  /-- How many numbers have been given out. -/
  numbered : Nat
deriving DecidableEq

namespace IdSupply

/-- How many characters an id has at most. -/
def idLength : Nat := 9

/-- A supply of numbers only. -/
def initial : IdSupply := ⟨[], 0⟩

/-- The id of a number: nine hexadecimal digits. -/
def ofNumber (n : Nat) : Text :=
  let digits := Nat.toDigits 16 n
  (List.replicate (idLength - digits.length) '0' ++ digits).map CodePoint.char

/-- The next id. -/
def next (s : IdSupply) : Text :=
  match s.reserved with
  | id :: _ => id.take idLength
  | [] => ofNumber (s.numbered + 1)

/-- The supply without the next id. -/
def rest (s : IdSupply) : IdSupply :=
  match s.reserved with
  | _ :: rest => { s with reserved := rest }
  | [] => { s with numbered := s.numbered + 1 }

end IdSupply

/-- The title of a window that is not given one. -/
def defaultTitle : String := "Tora GUI"

/-- The title of the window of a new file. -/
def newTitle : String := "New Script"

/-- The text of the first folder of a window. -/
def firstFolderText : String := "Main Tab"

/-- The text of a folder that is added. -/
def newFolderText : String := "New Tab"

/-- The name of a file that is not given one. -/
def defaultFileName : String := "script.lua"

/-- The name of a new file. -/
def newFileName : String := "untitled.lua"

/-- A new folder without elements. -/
def Folder.make (id : Text) (text : String) : Except Rejection Folder :=
  (Folder.ofValue (.object (spellFields .name
    [(Field.id, .text id), (Field.text, .text text)]))).as .folder

/-- A new window of one folder. -/
def Window.make (title : Value) (folderId : Text) : Except Rejection Window :=
  match Folder.make folderId firstFolderText with
  | .error r => .error r
  | .ok folder =>
    (Window.mk <$> (Schema.readText title).under (.key (Field.title.spelled .name))
      <*> .ok [folder]).as .window

/-- A file that holds a window. -/
def File.make (id name : Value) (window : Window) : Except Rejection File :=
  (File.mk <$> (Schema.readText id).under (.key (Field.id.spelled .name))
    <*> (Schema.readText name).under (.key (Field.name.spelled .name))
    <*> .ok (.window window)).as .file

/-- Why a value names no variant of an element. -/
inductive KindError where
  /-- An array or object cannot be looked up. -/
  | container
  /-- There is no variant of that name, which is shown here. -/
  | unknown (shown : Text)
deriving DecidableEq

/-- The variant that a value names. -/
def Kind.ofValue : Value → Except KindError Kind
  | .array _ | .object _ => .error .container
  | v =>
    match v.text?.bind Kind.ofName? with
    | some kind => .ok kind
    | none => .error (.unknown v.display)

/-- The word for a variant in the flags of new elements. -/
def Kind.word : Kind → String
  | button => "button"
  | toggle => "toggle"
  | slider => "slider"
  | dropdown => "dropdown"

namespace Element

/-- The flag of a new element. -/
def newFlag (kind : Kind) (id : Text) : Text := Text.ofString kind.word ++ "_" ++ id

/-- What a new element of a variant has beside its id. -/
def newFields (kind : Kind) (id : Text) : List (FieldName × Value) :=
  match kind with
  | .button => []
  | .toggle => [(Field.initially, .bool false), (Field.flag, .text (newFlag kind id))]
  | .slider =>
    [(Field.min, .int 0), (Field.max, .int 100), (Field.value, .int 50), (Field.decimals, .int 0),
      (Field.flag, .text (newFlag kind id))]
  | .dropdown =>
    [(Field.options, .array [.text "Option 1", .text "Option 2"]),
      (Field.flag, .text (newFlag kind id))]

/-- A new element of a variant. -/
def make (kind : Kind) (id : Text) : Except Rejection Element :=
  (ofValueOf kind (.object (spellFields .name
    ((Field.id, .text id) :: (Field.text, .text kind.name) :: newFields kind id)))).as kind.schema

end Element

/-- A new file of one window with one folder, and the supply of ids after it. An id that is not
given is drawn, before that of the folder. -/
def File.fresh (ids : IdSupply) (name id title : Value) : Except Rejection File × IdSupply :=
  let ids' := if id.isGiven then ids else ids.rest
  let id' := if id.isGiven then id else .text ids.next
  let made := match Window.make title ids'.next with
    | .error r => .error r
    | .ok window => File.make id' name window
  (made, ids'.rest)

end GuiBuilder
