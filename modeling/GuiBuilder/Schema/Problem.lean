import GuiBuilder.Text.Basic

/-!
# Problems of loosely typed data

Data is checked against a schema and all that is wrong is reported, each problem with the place
where it was found. `Checked` is the result of a check; combining two checks joins their problems,
in order, so nothing stops at the first one.
-/

namespace GuiBuilder

/-- The records that data is checked against. -/
inductive Schema where
  | window
  | folder
  | file
  | button
  | toggle
  | slider
  | dropdown
  | logEntry
  | savedScript
deriving DecidableEq

/-- The name of a record in messages. -/
def Schema.name : Schema → String
  | window => "Window"
  | folder => "Folder"
  | file => "EditorFile"
  | button => "ButtonElement"
  | toggle => "ToggleElement"
  | slider => "SliderElement"
  | dropdown => "DropdownElement"
  | logEntry => "LogEntry"
  | savedScript => "SavedScript"

/-- One step of the way to a place in data. -/
inductive Step where
  /-- Into the field of this name. -/
  | key (name : Text)
  /-- To the item at this index. -/
  | index (i : Nat)
deriving DecidableEq

/-- What can be wrong with a piece of data. -/
inductive Cause where
  /-- A required field is not there. -/
  | missing
  /-- This record is no object. -/
  | notRecord (schema : Schema)
  /-- An element is no object. -/
  | notElement
  /-- An element does not say its variant. -/
  | noVariant
  /-- The variant of an element, shown here, is none of the known ones. -/
  | unknownVariant (shown : Text)
  | notArray
  | notText
  /-- A text holds a surrogate half. -/
  | notEncodable
  /-- A text with a surrogate half stands where no text is kept. -/
  | unreadableText
  /-- Only these texts are allowed. -/
  | notAmong (allowed : List String)
  | notBool
  | unreadableBool
  | notNumber
  | unreadableNumber
  | notFinite
  | notInteger
  | unreadableInteger
  | fractionalInteger
  | oversizedInteger
  | negative
deriving DecidableEq

namespace Cause

/-- The name of the class that a problem belongs to. -/
def code : Cause → String
  | missing => "missing"
  | notRecord _ => "model_type"
  | notElement => "model_attributes_type"
  | noVariant => "union_tag_not_found"
  | unknownVariant _ => "union_tag_invalid"
  | notArray => "tuple_type"
  | notText => "string_type"
  | notEncodable => "value_error"
  | unreadableText => "string_unicode"
  | notAmong _ => "literal_error"
  | notBool => "bool_type"
  | unreadableBool => "bool_parsing"
  | notNumber => "float_type"
  | unreadableNumber => "float_parsing"
  | notFinite => "finite_number"
  | notInteger => "int_type"
  | unreadableInteger => "int_parsing"
  | fractionalInteger => "int_from_float"
  | oversizedInteger => "int_parsing_size"
  | negative => "greater_than_equal"

/-- A name between apostrophes. -/
def quotedName (name : String) : Text := Text.ofString ("'" ++ name ++ "'")

/-- Quoted alternatives: a comma between them, and the word "or" before the last. -/
def alternatives : List String → Text
  | [] => []
  | [a] => quotedName a
  | [a, b] => quotedName a ++ " or " ++ quotedName b
  | a :: b :: rest => quotedName a ++ ", " ++ alternatives (b :: rest)

/-- The wording of a problem. -/
def message : Cause → Text
  | missing => "Field required"
  | notRecord schema =>
    "Input should be a valid dictionary or instance of " ++ Text.ofString schema.name
  | notElement => "Input should be a valid dictionary or object to extract fields from"
  | noVariant => "Unable to extract tag using discriminator 'type'"
  | unknownVariant shown =>
    "Input tag '" ++ shown ++ "' found using 'type' does not match any of the expected tags: "
      ++ "'Button', 'Toggle', 'Slider', 'Dropdown'"
  | notArray => "Input should be a valid tuple"
  | notText => "Input should be a valid string"
  | notEncodable => "Value error, text is not valid UTF-8 (lone surrogate)"
  | unreadableText =>
    "Input should be a valid string, unable to parse raw data as a unicode string"
  | notAmong allowed => "Input should be " ++ alternatives allowed
  | notBool => "Input should be a valid boolean"
  | unreadableBool => "Input should be a valid boolean, unable to interpret input"
  | notNumber => "Input should be a valid number"
  | unreadableNumber => "Input should be a valid number, unable to parse string as a number"
  | notFinite => "Input should be a finite number"
  | notInteger => "Input should be a valid integer"
  | unreadableInteger => "Input should be a valid integer, unable to parse string as an integer"
  | fractionalInteger =>
    "Input should be a valid integer, got a number with a fractional part"
  | oversizedInteger => "Unable to parse input string as an integer, exceeded maximum size"
  | negative => "Input should be greater than or equal to 0"

end Cause

/-- Something wrong at a place. -/
structure Problem where
  /-- The way to the place, from the outermost record. -/
  place : List Step
  cause : Cause
deriving DecidableEq

/-- The result of a check: what was read, or all problems in order. -/
inductive Checked (α : Type) where
  | ok (a : α)
  | rejected (problems : List Problem)

namespace Checked

variable {α β : Type}

/-- A single problem at the place itself. -/
def fail (cause : Cause) : Checked α := rejected [⟨[], cause⟩]

/-- The check of a part, one step further in. -/
def under (step : Step) : Checked α → Checked α
  | ok a => ok a
  | rejected problems => rejected (problems.map fun p => { p with place := step :: p.place })

/-- A function applied to what was read. -/
def map (f : α → β) : Checked α → Checked β
  | ok a => ok (f a)
  | rejected problems => rejected problems

/-- Both checks; the problems of the first come before those of the second. -/
def apply : Checked (α → β) → Checked α → Checked β
  | ok f, ok a => ok (f a)
  | ok _, rejected problems => rejected problems
  | rejected problems, ok _ => rejected problems
  | rejected problems, rejected others => rejected (problems ++ others)

/-- A check of what has been read, made only if reading went well. -/
def andThen (first : Checked α) (next : α → Checked β) : Checked β :=
  match first with
  | ok a => next a
  | rejected problems => rejected problems

/-- What was read, if nothing was wrong. -/
def toOption : Checked α → Option α
  | ok a => some a
  | rejected _ => none

instance : Applicative Checked where
  pure := ok
  map := map
  seq f a := apply f (a ())

@[simp] theorem map_ok (f : α → β) (a : α) : f <$> (ok a : Checked α) = ok (f a) := rfl

@[simp] theorem seq_ok (f : α → β) (a : α) : (ok f : Checked (α → β)) <*> ok a = ok (f a) := rfl

@[simp] theorem under_ok (step : Step) (a : α) : under step (ok a) = ok a := rfl

end Checked

/-- Data that was refused: the record that it should have been, and what is wrong. -/
structure Rejection where
  schema : Schema
  problems : List Problem
deriving DecidableEq

/-- The result of a check as that of reading a record. -/
def Checked.as {α : Type} (schema : Schema) : Checked α → Except Rejection α
  | .ok a => .ok a
  | .rejected problems => .error ⟨schema, problems⟩

namespace Rejection

/-- One step of a place, as a message shows it. -/
def stepText : Step → Text
  | .key name => name
  | .index i => Text.ofNat i

/-- The lines of a problem: its place, unless that is the record itself, and what is wrong. -/
def problemText (p : Problem) : Text :=
  let place : Text :=
    if p.place.isEmpty then [] else Text.ofString "\n" ++ Text.join "." (p.place.map stepText)
  place ++ "\n  " ++ p.cause.message ++ " [type=" ++ Text.ofString p.cause.code ++ "]"

/-- The wording of a refusal: a headline, then the problems in order. -/
def message (r : Rejection) : Text :=
  let noun := if r.problems.length = 1 then " validation error for " else " validation errors for "
  Text.ofNat r.problems.length ++ Text.ofString noun ++ Text.ofString r.schema.name
    ++ r.problems.flatMap problemText

end Rejection

end GuiBuilder
