import GuiBuilder.Number.Binary64
import GuiBuilder.Text.Basic

/-!
# Values

A `Value` is a piece of loosely typed data, as a JSON text or a host program holds it: the input
of validation and the content of the preferences. Integers are unbounded and apart from the
floating-point numbers. An object is a list of fields in the order in which they were first put;
`Fields.put` keeps that order, so a key that is put again keeps its place.
-/

namespace GuiBuilder

/-- Loosely typed data. -/
inductive Value where
  | null
  | bool (b : Bool)
  | int (i : Int)
  | float (x : Binary64)
  | text (t : Text)
  | array (items : List Value)
  | object (fields : List (Text × Value))

instance : Inhabited Value := ⟨.null⟩

/-- The fields of an object, in order. -/
abbrev Fields := List (Text × Value)

namespace Fields

/-- The value of the first field with this key. -/
def get? (key : Text) : Fields → Option Value
  | [] => none
  | (k, v) :: rest => if k = key then some v else get? key rest

/-- Puts a field: in the place of the one with its key, or at the end. -/
def put (key : Text) (value : Value) : Fields → Fields
  | [] => [(key, value)]
  | (k, v) :: rest => if k = key then (k, value) :: rest else (k, v) :: put key value rest

/-- The fields of `base` with those of `added` put one after the other. -/
def merge (base added : Fields) : Fields :=
  added.foldl (fun fields field => fields.put field.1 field.2) base

/-- The fields in order of their first occurrence, each with its last value. -/
def ofList (fields : List (Text × Value)) : Fields := merge [] fields

@[simp] theorem get?_nil (key : Text) : get? key [] = none := rfl

theorem get?_put (key other : Text) (value : Value) (fields : Fields) :
    get? other (put key value fields) = if key = other then some value else get? other fields := by
  induction fields with
  | nil => rfl
  | cons field rest ih =>
    obtain ⟨k, v⟩ := field
    simp only [put]
    split
    · next h => subst h; simp only [get?]; split <;> rfl
    · next h =>
      simp only [get?, ih]
      split
      · next h' =>
        subst h'
        simp [show key ≠ k from fun e => h e.symm]
      · rfl

end Fields

namespace Value

/-- The text of a text value. -/
def text? : Value → Option Text
  | .text t => some t
  | _ => none

/-- Whether the value is this text. -/
def isText (v : Value) (t : Text) : Bool := decide (v.text? = some t)

/-- Whether a value counts as given: null, false, zero and everything empty do not. -/
def isGiven : Value → Bool
  | .null => false
  | .bool b => b
  | .int i => decide (i ≠ 0)
  | .float x => !x.isZero
  | .text t => !t.isEmpty
  | .array items => !items.isEmpty
  | .object fields => !fields.isEmpty

mutual

/-- How deep a value nests: one level for the value, and those of its items or fields. -/
def depth : Value → Nat
  | .array items => depthOfItems items + 1
  | .object fields => depthOfFields fields + 1
  | _ => 1

/-- How deep the deepest of some items nests. -/
def depthOfItems : List Value → Nat
  | [] => 0
  | v :: items => max (depth v) (depthOfItems items)

/-- How deep the deepest of some fields nests. -/
def depthOfFields : List (Text × Value) → Nat
  | [] => 0
  | (_, v) :: fields => max (depth v) (depthOfFields fields)

end

end Value

end GuiBuilder
