import GuiBuilder.Value.Basic

/-!
# Agreement of values

Two values agree when they say the same, whatever their notation: numbers by their size, where a
truth value counts as one or zero, texts by their code points, arrays item by item, and objects
field by field, in whatever order the fields are. What is not a number agrees with nothing, itself
included (`agrees_nan`), so agreement is no equivalence.
-/

namespace GuiBuilder

namespace Value

/-- The integer that a value counts as, if it is one. -/
def integer? : Value → Option Int
  | .bool b => some b.toNat
  | .int i => some i
  | .float (.finite x) => x.toInt?
  | _ => none

/-- Whether two values count as the same integer. -/
def sameInteger (v w : Value) : Bool :=
  match v.integer?, w.integer? with
  | some i, some j => decide (i = j)
  | _, _ => false

mutual

/-- Whether two values agree. -/
def agrees : Value → Value → Bool
  | .null, .null => true
  | .text t, .text u => decide (t = u)
  | .float x, .float y => x.same y
  | .array items, .array others => agreesItems items others
  | .object fields, .object others =>
    decide (fields.length = others.length) && agreesFields fields others
  | v, w => sameInteger v w

/-- Whether the items of two arrays agree, one by one. -/
def agreesItems : List Value → List Value → Bool
  | [], [] => true
  | v :: items, w :: others => agrees v w && agreesItems items others
  | _, _ => false

/-- Whether each of some fields has one of its key among others whose value agrees. -/
def agreesFields : List (Text × Value) → Fields → Bool
  | [], _ => true
  | (k, v) :: fields, others =>
    (match others.get? k with
      | some w => agrees v w
      | none => false) && agreesFields fields others

end

/-- What is not a number agrees with nothing. -/
theorem agrees_nan (v : Value) : agrees (.float .nan) v = false := by
  cases v <;> rfl

end Value

end GuiBuilder
