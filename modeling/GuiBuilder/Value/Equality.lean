import GuiBuilder.Value.Basic

/-!
# Equality of values

Two values are the same when they are built in the same way; the fields of an object count in their
order. `Value.same` decides this by recursion on the values, their items and their fields.
-/

namespace GuiBuilder

namespace Value

mutual

/-- Whether two values are the same. -/
def same : Value → Value → Bool
  | .null, .null => true
  | .bool b, .bool c => decide (b = c)
  | .int i, .int j => decide (i = j)
  | .float x, .float y => decide (x = y)
  | .text t, .text u => decide (t = u)
  | .array items, .array others => sameItems items others
  | .object fields, .object others => sameFields fields others
  | _, _ => false

/-- Whether the items of two arrays are the same. -/
def sameItems : List Value → List Value → Bool
  | [], [] => true
  | v :: items, w :: others => same v w && sameItems items others
  | _, _ => false

/-- Whether the fields of two objects are the same. -/
def sameFields : List (Text × Value) → List (Text × Value) → Bool
  | [], [] => true
  | (k, v) :: fields, (l, w) :: others =>
    decide (k = l) && same v w && sameFields fields others
  | _, _ => false

end

mutual

theorem same_iff : ∀ {v w : Value}, same v w = true ↔ v = w
  | .null, w => by cases w <;> simp [same]
  | .bool b, w => by cases w <;> simp [same]
  | .int i, w => by cases w <;> simp [same]
  | .float x, w => by cases w <;> simp [same]
  | .text t, w => by cases w <;> simp [same]
  | .array items, w => by
    cases w with
    | array others => simp only [same, Value.array.injEq]; exact sameItems_iff
    | _ => simp [same]
  | .object fields, w => by
    cases w with
    | object others => simp only [same, Value.object.injEq]; exact sameFields_iff
    | _ => simp [same]

theorem sameItems_iff : ∀ {items others : List Value}, sameItems items others = true ↔ items = others
  | [], others => by cases others <;> simp [sameItems]
  | v :: items, others => by
    cases others with
    | nil => simp [sameItems]
    | cons w others =>
      simp only [sameItems, Bool.and_eq_true, List.cons.injEq]
      exact and_congr same_iff sameItems_iff

theorem sameFields_iff :
    ∀ {fields others : List (Text × Value)}, sameFields fields others = true ↔ fields = others
  | [], others => by cases others <;> simp [sameFields]
  | (k, v) :: fields, others => by
    cases others with
    | nil => simp [sameFields]
    | cons f others =>
      obtain ⟨l, w⟩ := f
      simp only [sameFields, Bool.and_eq_true, decide_eq_true_eq, List.cons.injEq, Prod.mk.injEq]
      exact and_congr (and_congr Iff.rfl same_iff) sameFields_iff

end

instance : DecidableEq Value := fun _ _ => decidable_of_iff _ same_iff

end Value

end GuiBuilder
