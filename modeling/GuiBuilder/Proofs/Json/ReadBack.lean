import GuiBuilder.Proofs.Json.Spelling
import GuiBuilder.Proofs.Value.Fields

/-!
# Canonical JSON is read back

`Json.readWithin` gives back the value whose canonical form it is given, if the value is `Storable`: its
texts are encodable, its numbers are finite, its integers have no more digits than the reader takes, and
no object has a key twice. The proof follows the value, its items and its fields: the text of each of the
three is put together from texts that are read. The form of a storable value is encodable as well, so it
survives being kept in UTF-8.
-/

namespace GuiBuilder

/-! ### Values that can be stored -/

mutual

/-- Whether a value can be stored in its canonical form, for a reader of integers with so many digits:
what is no finite number has no form of its own, and of fields with one key only one is kept. -/
def Value.Storable (digits : ℕ) : Value → Prop
  | .int i => (decimalDigits i.natAbs).length ≤ digits
  | .float x => ∃ y, x = .finite y
  | .text t => t.Encodable
  | .array items => ItemsStorable digits items
  | .object fields => (fields.map Prod.fst).Nodup ∧ FieldsStorable digits fields
  | .null | .bool _ => True

/-- Whether all items can be stored. -/
def ItemsStorable (digits : ℕ) : List Value → Prop
  | [] => True
  | v :: items => v.Storable digits ∧ ItemsStorable digits items

/-- Whether all fields can be stored. -/
def FieldsStorable (digits : ℕ) : List (Text × Value) → Prop
  | [] => True
  | (key, v) :: fields => (key.Encodable ∧ v.Storable digits) ∧ FieldsStorable digits fields

end

theorem itemsStorable_iff {digits : ℕ} {items : List Value} :
    ItemsStorable digits items ↔ ∀ v ∈ items, v.Storable digits := by
  induction items with
  | nil => simp [ItemsStorable]
  | cons v items ih => simp [ItemsStorable, ih]

theorem fieldsStorable_iff {digits : ℕ} {fields : Fields} :
    FieldsStorable digits fields ↔ ∀ field ∈ fields, field.1.Encodable ∧ field.2.Storable digits := by
  induction fields with
  | nil => simp [FieldsStorable]
  | cons field fields ih =>
    obtain ⟨key, v⟩ := field
    rw [FieldsStorable, ih, List.forall_mem_cons]

namespace Value

theorem depthOfItems_le_iff {items : List Value} {n : ℕ} :
    depthOfItems items ≤ n ↔ ∀ v ∈ items, v.depth ≤ n := by
  induction items with
  | nil => simp [depthOfItems]
  | cons v items ih => simp [depthOfItems, ih]

theorem depthOfFields_le_iff {fields : Fields} {n : ℕ} :
    depthOfFields fields ≤ n ↔ ∀ field ∈ fields, field.2.depth ≤ n := by
  induction fields with
  | nil => simp [depthOfFields]
  | cons field fields ih =>
    obtain ⟨key, v⟩ := field
    rw [depthOfFields, Nat.max_le, ih, List.forall_mem_cons]

end Value

namespace Json

variable {t rest : Text} {digits : ℕ}

/-! ### Neighbours in a container -/

theorem inlineItems_cons_cons (v w : Value) (items : List Value) :
    inlineItems .canonical (v :: w :: items)
      = inline .canonical v ++ .char ',' :: inlineItems .canonical (w :: items) := by
  rw [inlineItems, List.append_assoc]
  rfl

theorem inlineFields_singleton (key : Text) (v : Value) :
    inlineFields .canonical [(key, v)] = quoted plainText key ++ .char ':' :: inline .canonical v := by
  rw [inlineFields, List.append_assoc]
  rfl

theorem inlineFields_cons_cons (key : Text) (v : Value) (field : Text × Value) (fields : Fields) :
    inlineFields .canonical ((key, v) :: field :: fields)
      = quoted plainText key ++ .char ':' :: (inline .canonical v
          ++ .char ',' :: inlineFields .canonical (field :: fields)) := by
  simp only [inlineFields, List.append_assoc]
  rfl

/-! ### Canonical texts are read -/

theorem hidesControls_plainText : HidesControls plainText := fun _ => of_decide_eq_true

mutual

/-- **The canonical form of a value reads as it.** -/
theorem readsAs_inline : ∀ {v : Value} {depth : ℕ}, v.Storable digits → v.depth ≤ depth →
    ReadsAs digits depth v (inline .canonical v)
  | .null, _, _, _ => readsAs_word (by simp [words])
  | .bool true, _, _, _ => readsAs_word (by simp [words])
  | .bool false, _, _, _ => readsAs_word (by simp [words])
  | .int i, _, hv, _ => readsAs_int hv
  | .float x, _, hv, _ => by
    obtain ⟨y, rfl⟩ := hv
    exact readsAs_finite _ y
  | .text t, _, _, _ => readsAs_quoted hidesControls_plainText (unpaired_plainText t)
  | .array [], depth + 1, _, _ => readsAs_array_nil
  | .array (v :: items), depth + 1, hv, hdepth =>
    (itemsReadAs_inline (List.cons_ne_nil v items) hv (Nat.le_of_succ_le_succ hdepth)).array blank_nil blank_nil
  | .object [], depth + 1, _, _ => readsAs_object_nil
  | .object (field :: fields), depth + 1, hv, hdepth => by
    have hfields := fieldsReadAs_inline (List.cons_ne_nil field fields) hv.2 (Nat.le_of_succ_le_succ hdepth)
    have hread := hfields.object blank_nil blank_nil
    rwa [Fields.ofList_of_nodup hv.1] at hread
  | .array _, 0, _, hdepth => absurd hdepth (Nat.not_succ_le_zero _)
  | .object _, 0, _, hdepth => absurd hdepth (Nat.not_succ_le_zero _)

theorem itemsReadAs_inline : ∀ {items : List Value} {depth : ℕ}, items ≠ [] → ItemsStorable digits items →
    Value.depthOfItems items ≤ depth → ItemsReadAs digits depth items (inlineItems .canonical items)
  | [], _, hne, _, _ => absurd rfl hne
  | [_], _, _, hv, hdepth => (readsAs_inline hv.1 (Nat.max_le.1 hdepth).1).lastItem
  | _ :: w :: items, _, _, hv, hdepth => by
    have hrest := itemsReadAs_inline (List.cons_ne_nil w items) hv.2 (Nat.max_le.1 hdepth).2
    rw [inlineItems_cons_cons]
    exact .cons (readsAs_inline hv.1 (Nat.max_le.1 hdepth).1) blank_nil hrest

theorem fieldsReadAs_inline : ∀ {fields : Fields} {depth : ℕ}, fields ≠ [] → FieldsStorable digits fields →
    Value.depthOfFields fields ≤ depth → FieldsReadAs digits depth fields (inlineFields .canonical fields)
  | [], _, hne, _, _ => absurd rfl hne
  | [(key, _)], _, _, hv, hdepth => by
    rw [inlineFields_singleton]
    exact (readsAs_inline hv.1.2 (Nat.max_le.1 hdepth).1).lastField hidesControls_plainText
      (unpaired_plainText key) blank_nil
  | (key, _) :: field :: fields, _, _, hv, hdepth => by
    have hrest := fieldsReadAs_inline (List.cons_ne_nil field fields) hv.2 (Nat.max_le.1 hdepth).2
    rw [inlineFields_cons_cons]
    exact .cons hidesControls_plainText (unpaired_plainText key) blank_nil
      (readsAs_inline hv.1.2 (Nat.max_le.1 hdepth).1) blank_nil hrest

end

/-- **Canonical JSON is read back** by every reader whose limits the value keeps. -/
theorem readWithin_inline (limits : Limits) {v : Value} (hv : v.Storable limits.digits)
    (hdepth : v.depth ≤ limits.depth) : readWithin limits (inline .canonical v) = .ok v :=
  readWithin_of_readsAs (readsAs_inline hv hdepth)

/-! ### Objects that were read -/

theorem Parsed.yield_eq_ok {α β : Type} {first : Parsed α} {f : α → β} {b : β} {rest : Text} :
    first.yield f = .ok (b, rest) ↔ ∃ a, first = .ok (a, rest) ∧ f a = b := by
  cases first with
  | error stop => simp [yield, andThen]
  | ok read => simp [yield, andThen, Prod.ext_iff, and_comm, eq_comm]

/-- What is read without a sign is a number. -/
theorem readUnsigned_ne_object {negative : Bool} {t : Text} {fields : Fields} :
    readUnsigned digits negative t ≠ some (.ok (.object fields, rest)) := by
  intro h
  unfold readUnsigned at h
  split at h
  · cases h
  · split at h
    split at h
    · split at h
      · split at h <;> cases h
      · cases h
    · cases h

/-- A word or a number is no object. -/
theorem readScalar_ne_object {t : Text} {fields : Fields} :
    readScalar digits t ≠ .ok (.object fields, rest) := by
  unfold readScalar
  split
  · next result hword =>
    obtain ⟨⟨word, v⟩, hmem, hv⟩ := List.exists_of_findSome?_eq_some hword
    obtain ⟨u, -, rfl⟩ := Option.map_eq_some_iff.1 hv
    rintro ⟨⟩
    simp [words] at hmem
  · obtain ⟨negative, u, -, hnumber⟩ := exists_readNumber digits t
    rw [hnumber]
    cases hread : readUnsigned digits negative u with
    | none =>
      intro h
      cases h
    | some result => exact fun h => readUnsigned_ne_object (hread.trans (congrArg some h))

theorem nodup_of_readValue {depth fuel : ℕ} {t : Text} {fields : Fields}
    (h : readValue digits depth fuel t = .ok (.object fields, rest)) : (fields.map Prod.fst).Nodup := by
  cases fuel with
  | zero => cases h
  | succ fuel =>
    rw [readValue.eq_def] at h
    dsimp only at h
    split at h
    · obtain ⟨u, -, hu⟩ := Parsed.yield_eq_ok.1 h
      cases hu
    · split at h
      · cases h
      · split at h
        · cases h
        · obtain ⟨items, -, hitems⟩ := Parsed.yield_eq_ok.1 h
          cases hitems
    · split at h
      · cases h
      · split at h
        · cases h
          exact List.nodup_nil
        · obtain ⟨read, -, hfields⟩ := Parsed.yield_eq_ok.1 h
          cases hfields
          exact Fields.nodup_ofList read
    · exact absurd h readScalar_ne_object

/-- A value that a text was read as stands at its front. -/
theorem exists_readValue_of_readWithin {limits : Limits} {t : Text} {v : Value}
    (h : readWithin limits t = .ok v) :
    ∃ rest, readValue limits.digits limits.depth (2 * t.length + 1) (skipSpace t) = .ok (v, rest) := by
  have hall : readAll limits t = .ok v := by
    unfold readWithin at h
    cases hread : readAll limits t with
    | error stop => simp [hread, Except.mapError] at h
    | ok w => simpa [hread, Except.mapError] using h
  unfold readAll at hall
  split at hall
  · cases hall
  · split at hall
    · cases hall
    · next hread =>
      split at hall
      · cases hall
        exact ⟨_, hread⟩
      · cases hall

/-- **An object that was read has no key twice.** -/
theorem nodup_of_readWithin {limits : Limits} {t : Text} {fields : Fields}
    (h : readWithin limits t = .ok (.object fields)) : (fields.map Prod.fst).Nodup := by
  obtain ⟨rest, hread⟩ := exists_readValue_of_readWithin h
  exact nodup_of_readValue hread

/-- **Storable values with one canonical form are equal.** -/
theorem inline_injective {v w : Value} (hv : v.Storable digits) (hw : w.Storable digits)
    (h : inline .canonical v = inline .canonical w) : v = w := by
  have hreadv := readWithin_inline ⟨max v.depth w.depth, digits⟩ hv (Nat.le_max_left _ _)
  have hreadw := readWithin_inline ⟨max v.depth w.depth, digits⟩ hw (Nat.le_max_right _ _)
  rw [h, hreadw] at hreadv
  exact (Except.ok.inj hreadv).symm

/-! ### The form of a storable value is encodable -/

theorem encodable_escaped (plain : CodePoint → Bool) {p : CodePoint} (hp : p.isChar = true) :
    (escaped plain p).Encodable := by
  unfold escaped
  split
  · next letter _ => exact Text.encodable_map_char ['\\', letter]
  · split
    · exact List.forall_mem_singleton.2 hp
    · intro q hq
      obtain ⟨n, -, hn⟩ := List.mem_flatMap.1 hq
      exact Text.encodable_map_char _ q hn

theorem encodable_quoted (plain : CodePoint → Bool) {t : Text} (ht : t.Encodable) :
    (quoted plain t).Encodable := by
  have hinner : Text.Encodable (t.flatMap (escaped plain)) := by
    intro q hq
    obtain ⟨p, hp, hq⟩ := List.mem_flatMap.1 hq
    exact encodable_escaped plain (ht p hp) q hq
  have hquote : Text.Encodable [.char '"'] := Text.encodable_map_char ['"']
  exact Text.encodable_append.2 ⟨Text.encodable_append.2 ⟨hquote, hinner⟩, hquote⟩

mutual

/-- **What is stored has a UTF-8 form.** -/
theorem encodable_inline : ∀ {v : Value}, v.Storable digits → (inline .canonical v).Encodable
  | .null, _ => Text.encodable_ofString _
  | .bool true, _ => Text.encodable_ofString _
  | .bool false, _ => Text.encodable_ofString _
  | .int i, _ => by
    rw [inline, ofInt_eq_signed]
    exact Text.encodable_map_char _
  | .float x, hv => by
    obtain ⟨y, rfl⟩ := hv
    exact Text.encodable_map_char _
  | .text t, hv => encodable_quoted _ hv
  | .array items, hv => by
    rw [inline]
    refine Text.encodable_append.2 ⟨?_, Text.encodable_map_char [']']⟩
    exact List.forall_mem_cons.2 ⟨rfl, encodable_inlineItems hv⟩
  | .object fields, hv => by
    rw [inline]
    refine Text.encodable_append.2 ⟨?_, Text.encodable_map_char ['\x7d']⟩
    exact List.forall_mem_cons.2 ⟨rfl, encodable_inlineFields hv.2⟩

theorem encodable_inlineItems : ∀ {items : List Value}, ItemsStorable digits items →
    (inlineItems .canonical items).Encodable
  | [], _ => Text.encodable_nil
  | [v], hv => encodable_inline hv.1
  | v :: w :: items, hv => by
    rw [inlineItems_cons_cons]
    exact Text.encodable_append.2
      ⟨encodable_inline hv.1, List.forall_mem_cons.2 ⟨rfl, encodable_inlineItems hv.2⟩⟩

theorem encodable_inlineFields : ∀ {fields : Fields}, FieldsStorable digits fields →
    (inlineFields .canonical fields).Encodable
  | [], _ => Text.encodable_nil
  | [(key, v)], hv => by
    rw [inlineFields_singleton]
    exact Text.encodable_append.2
      ⟨encodable_quoted _ hv.1.1, List.forall_mem_cons.2 ⟨rfl, encodable_inline hv.1.2⟩⟩
  | (key, v) :: field :: fields, hv => by
    rw [inlineFields_cons_cons]
    refine Text.encodable_append.2 ⟨encodable_quoted _ hv.1.1, List.forall_mem_cons.2 ⟨rfl, ?_⟩⟩
    exact Text.encodable_append.2
      ⟨encodable_inline hv.1.2, List.forall_mem_cons.2 ⟨rfl, encodable_inlineFields hv.2⟩⟩

end

end Json

end GuiBuilder
