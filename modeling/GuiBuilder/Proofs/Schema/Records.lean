import GuiBuilder.Proofs.Text.Lines
import GuiBuilder.Proofs.Value.Fields
import GuiBuilder.Schema.Widget
import Mathlib.Data.Int.Notation
import Mathlib.Data.List.Lattice
import Mathlib.Data.List.Pairwise

/-!
# Records and their fields

What a check accepts is taken apart here: a combination of checks passes when its parts do, and what
a field has read is its default or comes from some value. In the other direction, the fields of a
record are found again where the record was written under either names, because no two fields of the
widget tree share a name (`Field.pairwise_apart`): `required_spellFields` and `optional_spellFields`
are all that reading a record back needs.
-/

namespace GuiBuilder

/-! ### Checks that pass -/

namespace Checked

variable {α β : Type}

theorem map_eq_ok {f : α → β} {c : Checked α} {b : β} :
    f <$> c = .ok b ↔ ∃ a, c = .ok a ∧ f a = b := by
  constructor
  · intro h
    cases c with
    | ok a => exact ⟨a, rfl, Checked.ok.inj h⟩
    | rejected problems => cases h
  · rintro ⟨a, rfl, rfl⟩
    rfl

theorem seq_eq_ok {f : Checked (α → β)} {c : Checked α} {b : β} :
    f <*> c = .ok b ↔ ∃ g a, f = .ok g ∧ c = .ok a ∧ g a = b := by
  constructor
  · intro h
    cases f with
    | ok g =>
      cases c with
      | ok a => exact ⟨g, a, rfl, rfl, Checked.ok.inj h⟩
      | rejected problems => cases h
    | rejected problems =>
      cases c with
      | ok a => cases h
      | rejected others => cases h
  · rintro ⟨g, a, rfl, rfl, rfl⟩
    rfl

theorem under_eq_ok {step : Step} {c : Checked α} {a : α} : under step c = .ok a ↔ c = .ok a := by
  cases c with
  | ok b => exact Iff.rfl
  | rejected problems => exact ⟨nofun, nofun⟩

theorem andThen_eq_ok {c : Checked α} {next : α → Checked β} {b : β} :
    c.andThen next = .ok b ↔ ∃ a, c = .ok a ∧ next a = .ok b := by
  cases c with
  | ok a =>
    constructor
    · intro h
      exact ⟨a, rfl, h⟩
    · rintro ⟨a', ha, h⟩
      cases ha
      exact h
  | rejected problems => exact ⟨nofun, nofun⟩

theorem toOption_eq_some {c : Checked α} {a : α} : c.toOption = some a ↔ c = .ok a := by
  cases c with
  | ok b => simp [toOption]
  | rejected problems => simp [toOption]

end Checked

namespace FieldName

variable {α : Type} {f : FieldName} {read : Value → Checked α} {fields : Fields} {a : α}

/-- A field that is found is one of the fields. -/
theorem mem_of_find? {field : Text × Value} (h : f.find? fields = some field) : field ∈ fields := by
  unfold find? at h
  split at h
  · next v hget =>
    cases h
    exact Fields.mem_of_get? hget
  · obtain ⟨v, hget, rfl⟩ := Option.map_eq_some_iff.1 h
    exact Fields.mem_of_get? hget

theorem exists_of_required (h : f.required read fields = .ok a) : ∃ v, read v = .ok a := by
  unfold required at h
  split at h
  · next key v _ => exact ⟨v, Checked.under_eq_ok.1 h⟩
  · cases h

theorem eq_or_exists_of_optional {default : α} (h : f.optional default read fields = .ok a) :
    a = default ∨ ∃ field ∈ fields, read field.2 = .ok a := by
  unfold optional at h
  split at h
  · next key v hfind => exact .inr ⟨(key, v), mem_of_find? hfind, Checked.under_eq_ok.1 h⟩
  · exact .inl (Checked.ok.inj h).symm

theorem required_eq_ok {key : Text} {v : Value} (hfind : f.find? fields = some (key, v)) :
    f.required read fields = .ok a ↔ read v = .ok a := by
  rw [required, hfind]
  exact Checked.under_eq_ok

theorem optional_eq_ok {default : α} {key : Text} {v : Value} (hfind : f.find? fields = some (key, v)) :
    f.optional default read fields = .ok a ↔ read v = .ok a := by
  rw [optional, hfind]
  exact Checked.under_eq_ok

/-- What an optional field has read has every property that its default has and that the check
gives for the values of the fields. -/
theorem of_optional {P : α → Prop} {default : α} (h : f.optional default read fields = .ok a)
    (hdefault : P default) (hread : ∀ field ∈ fields, ∀ a, read field.2 = .ok a → P a) : P a := by
  rcases eq_or_exists_of_optional h with rfl | ⟨field, hfield, ha⟩
  · exact hdefault
  · exact hread field hfield a ha

end FieldName

namespace Schema

variable {α : Type} {read : Value → Checked α}

theorem exists_of_readRecord {schema : Schema} {readFields : Fields → Checked α} {v : Value} {a : α}
    (h : readRecord schema readFields v = .ok a) :
    ∃ fields, v = .object fields ∧ readFields fields = .ok a := by
  cases v with
  | object fields => exact ⟨fields, rfl, h⟩
  | _ => cases h

theorem exists_of_readItems {i : ℕ} {items : List Value} {as : List α}
    (h : readItems read i items = .ok as) : ∀ a ∈ as, ∃ v ∈ items, read v = .ok a := by
  induction items generalizing i as with
  | nil =>
    cases h
    exact fun a ha => absurd ha List.not_mem_nil
  | cons v items ih =>
    obtain ⟨g, rest, hg, hrest, rfl⟩ := Checked.seq_eq_ok.1 h
    obtain ⟨b, hb, rfl⟩ := Checked.map_eq_ok.1 hg
    rw [List.forall_mem_cons]
    refine ⟨⟨v, List.mem_cons_self, Checked.under_eq_ok.1 hb⟩, fun a ha => ?_⟩
    obtain ⟨u, hu, hread⟩ := ih hrest a ha
    exact ⟨u, List.mem_cons_of_mem _ hu, hread⟩

/-- Where written items are read, each of them can be read. -/
theorem exists_of_readItems_map {β : Type} {toValue : β → Value} {bs : List β} {i : ℕ} {as : List α}
    (h : readItems read i (bs.map toValue) = .ok as) : ∀ b ∈ bs, ∃ a, read (toValue b) = .ok a := by
  induction bs generalizing i as with
  | nil => exact fun b hb => absurd hb List.not_mem_nil
  | cons b bs ih =>
    obtain ⟨g, rest, hg, hrest, -⟩ := Checked.seq_eq_ok.1 h
    obtain ⟨a, ha, -⟩ := Checked.map_eq_ok.1 hg
    rw [List.forall_mem_cons]
    exact ⟨⟨a, Checked.under_eq_ok.1 ha⟩, ih hrest⟩

theorem exists_of_readArray {v : Value} {as : List α} (h : readArray read v = .ok as) :
    ∃ items, v = .array items ∧ ∀ a ∈ as, ∃ item ∈ items, read item = .ok a := by
  cases v with
  | array items => exact ⟨items, rfl, exists_of_readItems h⟩
  | _ => cases h

/-- Items that are read back one by one are read back together. -/
theorem readItems_map {toValue : α → Value} {as : List α} (h : ∀ a ∈ as, read (toValue a) = .ok a)
    (i : ℕ) : readItems read i (as.map toValue) = .ok as := by
  induction as generalizing i with
  | nil => rfl
  | cons a as ih =>
    rw [List.forall_mem_cons] at h
    rw [List.map_cons, readItems, h.1, ih h.2, Checked.under_ok, Checked.map_ok, Checked.seq_ok]

theorem readArray_map {toValue : α → Value} {as : List α} (h : ∀ a ∈ as, read (toValue a) = .ok a) :
    readArray read (.array (as.map toValue)) = .ok as := readItems_map h 0

/-- Where each item that passes comes back as it was, so do all together. -/
theorem eq_of_readArray_map {toValue : α → Value} {as bs : List α}
    (heq : ∀ a b, read (toValue a) = .ok b → b = a) (h : readArray read (.array (as.map toValue)) = .ok bs) :
    bs = as := by
  have hback : ∀ a ∈ as, read (toValue a) = .ok a := by
    intro a ha
    obtain ⟨b, hb⟩ := exists_of_readItems_map h a ha
    rw [hb, heq a b hb]
  rw [readArray_map hback] at h
  exact (Checked.ok.inj h).symm

/-! ### Single values -/

theorem readText_eq_ok {v : Value} {t : Text} : readText v = .ok t ↔ v = .text t ∧ t.Encodable := by
  constructor
  · intro h
    cases v with
    | text u =>
      simp only [readText] at h
      split at h
      · next hu =>
        cases h
        exact ⟨rfl, hu⟩
      · cases h
    | _ => cases h
  · rintro ⟨rfl, ht⟩
    exact if_pos ht

theorem readText_text {t : Text} (h : t.Encodable) : readText (.text t) = .ok t :=
  readText_eq_ok.2 ⟨rfl, h⟩

/-- A text that passes is the one that was given. -/
theorem readText_text_eq_ok {t u : Text} : readText (.text t) = .ok u ↔ u = t ∧ t.Encodable := by
  rw [readText_eq_ok, Value.text.injEq]
  constructor
  · rintro ⟨rfl, ht⟩
    exact ⟨rfl, ht⟩
  · rintro ⟨rfl, ht⟩
    exact ⟨rfl, ht⟩

theorem encodable_of_readText {v : Value} {t : Text} (h : readText v = .ok t) : t.Encodable :=
  (readText_eq_ok.1 h).2

theorem encodable_of_readLogic {v : Value} {logic : Option Text} (h : readLogic v = .ok logic) :
    ∀ t ∈ logic, t.Encodable := by
  unfold readLogic at h
  split at h
  · cases h
    exact fun t ht => absurd ht (by simp)
  · obtain ⟨t, ht, rfl⟩ := Checked.map_eq_ok.1 h
    rintro _ ⟨⟩
    exact encodable_of_readText ht

theorem readNat_natCast (n : ℕ) : readNat (.int n) = .ok n := by
  have hread : readInt (.int n) = .ok (n : ℤ) := rfl
  rw [readNat, hread, Checked.andThen, if_pos (Int.natCast_nonneg n), Int.toNat_natCast]

theorem encodable_of_readTexts {v : Value} {ts : List Text} (h : readTexts v = .ok ts) :
    ∀ t ∈ ts, t.Encodable := by
  obtain ⟨us, -, hus⟩ := Checked.andThen_eq_ok.1 h
  split at hus
  · next hall =>
    cases hus
    exact hall
  · cases hus

theorem readTexts_map {ts : List Text} (h : ∀ t ∈ ts, t.Encodable) :
    readTexts (.array (ts.map .text)) = .ok ts := by
  have hread : readArray readAnyText (.array (ts.map .text)) = .ok ts := readArray_map fun t _ => rfl
  rw [readTexts, hread, Checked.andThen, if_pos h]

end Schema

/-! ### The names of fields -/

/-- Neither name of one field is a name of the other. -/
def FieldName.Apart (f g : FieldName) : Prop := [f.name, f.jsonName].Disjoint [g.name, g.jsonName]

instance (f g : FieldName) : Decidable (f.Apart g) :=
  decidable_of_iff (∀ s ∈ [f.name, f.jsonName], s ∉ [g.name, g.jsonName]) Iff.rfl

namespace FieldName

instance : Std.Symm FieldName.Apart := ⟨fun _ _ h => List.Disjoint.symm h⟩

theorem Apart.spelled_ne {f g : FieldName} (h : f.Apart g) (s s' : Spelling) :
    f.spelled s ≠ g.spelled s' := by
  intro heq
  have hmem (f : FieldName) (s : Spelling) : ∃ n ∈ [f.name, f.jsonName], f.spelled s = Text.ofString n := by
    cases s with
    | name => exact ⟨f.name, List.mem_cons_self, rfl⟩
    | json => exact ⟨f.jsonName, by simp, rfl⟩
  obtain ⟨m, hm, hf⟩ := hmem f s
  obtain ⟨n, hn, hg⟩ := hmem g s'
  have hmn : m = n := Text.ofString_inj.1 (by rw [← hf, ← hg, heq])
  exact h hm (hmn ▸ hn)

end FieldName

/-- All fields of the widget tree, in an order from which no record departs. -/
def Field.all : List FieldName :=
  [type, id, text, logic, flag, initially, min, max, value, decimals, options, elements, title, folders,
    name, data, language]

/-- No two fields of the widget tree share a name. -/
theorem Field.pairwise_apart : Field.all.Pairwise FieldName.Apart := by
  decide

/-! ### Fields that are found again -/

section Spelled

variable {s : Spelling} {fields : List (FieldName × Value)} {f : FieldName} {v : Value}

/-- A field of a record is found under the names in which the record is written. -/
theorem get?_spellFields (h : (fields.map Prod.fst).Pairwise FieldName.Apart) (hf : (f, v) ∈ fields) :
    Fields.get? (f.spelled s) (spellFields s fields) = some v := by
  induction fields with
  | nil => cases hf
  | cons field fields ih =>
    rw [List.map_cons, List.pairwise_cons] at h
    rcases List.mem_cons.1 hf with rfl | hf
    · exact if_pos rfl
    · have hne : field.1.spelled s ≠ f.spelled s :=
        (h.1 f (List.mem_map_of_mem hf)).spelled_ne s s
      exact (if_neg hne).trans (ih h.2 hf)

/-- A key that is not the name of a field is not found. -/
theorem get?_spellFields_eq_none {key : Text} (h : ∀ g ∈ fields.map Prod.fst, g.spelled s ≠ key) :
    Fields.get? key (spellFields s fields) = none := by
  induction fields with
  | nil => rfl
  | cons field fields ih =>
    rw [List.map_cons, List.forall_mem_cons] at h
    exact (if_neg h.1).trans (ih h.2)

/-- A field is found under the name in which it was written, although its name in JSON is tried
first. -/
theorem find?_spellFields (h : (fields.map Prod.fst).Pairwise FieldName.Apart) (hf : (f, v) ∈ fields) :
    f.find? (spellFields s fields) = some (f.spelled s, v) := by
  have hget := get?_spellFields (s := s) h hf
  unfold FieldName.find?
  cases s with
  | json => rw [hget]
  | name =>
    by_cases hsame : f.spelled .name = f.spelled .json
    · rw [← hsame, hget]
    · have hnone : Fields.get? (f.spelled .json) (spellFields .name fields) = none := by
        refine get?_spellFields_eq_none fun g hg => ?_
        by_cases hgf : g = f
        · rw [hgf]
          exact hsame
        · have hapart : g.Apart f :=
            h.forall hg (List.mem_map_of_mem hf) hgf
          exact hapart.spelled_ne .name .json
      rw [hnone, hget]
      rfl

variable {α : Type} {read : Value → Checked α} {a : α}

theorem required_spellFields (h : (fields.map Prod.fst).Pairwise FieldName.Apart) (hf : (f, v) ∈ fields)
    (hread : read v = .ok a) : f.required read (spellFields s fields) = .ok a :=
  (FieldName.required_eq_ok (find?_spellFields h hf)).2 hread

theorem optional_spellFields {default : α} (h : (fields.map Prod.fst).Pairwise FieldName.Apart)
    (hf : (f, v) ∈ fields) (hread : read v = .ok a) :
    f.optional default read (spellFields s fields) = .ok a :=
  (FieldName.optional_eq_ok (find?_spellFields h hf)).2 hread

/-- The keys of a record are distinct. -/
theorem nodup_keys_spellFields (h : (fields.map Prod.fst).Pairwise FieldName.Apart) :
    ((spellFields s fields).map Prod.fst).Nodup := by
  have hkeys : (spellFields s fields).map Prod.fst = (fields.map Prod.fst).map fun f => f.spelled s := by
    rw [spellFields, List.map_map, List.map_map]
    rfl
  rw [hkeys, List.Nodup, List.pairwise_map]
  exact h.imp fun hapart => hapart.spelled_ne s s

end Spelled

end GuiBuilder
