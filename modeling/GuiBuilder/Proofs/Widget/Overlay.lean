import GuiBuilder.Proofs.Widget.Patch

/-!
# What a patch makes of a record

A patch is a list of keys with values. What it makes of a record can be said field by field: the field holds
the value of the last key that names it, or its own value if there is none (`Patch.overlay`). A patch goes
through if each key names a field that may be changed and the record of these values passes its check
(`Patch.apply_eq_ok_iff`); otherwise the first key that names no such field is what is reported
(`Patch.apply_of_not_takes`).

What the patched record holds then, in the order of its fields, is what the check of the field reads of the
value that it was given, and what it held before where it was given none (`Patch.Carries`). For fields that
are not named this rests on checking what has been written as data: it comes back as it was.
-/

namespace GuiBuilder

open Schema

/-! ### Keys and the fields that they name -/

namespace FieldName

variable {f g : FieldName} {key : Text}

theorem isNamed_iff : f.isNamed key = true ↔ ∃ s, f.spelled s = key := by
  rw [isNamed, Bool.or_eq_true, decide_eq_true_iff, decide_eq_true_iff]
  constructor
  · rintro (h | h)
    · exact ⟨.name, h⟩
    · exact ⟨.json, h⟩
  · rintro ⟨s, h⟩
    cases s with
    | name => exact .inl h
    | json => exact .inr h

/-- A key names one field at most. -/
theorem Apart.isNamed_eq_false (h : f.Apart g) (hf : f.isNamed key = true) : g.isNamed key = false := by
  obtain ⟨s, rfl⟩ := isNamed_iff.1 hf
  rw [Bool.eq_false_iff, ne_eq, isNamed_iff, not_exists]
  intro s' heq
  exact h.spelled_ne s s' heq.symm

theorem eq_of_isNamed {names : List FieldName} (hapart : names.Pairwise FieldName.Apart) (hf : f ∈ names)
    (hg : g ∈ names) (hf' : f.isNamed key = true) (hg' : g.isNamed key = true) : g = f := by
  by_contra hne
  have hfg : f.Apart g := hapart.forall hf hg (Ne.symm hne)
  rw [hfg.isNamed_eq_false hf'] at hg'
  cases hg'

end FieldName

namespace Patch

variable {names : List FieldName} {fields : List (FieldName × Value)} {patch : Fields} {f : FieldName}
  {key : Text} {v : Value}

/-- The value that a patch gives a field: that of the last key that names it. -/
def value? (patch : Fields) (f : FieldName) : Option Value :=
  (patch.filter fun field => f.isNamed field.1).getLast?.map Prod.snd

/-- The fields of a record with the values that a patch gives them. -/
def overlay (fields : List (FieldName × Value)) (patch : Fields) : List (FieldName × Value) :=
  fields.map fun (f, v) => (f, (value? patch f).getD v)

/-- The key names one of the fields, and neither the id nor the variant. -/
def Takes (names : List FieldName) (key : Text) : Prop :=
  ∃ f ∈ names, f.isNamed key = true ∧ f ≠ Field.id ∧ f ≠ Field.type

instance (names : List FieldName) (key : Text) : Decidable (Takes names key) :=
  inferInstanceAs (Decidable (∃ f ∈ names, f.isNamed key = true ∧ f ≠ Field.id ∧ f ≠ Field.type))

/-- What is reported of a key that is not taken. -/
def refusal (names : List FieldName) (key : Text) : PatchError :=
  if ∃ f ∈ names, f.isNamed key = true then .readOnly key else .unknownField key

theorem value?_eq_none_iff : value? patch f = none ↔ ∀ field ∈ patch, f.isNamed field.1 = false := by
  simp [value?]

/-- The last of two keys that name one field wins. -/
theorem value?_cons (rest : Fields) :
    value? ((key, v) :: rest) f = (value? rest f).or (if f.isNamed key = true then some v else none) := by
  by_cases h : f.isNamed key = true
  · have hfilter : ((key, v) :: rest).filter (fun field => f.isNamed field.1)
        = (key, v) :: rest.filter fun field => f.isNamed field.1 := List.filter_cons_of_pos h
    rw [value?, hfilter, List.getLast?_cons, if_pos h, value?]
    cases (rest.filter fun field => f.isNamed field.1).getLast? <;> rfl
  · have hfilter : ((key, v) :: rest).filter (fun field => f.isNamed field.1)
        = rest.filter fun field => f.isNamed field.1 := List.filter_cons_of_neg h
    rw [value?, hfilter, if_neg h, Option.or_none, value?]

@[simp] theorem map_fst_overlay (fields : List (FieldName × Value)) (patch : Fields) :
    (overlay fields patch).map Prod.fst = fields.map Prod.fst := by
  simp [overlay]

theorem mem_overlay (hf : (f, v) ∈ fields) : (f, (value? patch f).getD v) ∈ overlay fields patch :=
  List.mem_map_of_mem (f := fun (f, v) => (f, (value? patch f).getD v)) hf

theorem overlay_nil (fields : List (FieldName × Value)) : overlay fields [] = fields :=
  List.map_id' fields

/-- One key after the other. -/
theorem overlay_cons (fields : List (FieldName × Value)) (key : Text) (v : Value) (rest : Fields) :
    overlay fields ((key, v) :: rest) = overlay (overlay fields [(key, v)]) rest := by
  simp only [overlay, List.map_map]
  refine List.map_congr_left fun field _ => ?_
  simp only [Function.comp_apply, value?_cons]
  cases value? rest field.1 <;> rfl

/-! ### When a patch goes through -/

/-- The field that a key names is found. -/
theorem fieldOf?_eq_some (hapart : names.Pairwise FieldName.Apart) (hf : f ∈ names)
    (hkey : f.isNamed key = true) : fieldOf? names key = some f := by
  cases hfound : fieldOf? names key with
  | none =>
    have hnone := List.find?_eq_none.1 hfound f hf
    exact absurd hkey hnone
  | some g =>
    obtain ⟨hg, hg'⟩ := of_fieldOf? hfound
    rw [FieldName.eq_of_isNamed hapart hf hg hkey hg']

/-- A key that names another field changes nothing. -/
theorem overlay_of_apart (hf : ∀ g ∈ fields.map Prod.fst, f.Apart g) (hkey : f.isNamed key = true) :
    overlay fields [(key, v)] = fields := by
  calc overlay fields [(key, v)]
    _ = fields.map id := by
      refine List.map_congr_left fun field hfield => ?_
      have hother := (hf field.1 (List.mem_map_of_mem hfield)).isNamed_eq_false hkey
      simp [value?, hother]
    _ = fields := List.map_id fields

/-- Putting a field changes the one that the key names. -/
theorem put_spellFields (hapart : (fields.map Prod.fst).Pairwise FieldName.Apart)
    (hf : f ∈ fields.map Prod.fst) (hkey : f.isNamed key = true) :
    Fields.put (f.spelled .name) v (spellFields .name fields)
      = spellFields .name (overlay fields [(key, v)]) := by
  induction fields with
  | nil => cases hf
  | cons field fields ih =>
    obtain ⟨g, u⟩ := field
    rw [List.map_cons, List.pairwise_cons] at hapart
    by_cases hgf : g = f
    · subst hgf
      have hrest : overlay fields [(key, v)] = fields := overlay_of_apart hapart.1 hkey
      have hcons : overlay ((g, u) :: fields) [(key, v)] = (g, v) :: overlay fields [(key, v)] := by
        simp [overlay, value?, hkey]
      rw [hcons, hrest]
      exact if_pos rfl
    · have hmem : f ∈ fields.map Prod.fst := (List.mem_cons.1 hf).resolve_left (Ne.symm hgf)
      have hapart' : g.Apart f := hapart.1 f hmem
      have hother : g.isNamed key = false := (Std.Symm.symm _ _ hapart').isNamed_eq_false hkey
      have hcons : overlay ((g, u) :: fields) [(key, v)] = (g, u) :: overlay fields [(key, v)] := by
        simp [overlay, value?, hother]
      rw [hcons]
      refine (if_neg (hapart'.spelled_ne .name .name)).trans ?_
      exact congrArg _ (ih hapart.2 hmem)

/-- Where all keys are taken, the values are put into the record field by field. -/
theorem putAll_eq_ok (hapart : (fields.map Prod.fst).Pairwise FieldName.Apart)
    (h : ∀ field ∈ patch, Takes (fields.map Prod.fst) field.1) :
    putAll (fields.map Prod.fst) (spellFields .name fields) patch
      = .ok (spellFields .name (overlay fields patch)) := by
  induction patch generalizing fields with
  | nil => rw [putAll, overlay_nil]
  | cons field rest ih =>
    obtain ⟨key, v⟩ := field
    obtain ⟨⟨f, hf, hkey, hid, htype⟩, hrest⟩ := List.forall_mem_cons.1 h
    have hwritable : f ∉ readOnlyFields := by simp [readOnlyFields, hid, htype]
    have hnames : (overlay fields [(key, v)]).map Prod.fst = fields.map Prod.fst := map_fst_overlay _ _
    rw [putAll, fieldOf?_eq_some hapart hf hkey]
    simp only [if_neg hwritable]
    rw [put_spellFields hapart hf hkey, ← hnames, ih (hnames ▸ hapart) (hnames ▸ hrest),
      overlay_cons fields key v rest]

/-- The first key that is not taken is reported. -/
theorem putAll_of_not_takes (hapart : names.Pairwise FieldName.Apart) {before after record : Fields}
    (hbefore : ∀ field ∈ before, Takes names field.1) (hkey : ¬ Takes names key) :
    putAll names record (before ++ (key, v) :: after) = .error (refusal names key) := by
  induction before generalizing record with
  | nil =>
    rw [List.nil_append, putAll]
    unfold refusal
    split
    · next hnone =>
      have hunknown : ¬ ∃ f ∈ names, f.isNamed key = true := by
        rintro ⟨f, hf, hnamed⟩
        exact List.find?_eq_none.1 hnone f hf hnamed
      rw [if_neg hunknown]
    · next f hfound =>
      obtain ⟨hf, hnamed⟩ := of_fieldOf? hfound
      have hreadOnly : f ∈ readOnlyFields := by
        by_contra hwritable
        simp only [readOnlyFields, List.mem_cons, List.not_mem_nil, or_false, not_or] at hwritable
        exact hkey ⟨f, hf, hnamed, hwritable⟩
      rw [if_pos hreadOnly, if_pos ⟨f, hf, hnamed⟩]
  | cons field before ih =>
    obtain ⟨key', v'⟩ := field
    obtain ⟨⟨f, hf, hnamed, hid, htype⟩, hrest⟩ := List.forall_mem_cons.1 hbefore
    have hwritable : f ∉ readOnlyFields := by simp [readOnlyFields, hid, htype]
    rw [List.cons_append, putAll, fieldOf?_eq_some hapart hf hnamed]
    simp only [if_neg hwritable]
    exact ih hrest

/-- A list of keys that are not all taken has a first one that is not. -/
theorem exists_first_not_takes (h : ¬ ∀ field ∈ patch, Takes names field.1) :
    ∃ before key v after, patch = before ++ (key, v) :: after ∧ (∀ field ∈ before, Takes names field.1) ∧
      ¬ Takes names key := by
  induction patch with
  | nil => exact absurd (List.forall_mem_nil _) h
  | cons field rest ih =>
    by_cases hfield : Takes names field.1
    · have hrest : ¬ ∀ field ∈ rest, Takes names field.1 := fun hall =>
        h (List.forall_mem_cons.2 ⟨hfield, hall⟩)
      obtain ⟨before, key, v, after, rfl, hbefore, hkey⟩ := ih hrest
      exact ⟨field :: before, key, v, after, rfl, List.forall_mem_cons.2 ⟨hfield, hbefore⟩, hkey⟩
    · exact ⟨[], field.1, field.2, rest, rfl, List.forall_mem_nil _, hfield⟩

section Apply

variable {α : Type} {schema : Schema} {read : Value → Checked α} {a : α}

theorem apply_of_not_takes (hapart : (fields.map Prod.fst).Pairwise FieldName.Apart) {before after : Fields}
    (hbefore : ∀ field ∈ before, Takes (fields.map Prod.fst) field.1)
    (hkey : ¬ Takes (fields.map Prod.fst) key) :
    apply schema read fields (before ++ (key, v) :: after)
      = .error (refusal (fields.map Prod.fst) key) := by
  rw [apply, putAll_of_not_takes hapart hbefore hkey]

/-- **A patch goes through if all its keys are taken and the record with its values passes.** -/
theorem apply_eq_ok_iff (hapart : (fields.map Prod.fst).Pairwise FieldName.Apart) :
    apply schema read fields patch = .ok a ↔
      (∀ field ∈ patch, Takes (fields.map Prod.fst) field.1) ∧
        read (.object (spellFields .name (overlay fields patch))) = .ok a := by
  by_cases hkeys : ∀ field ∈ patch, Takes (fields.map Prod.fst) field.1
  · rw [and_iff_right hkeys, apply, putAll_eq_ok hapart hkeys]
    cases hread : read (.object (spellFields .name (overlay fields patch))) with
    | ok b => simp [hread, Checked.as]
    | rejected problems => simp [hread, Checked.as]
  · obtain ⟨before, key, v, after, rfl, hbefore, hkey⟩ := exists_first_not_takes hkeys
    rw [apply_of_not_takes hapart hbefore hkey]
    constructor
    · intro h
      cases h
    · intro h
      exact absurd h.1 hkeys

end Apply

end Patch

/-! ### What a field holds after a patch -/

/-- A text or nothing, as a value. -/
def Value.textOrNull : Option Text → Value
  | some t => .text t
  | none => .null

/-- A value passes the check of a field. What the check reads of it is the second value, as data. -/
inductive Field.Reads : FieldName → Value → Value → Prop where
  | text {f : FieldName} {v : Value} {t : Text} (hf : f ∈ [Field.text, Field.title, Field.flag])
      (h : readText v = .ok t) : Reads f v (.text t)
  | logic {v : Value} {logic : Option Text} (h : readLogic v = .ok logic) :
      Reads Field.logic v (.textOrNull logic)
  | initially {v : Value} {b : Bool} (h : readBool v = .ok b) : Reads Field.initially v (.bool b)
  | number {f : FieldName} {v : Value} {x : Finite64} (hf : f ∈ [Field.min, Field.max, Field.value])
      (h : readNumber v = .ok x) : Reads f v (.float (.finite x))
  | decimals {v : Value} {n : ℕ} (h : readNat v = .ok n) : Reads Field.decimals v (.int n)
  | options {v : Value} {ts : List Text} (h : readTexts v = .ok ts) :
      Reads Field.options v (.array (ts.map .text))
  | elements {v : Value} {es : List Element} (h : readArray Element.ofValue v = .ok es) :
      Reads Field.elements v (.array (es.map (Element.toValue .name)))
  | folders {v : Value} {fs : List Folder} (h : readArray Folder.ofValue v = .ok fs) :
      Reads Field.folders v (.array (fs.map (Folder.toValue .name)))

namespace Patch

/-- What a field holds after a patch: what its check reads of the value that it is given, or what it held
before if it is given none. -/
def Carries (patch : Fields) (field new : FieldName × Value) : Prop :=
  new.1 = field.1 ∧
    match value? patch field.1 with
    | some v => Field.Reads field.1 v new.2
    | none => new.2 = field.2

variable {fields : List (FieldName × Value)} {patch : Fields} {f : FieldName} {old : Value} {α : Type}
  {read : Value → Checked α} {a : α}

theorem carries_of_value?_eq_none (h : value? patch f = none) : Carries patch (f, old) (f, old) := by
  simp [Carries, h]

/-- A field carries what is read of the value that the overlay has for it, if its own value is read back as
it was. -/
theorem carries_of_read (write : α → Value) (hread : read ((value? patch f).getD old) = .ok a)
    (hreads : ∀ v a, read v = .ok a → Field.Reads f v (write a)) (hback : read old = .ok a → write a = old) :
    Carries patch (f, old) (f, write a) := by
  cases hv : value? patch f with
  | none =>
    rw [hv, Option.getD_none] at hread
    rw [hback hread]
    exact carries_of_value?_eq_none hv
  | some v =>
    rw [hv, Option.getD_some] at hread
    simp only [Carries, hv, true_and]
    exact hreads v a hread

/-- A text is read back as it was. -/
theorem carries_text {t u : Text} (hf : f ∈ [Field.text, Field.title, Field.flag])
    (hread : readText ((value? patch f).getD (.text t)) = .ok u) :
    Carries patch (f, .text t) (f, .text u) := by
  refine carries_of_read .text hread (fun v t => .text hf) fun hback => ?_
  rw [(readText_text_eq_ok.1 hback).1]

/-- So is a number. -/
theorem carries_number {x y : Finite64} (hf : f ∈ [Field.min, Field.max, Field.value])
    (hread : readNumber ((value? patch f).getD (.float (.finite x))) = .ok y) :
    Carries patch (f, .float (.finite x)) (f, .float (.finite y)) := by
  refine carries_of_read (fun z => .float (.finite z)) hread (fun v z => .number hf) fun hback => ?_
  cases hback
  rfl

section Overlay

variable (hapart : (fields.map Prod.fst).Pairwise FieldName.Apart)
include hapart

theorem find?_overlay (hf : (f, old) ∈ fields) : f.find? (spellFields .name (overlay fields patch))
    = some (f.spelled .name, (value? patch f).getD old) :=
  find?_spellFields (by rw [map_fst_overlay]; exact hapart) (mem_overlay hf)

/-- What a field reads from the record with the values put in. -/
theorem read_of_required (hf : (f, old) ∈ fields)
    (h : f.required read (spellFields .name (overlay fields patch)) = .ok a) :
    read ((value? patch f).getD old) = .ok a := (FieldName.required_eq_ok (find?_overlay hapart hf)).1 h

theorem read_of_optional {default : α} (hf : (f, old) ∈ fields)
    (h : f.optional default read (spellFields .name (overlay fields patch)) = .ok a) :
    read ((value? patch f).getD old) = .ok a := (FieldName.optional_eq_ok (find?_overlay hapart hf)).1 h

end Overlay

/-- A patch that goes through names neither the id nor the variant. -/
theorem value?_eq_none_of_takes {names : List FieldName} (hapart : names.Pairwise FieldName.Apart)
    (hkeys : ∀ field ∈ patch, Takes names field.1) (hf : f ∈ names)
    (hreadOnly : f = Field.id ∨ f = Field.type) : value? patch f = none := by
  rw [value?_eq_none_iff]
  intro field hfield
  obtain ⟨g, hg, hnamed, hid, htype⟩ := hkeys field hfield
  by_contra hf'
  obtain rfl := FieldName.eq_of_isNamed hapart hf hg (Bool.not_eq_false _ ▸ hf') hnamed
  rcases hreadOnly with rfl | rfl
  · exact hid rfl
  · exact htype rfl

end Patch

/-! ### What a record holds after a patch -/

theorem Schema.eq_of_readLogic {logic logic' : Option Text}
    (h : readLogic (.textOrNull logic) = .ok logic') : logic' = logic := by
  cases logic with
  | none =>
    cases h
    rfl
  | some t =>
    obtain ⟨u, hu, rfl⟩ := Checked.map_eq_ok.1 h
    rw [(readText_text_eq_ok.1 hu).1]

theorem Schema.eq_of_readTexts {ts us : List Text} (h : readTexts (.array (ts.map .text)) = .ok us) :
    us = ts := by
  rw [readTexts_map (encodable_of_readTexts_map h)] at h
  exact (Checked.ok.inj h).symm

open Patch

variable {patch : Fields}

/-- The fields of a control carry a patch that has passed. -/
theorem Control.carries_of_readControl {e : Element} {c : Control}
    (h : readControl e.kind (spellFields .name (overlay e.fields patch)) = .ok c) :
    List.Forall₂ (Carries patch) e.control.fields c.fields := by
  have hapart := e.pairwise_apart_fields
  have hown {field : FieldName × Value} (hf : field ∈ e.control.fields) : field ∈ e.fields :=
    List.mem_append_right _ hf
  rw [Element.kind] at h
  generalize hfields : e.fields = fields at h hapart hown
  cases hc : e.control with
  | button =>
    rw [hc] at h
    cases h
    exact .nil
  | toggle flag initially =>
    rw [hc] at h hown
    obtain ⟨withFlag, b, h₁, hb, rfl⟩ := Checked.seq_eq_ok.1 h
    obtain ⟨u, hu, rfl⟩ := Checked.map_eq_ok.1 h₁
    have hflag : Carries patch (Field.flag, .text flag) (Field.flag, .text u) :=
      carries_text (by simp) (read_of_required hapart (hown (by simp [Control.fields])) hu)
    have hinitially : Carries patch (Field.initially, .bool initially) (Field.initially, .bool b) := by
      have hread : readBool ((value? patch Field.initially).getD (.bool initially)) = .ok b :=
        read_of_optional hapart (hown (by simp [Control.fields])) hb
      refine carries_of_read .bool hread (fun v b => .initially) ?_
      rintro ⟨⟩
      rfl
    exact .cons hflag (.cons hinitially .nil)
  | slider flag range =>
    rw [hc] at h hown
    obtain ⟨withFlag, range', h₁, hrange, rfl⟩ := Checked.seq_eq_ok.1 h
    obtain ⟨u, hu, rfl⟩ := Checked.map_eq_ok.1 h₁
    obtain ⟨withValue, decimals, h₂, hdecimals, rfl⟩ := Checked.seq_eq_ok.1 hrange
    obtain ⟨withMax, value, h₃, hvalue, rfl⟩ := Checked.seq_eq_ok.1 h₂
    obtain ⟨withMin, max, h₄, hmax, rfl⟩ := Checked.seq_eq_ok.1 h₃
    obtain ⟨min, hmin, rfl⟩ := Checked.map_eq_ok.1 h₄
    have hflag : Carries patch (Field.flag, .text flag) (Field.flag, .text u) :=
      carries_text (by simp) (read_of_required hapart (hown (by simp [Control.fields])) hu)
    have hmin' : Carries patch (Field.min, .float (.finite range.min)) (Field.min, .float (.finite min)) :=
      carries_number (by simp) (read_of_optional hapart (hown (by simp [Control.fields])) hmin)
    have hmax' : Carries patch (Field.max, .float (.finite range.max)) (Field.max, .float (.finite max)) :=
      carries_number (by simp) (read_of_optional hapart (hown (by simp [Control.fields])) hmax)
    have hvalue' : Carries patch (Field.value, .float (.finite range.value))
        (Field.value, .float (.finite value)) :=
      carries_number (by simp) (read_of_optional hapart (hown (by simp [Control.fields])) hvalue)
    have hdecimals' : Carries patch (Field.decimals, .int range.decimals) (Field.decimals, .int decimals) := by
      have hread : readNat ((value? patch Field.decimals).getD (.int range.decimals)) = .ok decimals :=
        read_of_optional hapart (hown (by simp [Control.fields])) hdecimals
      refine carries_of_read (fun n : ℕ => .int n) hread (fun v n => .decimals) fun hback => ?_
      rw [readNat_natCast] at hback
      rw [Checked.ok.inj hback]
    exact .cons hflag (.cons hmin' (.cons hmax' (.cons hvalue' (.cons hdecimals' .nil))))
  | dropdown flag options =>
    rw [hc] at h hown
    obtain ⟨withFlag, options', h₁, hoptions, rfl⟩ := Checked.seq_eq_ok.1 h
    obtain ⟨u, hu, rfl⟩ := Checked.map_eq_ok.1 h₁
    have hflag : Carries patch (Field.flag, .text flag) (Field.flag, .text u) :=
      carries_text (by simp) (read_of_required hapart (hown (by simp [Control.fields])) hu)
    have hmem : (Field.options, Value.array (options.map .text)) ∈ fields := hown (by simp [Control.fields])
    have hoptions' : Carries patch (Field.options, .array (options.map .text))
        (Field.options, .array (options'.map .text)) := by
      refine carries_of_read (fun ts => .array (ts.map .text)) (read_of_optional hapart hmem hoptions)
        (fun v ts => .options) fun hback => ?_
      rw [Schema.eq_of_readTexts hback]
    exact .cons hflag (.cons hoptions' .nil)

/-- **An element carries a patch that has passed.** -/
theorem Element.carries_of_patch {e e' : Element} (h : e.patch patch = .ok e') :
    List.Forall₂ (Carries patch) e.fields e'.fields := by
  have hapart := e.pairwise_apart_fields
  obtain ⟨hid, hkind⟩ := of_patch h
  obtain ⟨hkeys, hread⟩ := (apply_eq_ok_iff hapart).1 h
  obtain ⟨withType, e'', h₁, he, rfl⟩ := Checked.seq_eq_ok.1 hread
  obtain ⟨type, -, rfl⟩ := Checked.map_eq_ok.1 h₁
  obtain ⟨withLogic, control, h₂, hcontrol, rfl⟩ := Checked.seq_eq_ok.1 he
  obtain ⟨withText, logic, h₃, hlogic, rfl⟩ := Checked.seq_eq_ok.1 h₂
  obtain ⟨withId, text, h₄, htext, rfl⟩ := Checked.seq_eq_ok.1 h₃
  obtain ⟨id, -, rfl⟩ := Checked.map_eq_ok.1 h₄
  have htype : value? patch Field.type = none :=
    value?_eq_none_of_takes hapart hkeys (by simp [fields]) (.inr rfl)
  have hid' : value? patch Field.id = none :=
    value?_eq_none_of_takes hapart hkeys (by simp [fields]) (.inl rfl)
  have htext' : Carries patch (Field.text, .text e.text) (Field.text, .text text) :=
    carries_text (by simp) (read_of_optional hapart (by simp [fields]) htext)
  have hlogic' : Carries patch (Field.logic, .textOrNull e.logic) (Field.logic, .textOrNull logic) := by
    have hmem : (Field.logic, Value.textOrNull e.logic) ∈ e.fields :=
      List.mem_append_left _ (.tail _ (.tail _ (.tail _ (.head _))))
    refine carries_of_read .textOrNull (read_of_optional hapart hmem hlogic) (fun v t => .logic) fun hback => ?_
    rw [Schema.eq_of_readLogic hback]
  refine .cons ?_ (.cons ?_ (.cons htext' (.cons hlogic' (Control.carries_of_readControl hcontrol))))
  · rw [hkind]
    exact carries_of_value?_eq_none htype
  · rw [show id = e.id from hid]
    exact carries_of_value?_eq_none hid'

/-- So does a folder. -/
theorem Folder.carries_of_patch {f f' : Folder} (h : f.patch patch = .ok f') :
    List.Forall₂ (Carries patch) (f.fields .name) (f'.fields .name) := by
  have hapart := f.pairwise_apart_fields .name
  obtain ⟨hkeys, hread⟩ := (apply_eq_ok_iff hapart).1 h
  obtain ⟨hid, -⟩ := of_patch h
  obtain ⟨withText, elements, h₁, helements, rfl⟩ := Checked.seq_eq_ok.1 hread
  obtain ⟨withId, text, h₂, htext, rfl⟩ := Checked.seq_eq_ok.1 h₁
  obtain ⟨id, -, rfl⟩ := Checked.map_eq_ok.1 h₂
  have hid' : value? patch Field.id = none :=
    value?_eq_none_of_takes hapart hkeys (by simp [fields]) (.inl rfl)
  have htext' : Carries patch (Field.text, .text f.text) (Field.text, .text text) :=
    carries_text (by simp) (read_of_optional hapart (by simp [fields]) htext)
  have helements' : Carries patch (Field.elements, .array (f.elements.map (Element.toValue .name)))
      (Field.elements, .array (elements.map (Element.toValue .name))) := by
    have hread := read_of_optional hapart (f.elements_mem_fields .name) helements
    refine carries_of_read (fun es => .array (es.map (Element.toValue .name))) hread (fun v es => .elements)
      fun hback => ?_
    rw [eq_of_readArray_map (fun e e' => Element.eq_of_recheck) hback]
  refine .cons ?_ (.cons htext' (.cons helements' .nil))
  rw [show id = f.id from hid]
  exact carries_of_value?_eq_none hid'

/-- And a window. -/
theorem Window.carries_of_patch {w w' : Window} (h : w.patch patch = .ok w') :
    List.Forall₂ (Carries patch) (w.fields .name) (w'.fields .name) := by
  have hapart := w.pairwise_apart_fields .name
  obtain ⟨hkeys, hread⟩ := (apply_eq_ok_iff hapart).1 h
  obtain ⟨withTitle, folders, h₁, hfolders, rfl⟩ := Checked.seq_eq_ok.1 hread
  obtain ⟨title, htitle, rfl⟩ := Checked.map_eq_ok.1 h₁
  have htitle' : Carries patch (Field.title, .text w.title) (Field.title, .text title) :=
    carries_text (by simp) (read_of_optional hapart (by simp [fields]) htitle)
  have hfolders' : Carries patch (Field.folders, .array (w.folders.map (Folder.toValue .name)))
      (Field.folders, .array (folders.map (Folder.toValue .name))) := by
    have hread := read_of_optional hapart (w.folders_mem_fields .name) hfolders
    refine carries_of_read (fun fs => .array (fs.map (Folder.toValue .name))) hread (fun v fs => .folders)
      fun hback => ?_
    rw [eq_of_readArray_map (fun g g' => Folder.eq_of_recheck) hback]
  exact .cons htitle' (.cons hfolders' .nil)

end GuiBuilder
