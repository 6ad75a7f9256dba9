import GuiBuilder.Document
import GuiBuilder.Proofs.Schema.Records
import GuiBuilder.Session.Patch

/-!
# Encodable widget trees

Every text of a checked widget tree is encodable. That is all that checking leaves to be said: a tree
of encodable texts passes the check again when it is given as data, under either names, and comes back
as it was (`Window.ofValue_toValue`). So the windows that pass the check are the encodable ones
(`Window.exists_ofValue_iff`), whatever was given in their place: missing fields, numbers as texts, or
truth values as words.
-/

namespace GuiBuilder

/-! ### Trees of encodable texts -/

/-- All texts of a control are encodable. -/
def Control.Encodable : Control → Prop
  | button => True
  | toggle flag _ | slider flag _ => flag.Encodable
  | dropdown flag options => flag.Encodable ∧ ∀ t ∈ options, t.Encodable

/-- All texts of an element are encodable. -/
structure Element.Encodable (e : Element) : Prop where
  id : e.id.Encodable
  text : e.text.Encodable
  logic : ∀ t ∈ e.logic, t.Encodable
  control : e.control.Encodable

/-- All texts of a folder are encodable. -/
structure Folder.Encodable (f : Folder) : Prop where
  id : f.id.Encodable
  text : f.text.Encodable
  elements : ∀ e ∈ f.elements, e.Encodable

/-- All texts of a window are encodable. -/
structure Window.Encodable (w : Window) : Prop where
  title : w.title.Encodable
  folders : ∀ f ∈ w.folders, f.Encodable

/-! ### What has been checked is encodable -/

theorem Checked.as_eq_ok {α : Type} {schema : Schema} {c : Checked α} {a : α} :
    c.as schema = .ok a ↔ c = .ok a := by
  cases c with
  | ok b => simp [as]
  | rejected problems => simp [as]

namespace FieldName

open Schema

variable {f : FieldName} {fields : Fields} {t : Text}

theorem encodable_of_required (h : f.required readText fields = .ok t) : t.Encodable := by
  obtain ⟨v, hv⟩ := exists_of_required h
  exact encodable_of_readText hv

theorem encodable_of_optional (h : f.optional [] readText fields = .ok t) : t.Encodable :=
  of_optional h Text.encodable_nil fun _ _ _ => encodable_of_readText

end FieldName

namespace Schema

variable {kind : Kind} {fields : Fields}

theorem encodable_of_readControl {c : Control} (h : readControl kind fields = .ok c) : c.Encodable := by
  cases kind with
  | button =>
    cases h
    trivial
  | toggle =>
    obtain ⟨withFlag, initially, h₁, -, rfl⟩ := Checked.seq_eq_ok.1 h
    obtain ⟨flag, hflag, rfl⟩ := Checked.map_eq_ok.1 h₁
    exact FieldName.encodable_of_required hflag
  | slider =>
    obtain ⟨withFlag, range, h₁, -, rfl⟩ := Checked.seq_eq_ok.1 h
    obtain ⟨flag, hflag, rfl⟩ := Checked.map_eq_ok.1 h₁
    exact FieldName.encodable_of_required hflag
  | dropdown =>
    obtain ⟨withFlag, options, h₁, hoptions, rfl⟩ := Checked.seq_eq_ok.1 h
    obtain ⟨flag, hflag, rfl⟩ := Checked.map_eq_ok.1 h₁
    refine ⟨FieldName.encodable_of_required hflag, ?_⟩
    exact FieldName.of_optional (P := fun ts : List Text => ∀ t ∈ ts, t.Encodable) hoptions
      (fun t ht => absurd ht List.not_mem_nil) fun _ _ _ => encodable_of_readTexts

theorem encodable_of_readElement {e : Element} (h : readElement kind fields = .ok e) : e.Encodable := by
  obtain ⟨withLogic, control, h₁, hcontrol, rfl⟩ := Checked.seq_eq_ok.1 h
  obtain ⟨withText, logic, h₂, hlogic, rfl⟩ := Checked.seq_eq_ok.1 h₁
  obtain ⟨withId, text, h₃, htext, rfl⟩ := Checked.seq_eq_ok.1 h₂
  obtain ⟨id, hid, rfl⟩ := Checked.map_eq_ok.1 h₃
  refine ⟨FieldName.encodable_of_required hid, FieldName.encodable_of_optional htext, ?_,
    encodable_of_readControl hcontrol⟩
  exact FieldName.of_optional (P := fun logic : Option Text => ∀ t ∈ logic, t.Encodable) hlogic
    (fun t ht => by cases ht) fun _ _ _ => encodable_of_readLogic

end Schema

open Schema

theorem Element.encodable_of_ofValueOf {kind : Kind} {v : Value} {e : Element}
    (h : ofValueOf kind v = .ok e) : e.Encodable := by
  obtain ⟨fields, -, h⟩ := exists_of_readRecord h
  obtain ⟨withType, e', h₁, he, rfl⟩ := Checked.seq_eq_ok.1 h
  obtain ⟨type, -, rfl⟩ := Checked.map_eq_ok.1 h₁
  exact encodable_of_readElement he

theorem Element.encodable_of_ofValue {v : Value} {e : Element} (h : ofValue v = .ok e) : e.Encodable := by
  cases v with
  | object fields =>
    simp only [ofValue] at h
    split at h
    · cases h
    · split at h
      · exact encodable_of_readElement (Checked.under_eq_ok.1 h)
      · cases h
  | _ => cases h

theorem Folder.encodable_of_ofValue {v : Value} {f : Folder} (h : ofValue v = .ok f) : f.Encodable := by
  obtain ⟨fields, -, h⟩ := exists_of_readRecord h
  obtain ⟨withText, elements, h₁, helements, rfl⟩ := Checked.seq_eq_ok.1 h
  obtain ⟨withId, text, h₂, htext, rfl⟩ := Checked.seq_eq_ok.1 h₁
  obtain ⟨id, hid, rfl⟩ := Checked.map_eq_ok.1 h₂
  refine ⟨FieldName.encodable_of_required hid, FieldName.encodable_of_optional htext, ?_⟩
  refine FieldName.of_optional (P := fun es : List Element => ∀ e ∈ es, e.Encodable) helements
    (fun e he => absurd he List.not_mem_nil) fun field _ es hes e he => ?_
  obtain ⟨items, -, hitems⟩ := exists_of_readArray hes
  obtain ⟨item, -, hitem⟩ := hitems e he
  exact Element.encodable_of_ofValue hitem

/-- **A checked window is encodable.** -/
theorem Window.encodable_of_ofValue {v : Value} {w : Window} (h : ofValue v = .ok w) : w.Encodable := by
  obtain ⟨fields, -, h⟩ := exists_of_readRecord h
  obtain ⟨withTitle, folders, h₁, hfolders, rfl⟩ := Checked.seq_eq_ok.1 h
  obtain ⟨title, htitle, rfl⟩ := Checked.map_eq_ok.1 h₁
  refine ⟨FieldName.encodable_of_optional htitle, ?_⟩
  refine FieldName.of_optional (P := fun fs : List Folder => ∀ f ∈ fs, f.Encodable) hfolders
    (fun f hf => absurd hf List.not_mem_nil) fun field _ fs hfs f hf => ?_
  obtain ⟨items, -, hitems⟩ := exists_of_readArray hfs
  obtain ⟨item, -, hitem⟩ := hitems f hf
  exact Folder.encodable_of_ofValue hitem

/-! ### Encodable trees pass the check -/

section Names

/-- The names of fields that stand in the order of all fields are told apart. -/
theorem pairwise_apart_of_sublist {names : List FieldName} (h : names.Sublist Field.all) :
    names.Pairwise FieldName.Apart := Field.pairwise_apart.sublist h

theorem Element.pairwise_apart_fields (e : Element) : (e.fields.map Prod.fst).Pairwise FieldName.Apart := by
  obtain ⟨id, text, logic, control⟩ := e
  have common : [Field.type, Field.id, Field.text, Field.logic].Sublist (Field.all.take 4) := by decide
  have own : (control.fields.map Prod.fst).Sublist (Field.all.drop 4) := by
    cases control with
    | button => exact List.nil_sublist _
    | toggle flag initially =>
      exact (by decide : [Field.flag, Field.initially].Sublist (Field.all.drop 4))
    | slider flag range =>
      exact (by decide :
        [Field.flag, Field.min, Field.max, Field.value, Field.decimals].Sublist (Field.all.drop 4))
    | dropdown flag options =>
      exact (by decide : [Field.flag, Field.options].Sublist (Field.all.drop 4))
  refine pairwise_apart_of_sublist ?_
  rw [fields, List.map_append, ← List.take_append_drop 4 Field.all]
  exact common.append own

theorem Folder.pairwise_apart_fields (s : Spelling) (f : Folder) :
    ((f.fields s).map Prod.fst).Pairwise FieldName.Apart :=
  pairwise_apart_of_sublist (by decide : [Field.id, Field.text, Field.elements].Sublist Field.all)

theorem Window.pairwise_apart_fields (s : Spelling) (w : Window) :
    ((w.fields s).map Prod.fst).Pairwise FieldName.Apart :=
  pairwise_apart_of_sublist (by decide : [Field.title, Field.folders].Sublist Field.all)

end Names

variable (s : Spelling)

theorem Schema.readLogic_logic : ∀ {logic : Option Text}, (∀ t ∈ logic, t.Encodable) →
    readLogic (match logic with | some t => .text t | none => .null) = .ok logic
  | none, _ => rfl
  | some t, h => by rw [readLogic, readText_text (h t rfl), Checked.map_ok]; exact nofun

section Element

variable {s} {e : Element}

/-- A field of the control of an element is read back from the element. -/
theorem Element.optional_control {α : Type} {f : FieldName} {v : Value} {read : Value → Checked α} {a : α}
    (default : α) (hf : (f, v) ∈ e.control.fields) (hread : read v = .ok a) :
    f.optional default read (spellFields s e.fields) = .ok a :=
  optional_spellFields e.pairwise_apart_fields (List.mem_append_right _ hf) hread

/-- So is its flag, which must be there. -/
theorem Element.required_control {f : FieldName} {t : Text} (hf : (f, .text t) ∈ e.control.fields)
    (ht : t.Encodable) : f.required readText (spellFields s e.fields) = .ok t :=
  required_spellFields e.pairwise_apart_fields (List.mem_append_right _ hf) (readText_text ht)

theorem Schema.readControl_fields (he : e.Encodable) :
    readControl e.kind (spellFields s e.fields) = .ok e.control := by
  obtain ⟨fields, hfields⟩ : ∃ fields, fields = spellFields s e.fields := ⟨_, rfl⟩
  have hcontrol := he.control
  have hrequired {f : FieldName} {t : Text} (hf : (f, .text t) ∈ e.control.fields) (ht : t.Encodable) :
      f.required readText fields = .ok t := hfields ▸ Element.required_control hf ht
  have hoptional {α : Type} {f : FieldName} {read : Value → Checked α} {a default : α} (v : Value)
      (hf : (f, v) ∈ e.control.fields) (hread : read v = .ok a) : f.optional default read fields = .ok a :=
    hfields ▸ Element.optional_control default hf hread
  rw [Element.kind, ← hfields]
  cases hc : e.control with
  | button => rfl
  | toggle flag initially =>
    rw [hc] at hcontrol hrequired hoptional
    have hflag : Field.flag.required readText fields = .ok flag :=
      hrequired (by simp [Control.fields]) hcontrol
    have hinitially : Field.initially.optional false readBool fields = .ok initially :=
      hoptional (.bool initially) (by simp [Control.fields]) rfl
    rw [Control.kind, readControl, hflag, hinitially, Checked.map_ok, Checked.seq_ok]
  | slider flag range =>
    rw [hc] at hcontrol hrequired hoptional
    have hflag : Field.flag.required readText fields = .ok flag :=
      hrequired (by simp [Control.fields]) hcontrol
    have hmin : Field.min.optional defaultMin readNumber fields = .ok range.min :=
      hoptional (.float (.finite range.min)) (by simp [Control.fields]) rfl
    have hmax : Field.max.optional defaultMax readNumber fields = .ok range.max :=
      hoptional (.float (.finite range.max)) (by simp [Control.fields]) rfl
    have hvalue : Field.value.optional defaultValue readNumber fields = .ok range.value :=
      hoptional (.float (.finite range.value)) (by simp [Control.fields]) rfl
    have hdecimals : Field.decimals.optional 0 readNat fields = .ok range.decimals :=
      hoptional (.int range.decimals) (by simp [Control.fields]) (readNat_natCast _)
    rw [Control.kind, readControl, readRange, hflag, hmin, hmax, hvalue, hdecimals]
    rfl
  | dropdown flag options =>
    rw [hc] at hcontrol hrequired hoptional
    have hflag : Field.flag.required readText fields = .ok flag :=
      hrequired (by simp [Control.fields]) hcontrol.1
    have hoptions : Field.options.optional [] readTexts fields = .ok options :=
      hoptional (.array (options.map .text)) (by simp [Control.fields]) (readTexts_map hcontrol.2)
    rw [Control.kind, readControl, hflag, hoptions, Checked.map_ok, Checked.seq_ok]

theorem Schema.readElement_fields (he : e.Encodable) :
    readElement e.kind (spellFields s e.fields) = .ok e := by
  have hapart := e.pairwise_apart_fields
  have hid : Field.id.required readText (spellFields s e.fields) = .ok e.id :=
    required_spellFields hapart (by simp [Element.fields]) (readText_text he.id)
  have htext : Field.text.optional [] readText (spellFields s e.fields) = .ok e.text :=
    optional_spellFields hapart (by simp [Element.fields]) (readText_text he.text)
  have hlogic : Field.logic.optional none readLogic (spellFields s e.fields) = .ok e.logic :=
    optional_spellFields hapart (List.mem_append_left _ (.tail _ (.tail _ (.tail _ (.head _)))))
      (readLogic_logic he.logic)
  rw [readElement, hid, htext, hlogic, readControl_fields he]
  rfl

/-- An element that is given as data is checked as one of its variant. -/
theorem Element.ofValue_toValue_eq (s : Spelling) (e : Element) : ofValue (e.toValue s)
    = (readElement e.kind (spellFields s e.fields)).under (.key (Text.ofString e.kind.name)) := by
  have htype : Fields.get? (Field.type.spelled .name) (spellFields s e.fields)
      = some (.text (Text.ofString e.kind.name)) := by
    have h : (Field.type, Value.text (Text.ofString e.kind.name)) ∈ e.fields := List.mem_cons_self
    have hget := get?_spellFields (s := s) e.pairwise_apart_fields h
    cases s <;> exact hget
  have hkind : (Value.text (Text.ofString e.kind.name)).text?.bind Kind.ofName? = some e.kind :=
    Kind.ofName?_name e.kind
  simp only [toValue, ofValue, htype, hkind]

/-- An element passes the check again, and comes back as it was. -/
theorem Element.ofValue_toValue (he : e.Encodable) : ofValue (e.toValue s) = .ok e := by
  rw [ofValue_toValue_eq, readElement_fields he, Checked.under_ok]

end Element

/-- A folder passes the check again, and comes back as it was. -/
theorem Folder.ofValue_toValue {f : Folder} (hf : f.Encodable) : ofValue (f.toValue s) = .ok f := by
  have hapart := f.pairwise_apart_fields s
  have hid : Field.id.required readText (spellFields s (f.fields s)) = .ok f.id :=
    required_spellFields hapart (by simp [fields]) (readText_text hf.id)
  have htext : Field.text.optional [] readText (spellFields s (f.fields s)) = .ok f.text :=
    optional_spellFields hapart (by simp [fields]) (readText_text hf.text)
  have helements : Field.elements.optional [] (readArray Element.ofValue) (spellFields s (f.fields s))
      = .ok f.elements :=
    optional_spellFields hapart (by simp [fields])
      (readArray_map fun e he => Element.ofValue_toValue (s := s) (hf.elements e he))
  rw [toValue, ofValue, readRecord, hid, htext, helements]
  rfl

/-- **A window passes the check again**, under either names, and comes back as it was. -/
theorem Window.ofValue_toValue {w : Window} (hw : w.Encodable) : ofValue (w.toValue s) = .ok w := by
  have hapart := w.pairwise_apart_fields s
  have htitle : Field.title.optional [] readText (spellFields s (w.fields s)) = .ok w.title :=
    optional_spellFields hapart (by simp [fields]) (readText_text hw.title)
  have hfolders : Field.folders.optional [] (readArray Folder.ofValue) (spellFields s (w.fields s))
      = .ok w.folders :=
    optional_spellFields hapart (by simp [fields])
      (readArray_map fun f hf => Folder.ofValue_toValue s (hw.folders f hf))
  rw [toValue, ofValue, readRecord, htitle, hfolders]
  rfl

/-- The windows that pass the check are the encodable ones. -/
theorem Window.exists_ofValue_iff {w : Window} : (∃ v, ofValue v = .ok w) ↔ w.Encodable :=
  ⟨fun ⟨_, h⟩ => encodable_of_ofValue h, fun hw => ⟨_, ofValue_toValue .name hw⟩⟩

end GuiBuilder
