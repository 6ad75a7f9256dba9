import GuiBuilder.Proofs.Widget.Encodable

/-!
# What a patch leaves alone

A patch puts values into some fields of a record and has the whole record checked again. The fields that it
does not name, and those that no patch changes, are still found with the values that they had
(`Patch.find?_of_apply`). What the check then reads from them is what was there before: a part of a widget
tree that is checked again comes back as it was, whether or not its texts had been checked before, because
one that cannot be encoded would not have passed (`Folder.eq_of_recheck` and its like).

So a patched element keeps its id and its variant, a folder its id, and also its elements where the patch
does not name them; a window keeps its folders in the same way, and a file that is renamed its id and its
window.
-/

namespace GuiBuilder

open Schema

/-! ### Trees that are checked again -/

section Recheck

variable {s : Spelling} {fields : List (FieldName × Value)} {f : FieldName} {t u : Text}

theorem text_of_required (hapart : (fields.map Prod.fst).Pairwise FieldName.Apart)
    (hf : (f, .text t) ∈ fields) (h : f.required readText (spellFields s fields) = .ok u) :
    u = t ∧ t.Encodable := by
  rw [FieldName.required_eq_ok (find?_spellFields hapart hf)] at h
  exact readText_text_eq_ok.1 h

theorem text_of_optional {default : Text} (hapart : (fields.map Prod.fst).Pairwise FieldName.Apart)
    (hf : (f, .text t) ∈ fields) (h : f.optional default readText (spellFields s fields) = .ok u) :
    u = t ∧ t.Encodable := by
  rw [FieldName.optional_eq_ok (find?_spellFields hapart hf)] at h
  exact readText_text_eq_ok.1 h

theorem encodable_of_readTexts_map {ts us : List Text} (h : readTexts (.array (ts.map .text)) = .ok us) :
    ∀ t ∈ ts, t.Encodable := by
  obtain ⟨vs, hvs, hall⟩ := Checked.andThen_eq_ok.1 h
  have hsame : readArray readAnyText (.array (ts.map .text)) = .ok ts := readArray_map fun t _ => rfl
  cases hsame.symm.trans hvs
  split at hall
  · next hencodable => exact hencodable
  · cases hall

theorem Element.encodable_control_of_recheck {e : Element} {c : Control}
    (h : readControl e.kind (spellFields s e.fields) = .ok c) : e.control.Encodable := by
  have hapart := e.pairwise_apart_fields
  have hown {field : FieldName × Value} (hf : field ∈ e.control.fields) : field ∈ e.fields :=
    List.mem_append_right _ hf
  obtain ⟨record, hrecord⟩ : ∃ record, record = spellFields s e.fields := ⟨_, rfl⟩
  have hflag {flag u : Text} (hf : (Field.flag, .text flag) ∈ e.control.fields)
      (hu : Field.flag.required readText record = .ok u) : flag.Encodable := by
    rw [hrecord] at hu
    exact (text_of_required hapart (hown hf) hu).2
  have hoptions {options us : List Text} (hf : (Field.options, .array (options.map .text)) ∈ e.control.fields)
      (hus : Field.options.optional [] readTexts record = .ok us) : ∀ t ∈ options, t.Encodable := by
    rw [hrecord, FieldName.optional_eq_ok (find?_spellFields hapart (hown hf))] at hus
    exact encodable_of_readTexts_map hus
  rw [← hrecord, Element.kind] at h
  cases hc : e.control with
  | button => trivial
  | toggle flag initially =>
    rw [hc] at h hflag
    obtain ⟨withFlag, _, h₁, -, -⟩ := Checked.seq_eq_ok.1 h
    obtain ⟨u, hu, -⟩ := Checked.map_eq_ok.1 h₁
    exact hflag List.mem_cons_self hu
  | slider flag range =>
    rw [hc] at h hflag
    obtain ⟨withFlag, _, h₁, -, -⟩ := Checked.seq_eq_ok.1 h
    obtain ⟨u, hu, -⟩ := Checked.map_eq_ok.1 h₁
    exact hflag List.mem_cons_self hu
  | dropdown flag options =>
    rw [hc] at h hflag hoptions
    obtain ⟨withFlag, us, h₁, hus, -⟩ := Checked.seq_eq_ok.1 h
    obtain ⟨u, hu, -⟩ := Checked.map_eq_ok.1 h₁
    exact ⟨hflag List.mem_cons_self hu, hoptions (List.mem_cons_of_mem _ List.mem_cons_self) hus⟩

/-- An element that passes the check as data is encodable. -/
theorem Element.encodable_of_recheck {e e' : Element} (h : ofValue (e.toValue s) = .ok e') :
    e.Encodable := by
  rw [ofValue_toValue_eq, Checked.under_eq_ok] at h
  obtain ⟨withLogic, control, h₁, hcontrol, -⟩ := Checked.seq_eq_ok.1 h
  obtain ⟨withText, logic, h₂, hlogic, -⟩ := Checked.seq_eq_ok.1 h₁
  obtain ⟨withId, text, h₃, htext, -⟩ := Checked.seq_eq_ok.1 h₂
  obtain ⟨id, hid, -⟩ := Checked.map_eq_ok.1 h₃
  have hapart := e.pairwise_apart_fields
  refine ⟨(text_of_required hapart (by simp [fields]) hid).2,
    (text_of_optional hapart (by simp [fields]) htext).2, ?_, encodable_control_of_recheck hcontrol⟩
  intro t ht
  have hfield : (Field.logic, Value.text t) ∈ e.fields := by
    rw [Option.mem_def] at ht
    simp [fields, ht]
  rw [FieldName.optional_eq_ok (find?_spellFields hapart hfield)] at hlogic
  obtain ⟨u, hu, -⟩ := Checked.map_eq_ok.1 hlogic
  exact (readText_text_eq_ok.1 hu).2

/-- An element that passes the check as data comes back as it was. -/
theorem Element.eq_of_recheck {e e' : Element} (h : ofValue (e.toValue s) = .ok e') : e' = e := by
  rw [ofValue_toValue (encodable_of_recheck h)] at h
  exact (Checked.ok.inj h).symm

theorem Folder.elements_mem_fields (s : Spelling) (f : Folder) :
    (Field.elements, Value.array (f.elements.map (Element.toValue s))) ∈ f.fields s := by
  simp [fields]

theorem Window.folders_mem_fields (s : Spelling) (w : Window) :
    (Field.folders, Value.array (w.folders.map (Folder.toValue s))) ∈ w.fields s := by
  simp [fields]

/-- So does a folder. -/
theorem Folder.eq_of_recheck {g g' : Folder} (h : ofValue (g.toValue s) = .ok g') : g' = g := by
  obtain ⟨withText, elements, h₁, helements, rfl⟩ := Checked.seq_eq_ok.1 h
  obtain ⟨withId, text, h₂, htext, rfl⟩ := Checked.seq_eq_ok.1 h₁
  obtain ⟨id, hid, rfl⟩ := Checked.map_eq_ok.1 h₂
  have hapart := g.pairwise_apart_fields s
  rw [FieldName.optional_eq_ok (find?_spellFields hapart (g.elements_mem_fields s))] at helements
  have hsame : id = g.id := (text_of_required hapart (by simp [fields]) hid).1
  have hcaption : text = g.text := (text_of_optional hapart (by simp [fields]) htext).1
  rw [eq_of_readArray_map (fun e e' => Element.eq_of_recheck) helements, hsame, hcaption]

/-- So does a window. -/
theorem Window.eq_of_recheck {w w' : Window} (h : ofValue (w.toValue s) = .ok w') : w' = w := by
  obtain ⟨withTitle, folders, h₁, hfolders, rfl⟩ := Checked.seq_eq_ok.1 h
  obtain ⟨title, htitle, rfl⟩ := Checked.map_eq_ok.1 h₁
  have hapart := w.pairwise_apart_fields s
  rw [FieldName.optional_eq_ok (find?_spellFields hapart (w.folders_mem_fields s))] at hfolders
  have hsame : title = w.title := (text_of_optional hapart (by simp [fields]) htitle).1
  rw [eq_of_readArray_map (fun g g' => Folder.eq_of_recheck) hfolders, hsame]

end Recheck

/-! ### Fields that a patch does not touch -/

theorem FieldName.find?_put {f g : FieldName} (h : g.Apart f) (v : Value) (record : Fields) :
    f.find? (Fields.put (g.spelled .name) v record) = f.find? record := by
  unfold find?
  rw [Fields.get?_put, if_neg (h.spelled_ne .name .json), Fields.get?_put, if_neg (h.spelled_ne .name .name)]

namespace Patch

variable {names : List FieldName} {fields : List (FieldName × Value)} {record record' patch : Fields}
  {f : FieldName}

/-- No patch changes the field, or this one does not name it. -/
def Keeps (patch : Fields) (f : FieldName) : Prop :=
  f ∈ readOnlyFields ∨ ∀ field ∈ patch, f.isNamed field.1 = false

theorem of_fieldOf? {key : Text} (h : fieldOf? names key = some f) :
    f ∈ names ∧ f.isNamed key = true := by
  have hnamed := List.find?_some h
  exact ⟨List.mem_of_find?_eq_some h, hnamed⟩

theorem find?_putAll (hapart : names.Pairwise FieldName.Apart) (hf : f ∈ names) (hkeeps : Keeps patch f)
    (h : putAll names record patch = .ok record') : f.find? record' = f.find? record := by
  induction patch generalizing record with
  | nil =>
    cases h
    rfl
  | cons field rest ih =>
    obtain ⟨key, v⟩ := field
    have hrest : Keeps rest f := hkeeps.imp_right fun hall => (List.forall_mem_cons.1 hall).2
    simp only [putAll] at h
    split at h
    · cases h
    · next g hg =>
      split at h
      · cases h
      · next hwritable =>
        obtain ⟨hmem, hnamed⟩ := of_fieldOf? hg
        have hne : g ≠ f := by
          rintro rfl
          rcases hkeeps with hreadOnly | hall
          · exact hwritable hreadOnly
          · rw [(List.forall_mem_cons.1 hall).1] at hnamed
            cases hnamed
        have hgf : g.Apart f := hapart.forall hmem hf hne
        rw [ih hrest h, FieldName.find?_put hgf]

/-- A patch that passes has been checked. -/
theorem exists_of_apply {α : Type} {schema : Schema} {read : Value → Checked α} {a : α}
    (h : apply schema read fields patch = .ok a) :
    ∃ record, putAll (fields.map Prod.fst) (spellFields .name fields) patch = .ok record ∧
      read (.object record) = .ok a := by
  unfold apply at h
  split at h
  · cases h
  · next record hrecord =>
    split at h
    · next b hb =>
      cases h
      exact ⟨record, hrecord, Checked.as_eq_ok.1 hb⟩
    · cases h

/-- **What a patch does not touch is there for the check as it was.** -/
theorem find?_of_apply {α : Type} {schema : Schema} {read : Value → Checked α} {a : α}
    (hapart : (fields.map Prod.fst).Pairwise FieldName.Apart) (h : apply schema read fields patch = .ok a) :
    ∃ record, read (.object record) = .ok a ∧ ∀ f v, (f, v) ∈ fields → Keeps patch f →
      f.find? record = some (f.spelled .name, v) := by
  obtain ⟨record, hput, hread⟩ := exists_of_apply h
  refine ⟨record, hread, fun f v hf hkeeps => ?_⟩
  rw [find?_putAll hapart (List.mem_map_of_mem hf) hkeeps hput, find?_spellFields hapart hf]

end Patch

/-! ### Parts of a tree that a patch leaves as they are -/

variable {patch : Fields}

theorem Patch.keeps_id : Keeps patch Field.id := .inl List.mem_cons_self

theorem Control.kind_of_readControl {kind : Kind} {fields : Fields} {c : Control}
    (h : readControl kind fields = .ok c) : c.kind = kind := by
  cases kind with
  | button =>
    cases h
    rfl
  | toggle | slider | dropdown =>
    obtain ⟨withFlag, _, h₁, -, rfl⟩ := Checked.seq_eq_ok.1 h
    obtain ⟨flag, -, rfl⟩ := Checked.map_eq_ok.1 h₁
    rfl

/-- The id of an element that has been checked as one of a variant, and that variant. -/
theorem Element.of_ofValueOf {kind : Kind} {record : Fields} {key t : Text} {e : Element}
    (hid : Field.id.find? record = some (key, .text t)) (h : ofValueOf kind (.object record) = .ok e) :
    e.id = t ∧ e.kind = kind := by
  obtain ⟨withType, e', h₁, he, rfl⟩ := Checked.seq_eq_ok.1 h
  obtain ⟨type, -, rfl⟩ := Checked.map_eq_ok.1 h₁
  obtain ⟨withLogic, control, h₂, hcontrol, rfl⟩ := Checked.seq_eq_ok.1 he
  obtain ⟨withText, logic, h₃, -, rfl⟩ := Checked.seq_eq_ok.1 h₂
  obtain ⟨withId, text, h₄, -, rfl⟩ := Checked.seq_eq_ok.1 h₃
  obtain ⟨id, hread, rfl⟩ := Checked.map_eq_ok.1 h₄
  rw [FieldName.required_eq_ok hid] at hread
  exact ⟨(readText_text_eq_ok.1 hread).1, Control.kind_of_readControl hcontrol⟩

/-- **A patched element keeps its id and its variant.** -/
theorem Element.of_patch {e e' : Element} (h : e.patch patch = .ok e') : e'.id = e.id ∧ e'.kind = e.kind := by
  obtain ⟨record, hread, hfind⟩ := Patch.find?_of_apply e.pairwise_apart_fields h
  exact of_ofValueOf (hfind Field.id (.text e.id) (by simp [fields]) Patch.keeps_id) hread

/-- **A patched folder keeps its id**, and its elements if the patch does not name them. -/
theorem Folder.of_patch {f f' : Folder} (h : f.patch patch = .ok f') :
    f'.id = f.id ∧
      ((∀ field ∈ patch, Field.elements.isNamed field.1 = false) → f'.elements = f.elements) := by
  obtain ⟨record, hread, hfind⟩ := Patch.find?_of_apply (f.pairwise_apart_fields .name) h
  obtain ⟨withText, elements, h₁, helements, rfl⟩ := Checked.seq_eq_ok.1 hread
  obtain ⟨withId, text, h₂, -, rfl⟩ := Checked.seq_eq_ok.1 h₁
  obtain ⟨id, hid, rfl⟩ := Checked.map_eq_ok.1 h₂
  rw [FieldName.required_eq_ok (hfind Field.id (.text f.id) (by simp [fields]) Patch.keeps_id)] at hid
  refine ⟨(readText_text_eq_ok.1 hid).1, fun hkeeps => ?_⟩
  have hfound := hfind Field.elements _ (f.elements_mem_fields .name) (.inr hkeeps)
  rw [FieldName.optional_eq_ok hfound] at helements
  exact eq_of_readArray_map (fun e e' => Element.eq_of_recheck) helements

/-- **A patched window keeps its folders** if the patch does not name them. -/
theorem Window.of_patch {w w' : Window} (h : w.patch patch = .ok w')
    (hkeeps : ∀ field ∈ patch, Field.folders.isNamed field.1 = false) : w'.folders = w.folders := by
  obtain ⟨record, hread, hfind⟩ := Patch.find?_of_apply (w.pairwise_apart_fields .name) h
  obtain ⟨withTitle, folders, h₁, hfolders, rfl⟩ := Checked.seq_eq_ok.1 hread
  obtain ⟨title, -, rfl⟩ := Checked.map_eq_ok.1 h₁
  have hfound := hfind Field.folders _ (w.folders_mem_fields .name) (.inr hkeeps)
  rw [FieldName.optional_eq_ok hfound] at hfolders
  exact eq_of_readArray_map (fun g g' => Folder.eq_of_recheck) hfolders

theorem File.pairwise_apart_fields (s : Spelling) (f : File) :
    ((f.fields s).map Prod.fst).Pairwise FieldName.Apart :=
  (by decide : [Field.id, Field.name, Field.data, Field.language].Pairwise FieldName.Apart)

/-- **A file that is renamed keeps its id**, and its window if it holds one. -/
theorem File.of_rename {file renamed : File} {t : Text}
    (h : file.patch [(Field.name.spelled .name, .text t)] = .ok renamed) :
    renamed.id = file.id ∧ ∀ w, file.content = .window w → renamed.content = .window w := by
  obtain ⟨record, hread, hfind⟩ := Patch.find?_of_apply (file.pairwise_apart_fields .name) h
  obtain ⟨withData, language, h₁, -, rfl⟩ := Checked.seq_eq_ok.1 hread
  obtain ⟨withName, w', h₂, hw', rfl⟩ := Checked.seq_eq_ok.1 h₁
  obtain ⟨withId, name, h₃, -, rfl⟩ := Checked.seq_eq_ok.1 h₂
  obtain ⟨id, hid, rfl⟩ := Checked.map_eq_ok.1 h₃
  rw [FieldName.required_eq_ok (hfind Field.id (.text file.id) (by simp [fields]) Patch.keeps_id)] at hid
  refine ⟨(readText_text_eq_ok.1 hid).1, fun w hw => ?_⟩
  have hkeeps : Patch.Keeps [(Field.name.spelled .name, .text t)] Field.data :=
    .inr (List.forall_mem_singleton.2 (by decide : Field.data.isNamed (Field.name.spelled .name) = false))
  have hdata : (Field.data, w.toValue .name) ∈ file.fields .name := by simp [fields, hw, Content.toValue]
  rw [FieldName.required_eq_ok (hfind Field.data _ hdata hkeeps)] at hw'
  rw [Window.eq_of_recheck hw']

end GuiBuilder
