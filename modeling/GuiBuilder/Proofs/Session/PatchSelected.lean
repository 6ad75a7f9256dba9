import GuiBuilder.Proofs.Session.Deletion
import GuiBuilder.Proofs.Session.OnePlace
import GuiBuilder.Proofs.Widget.Overlay

/-!
# Patching what is selected

A patch of what is selected goes through if each of its keys names a field of the selected record that may be
changed, and the record with the values put in passes the check of its class (`Selected.Accepts`). Then the
active window holds the patched record in the place of the selected one: of the same class, under the same id,
with what the check has read of the given values in the fields that were named, and with all other fields as
they were (`Selected.Patched`).

Otherwise one error is logged and nothing else happens. If some key names no field that may be changed, the
first such key is named in the message.
-/

namespace GuiBuilder

/-! ### Records that are selected -/

namespace Selected

/-- The fields of the record, with their values. -/
def fields : Selected → List (FieldName × Value)
  | element e => e.fields
  | folder f => f.fields .name
  | window w => w.fields .name

/-- The class of the record. -/
def schema : Selected → Schema
  | element e => e.kind.schema
  | folder _ => .folder
  | window _ => .window

/-- The id of the record; a window has none. -/
def id? : Selected → Option Text
  | element e => some e.id
  | folder f => some f.id
  | window _ => none

/-- The elements in the record itself, as a folder has them. -/
def elements : Selected → List Element
  | folder f => f.elements
  | _ => []

/-- The folders in the record itself, as a window has them. -/
def folders : Selected → List Folder
  | window w => w.folders
  | _ => []

/-- Checks data against the class of the record. -/
def check : Selected → Value → Checked Selected
  | element e, v => element <$> Element.ofValueOf e.kind v
  | folder _, v => folder <$> Folder.ofValue v
  | window _, v => window <$> Window.ofValue v

/-- The record of the same class with the same id in a window, in document order. -/
def again? (w : Window) : Selected → Option Selected
  | element e => (w.element? e.id).map element
  | folder f => (w.folder? f.id).map folder
  | window _ => some (window w)

/-- The names of the fields of the record. -/
def names (target : Selected) : List FieldName := target.fields.map Prod.fst

/-- The record as data, with the values of a patch put in. -/
def withValues (target : Selected) (patch : Fields) : Value :=
  .object (spellFields .name (Patch.overlay target.fields patch))

/-- Each key of the patch names a field that may be changed, and the record with the values put in passes its
check. -/
def Accepts (target : Selected) (patch : Fields) : Prop :=
  (∀ field ∈ patch, Patch.Takes target.names field.1) ∧
    ∃ new, target.check (target.withValues patch) = .ok new

/-- What a patch makes of a record. -/
structure Patched (target : Selected) (patch : Fields) (new : Selected) : Prop where
  schema_eq : new.schema = target.schema
  id_eq : new.id? = target.id?
  /-- Field by field, there is what was read of the given value, or what there was before. -/
  carries : List.Forall₂ (Patch.Carries patch) target.fields new.fields
  elements_eq : Patch.value? patch Field.elements = none → new.elements = target.elements
  folders_eq : Patch.value? patch Field.folders = none → new.folders = target.folders

variable {target new : Selected} {patch : Fields}

theorem pairwise_apart_names (target : Selected) : target.names.Pairwise FieldName.Apart := by
  cases target with
  | element e => exact e.pairwise_apart_fields
  | folder f => exact f.pairwise_apart_fields .name
  | window w => exact w.pairwise_apart_fields .name

theorem patched_element {e e' : Element} (h : e.patch patch = .ok e') :
    (element e).Patched patch (element e') := by
  obtain ⟨hid, hkind⟩ := Element.of_patch h
  refine ⟨?_, ?_, Element.carries_of_patch h, fun _ => rfl, fun _ => rfl⟩
  · simp only [schema, hkind]
  · simp only [id?, hid]

theorem patched_folder {f f' : Folder} (h : f.patch patch = .ok f') : (folder f).Patched patch (folder f') := by
  obtain ⟨hid, helements⟩ := Folder.of_patch h
  refine ⟨rfl, ?_, Folder.carries_of_patch h, fun hnone => ?_, fun _ => rfl⟩
  · simp only [id?, hid]
  · exact helements (Patch.value?_eq_none_iff.1 hnone)

theorem patched_window {w w' : Window} (h : w.patch patch = .ok w') : (window w).Patched patch (window w') :=
  ⟨rfl, rfl, Window.carries_of_patch h, fun _ => rfl, fun hnone =>
    Window.of_patch h (Patch.value?_eq_none_iff.1 hnone)⟩

end Selected

/-! ### The patched record in its window -/

/-- Where all items of a key make room for one that has it too, that is the first one of the key. -/
theorem find?_map_key {α β : Type} [DecidableEq β] {key : α → β} {items : List α} {a b : α} {k : β}
    (ha : a ∈ items) (hak : key a = k) (hbk : key b = k) :
    (items.map fun x => if key x = k then b else x).find? (fun x => decide (key x = k)) = some b := by
  obtain ⟨first, hfirst⟩ : ∃ first, items.find? (fun x => decide (key x = k)) = some first := by
    rw [← Option.isSome_iff_exists, List.find?_isSome]
    exact ⟨a, ha, by simp [hak]⟩
  have hkey : key first = k := by simpa using List.find?_some hfirst
  have hsame : ((fun x => decide (key x = k)) ∘ fun x => if key x = k then b else x)
      = fun x => decide (key x = k) := by
    funext x
    by_cases hx : key x = k <;> simp [hx, hbk]
  rw [List.find?_map, hsame, hfirst, Option.map_some, if_pos hkey]

namespace Window

variable {w : Window}

theorem elements_changeElement (w : Window) (id : Text) (change : Element → Element) :
    (w.changeElement id change).elements = w.elements.map fun e => if e.id = id then change e else e := by
  simp [changeElement, elements, List.flatMap_map, List.map_flatMap]

/-- An element that keeps its id is found in the place of the one that it replaces. -/
theorem element?_changeElement {e e' : Element} (he : e ∈ w.elements) (hid : e'.id = e.id) :
    (w.changeElement e.id fun _ => e').element? e.id = some e' := by
  rw [element?, elements_changeElement]
  exact find?_map_key he rfl hid

/-- So is a folder. -/
theorem folder?_changeFolder {f f' : Folder} (hf : f ∈ w.folders) (hid : f'.id = f.id) :
    (w.changeFolder f.id fun _ => f').folder? f.id = some f' := find?_map_key hf rfl hid

end Window

namespace Session

variable {s : Session} {file : File} {w new : Window} {target : Selected} {patch : Fields}

/-- A patch that goes through was accepted, and its window holds the patched record. -/
theorem exists_of_patchSelected {selection : Selection} (htarget : w.selected selection = target)
    (h : patchSelected w patch target = .ok new) :
    ∃ record, target.check (target.withValues patch) = .ok record ∧
      (∀ field ∈ patch, Patch.Takes target.names field.1) ∧ target.Patched patch record ∧
      target.again? new = some record := by
  cases target with
  | element e =>
    obtain ⟨e', he', rfl⟩ := exists_of_map_eq_ok h
    obtain ⟨hkeys, hread⟩ := (Patch.apply_eq_ok_iff e.pairwise_apart_fields).1 he'
    have hfound := Window.element?_changeElement (Window.mem_of_selected_element htarget)
      (Element.of_patch he').1
    refine ⟨.element e', Checked.map_eq_ok.2 ⟨e', hread, rfl⟩, hkeys, Selected.patched_element he', ?_⟩
    rw [Selected.again?, hfound, Option.map_some]
  | folder f =>
    obtain ⟨f', hf', rfl⟩ := exists_of_map_eq_ok h
    obtain ⟨hkeys, hread⟩ := (Patch.apply_eq_ok_iff (f.pairwise_apart_fields .name)).1 hf'
    have hfound := Window.folder?_changeFolder (Window.mem_of_selected_folder htarget) (Folder.of_patch hf').1
    refine ⟨.folder f', Checked.map_eq_ok.2 ⟨f', hread, rfl⟩, hkeys, Selected.patched_folder hf', ?_⟩
    rw [Selected.again?, hfound, Option.map_some]
  | window w' =>
    obtain ⟨hkeys, hread⟩ := (Patch.apply_eq_ok_iff (w'.pairwise_apart_fields .name)).1 h
    exact ⟨.window new, Checked.map_eq_ok.2 ⟨new, hread, rfl⟩, hkeys, Selected.patched_window h, rfl⟩

/-- A patch that is accepted goes through. -/
theorem exists_patchSelected_of_accepts (w : Window) (h : target.Accepts patch) :
    ∃ new, patchSelected w patch target = .ok new := by
  obtain ⟨hkeys, record, hrecord⟩ := h
  cases target with
  | element e =>
    obtain ⟨e', hread, -⟩ := Checked.map_eq_ok.1 hrecord
    have he' : e.patch patch = .ok e' := (Patch.apply_eq_ok_iff e.pairwise_apart_fields).2 ⟨hkeys, hread⟩
    rw [patchSelected, he']
    exact ⟨_, rfl⟩
  | folder f =>
    obtain ⟨f', hread, -⟩ := Checked.map_eq_ok.1 hrecord
    have hf' : f.patch patch = .ok f' := (Patch.apply_eq_ok_iff (f.pairwise_apart_fields .name)).2 ⟨hkeys, hread⟩
    rw [patchSelected, hf']
    exact ⟨_, rfl⟩
  | window w' =>
    obtain ⟨new, hread, -⟩ := Checked.map_eq_ok.1 hrecord
    exact ⟨new, (Patch.apply_eq_ok_iff (w'.pairwise_apart_fields .name)).2 ⟨hkeys, hread⟩⟩

/-- The first key that names no field that may be changed is what a patch is refused for. -/
theorem patchSelected_of_not_takes (w : Window) {before after : Fields} {key : Text} {v : Value}
    (hbefore : ∀ field ∈ before, Patch.Takes target.names field.1) (hkey : ¬ Patch.Takes target.names key) :
    patchSelected w (before ++ (key, v) :: after) target = .error (Patch.refusal target.names key) := by
  have hapart := target.pairwise_apart_names
  cases target with
  | element e =>
    have h : e.patch (before ++ (key, v) :: after) = .error (Patch.refusal (Selected.element e).names key) :=
      Patch.apply_of_not_takes hapart hbefore hkey
    rw [patchSelected, h]
    rfl
  | folder f =>
    have h : f.patch (before ++ (key, v) :: after) = .error (Patch.refusal (Selected.folder f).names key) :=
      Patch.apply_of_not_takes hapart hbefore hkey
    rw [patchSelected, h]
    rfl
  | window w' => exact Patch.apply_of_not_takes hapart hbefore hkey

/-! ### The call -/

theorem updateSelected_of_ok (hfile : s.activeFile? = some file) (hw : file.content = .window w)
    (hstalls : s.history.stalls = false) (h : patchSelected w patch (w.selected s.selection) = .ok new) :
    s.updateSelected patch = (s.withWindowPushed file.id new).answer true := by
  rw [updateSelected, withWindow_of_activeFile? hfile hw]
  simp only [h]
  rw [replaceWindow, replaceContent, commit, hstalls, if_neg Bool.false_ne_true]
  rfl

theorem updateSelected_of_error {e : PatchError} (hfile : s.activeFile? = some file)
    (hw : file.content = .window w) (h : patchSelected w patch (w.selected s.selection) = .error e) :
    s.updateSelected patch = (s.log .error ("Rejected edit on "
      ++ Text.ofString (w.selected s.selection).word ++ ": " ++ e.message)).answer false := by
  rw [updateSelected, withWindow_of_activeFile? hfile hw]
  simp only [h]

theorem message_refusal (names : List FieldName) (key : Text) : (Patch.refusal names key).message
    = if ∃ f ∈ names, f.isNamed key = true then "Property is read-only: " ++ key
      else "Unknown property: " ++ key := by
  unfold Patch.refusal
  split <;> rfl

/-- **Patching what is selected puts in what passes the check, or changes nothing.** Begin a session on any
file, with a capacity that is no bound, and carry out any commands. Where a tab is open, and there is one if
each id that is drawn differs from that of the first file and from those drawn before, the active file holds a
window in which a record is selected: an element, a folder, or the window.

A patch succeeds exactly if each of its keys is a name of a field of the record other than the id and the
variant, and the record with the values put in passes the check of its class. Then the active window holds
what the check has read in the place of the record: of the same class, with the same id, and field by field
with what was read of the last value that was given, or with what there was before if none was given, also the
elements of a folder and the folders of a window.

A patch that fails adds one error to the log and changes neither the history nor the selection nor the window.
The error names the first key that is no such name, if there is one. -/
theorem updateSelected_puts_checked {given : Option File} {capacity : Value} {ids : IdSupply}
    {preferences : Preferences} {first : Session} (hbegin : begin given capacity ids preferences = .ok first)
    (hcapacity : ∀ k, first.history.capacity ≠ .bound k) (commands : List Command) :
    let s := first.after commands
    (s.files ≠ [] → ∃ w, s.activeWindow? = some w) ∧
    ((first.files.map File.id ++ first.ids.drawnUntil s.ids).Nodup → s.files ≠ []) ∧
    ∀ (w : Window) (patch : Fields), s.activeWindow? = some w →
      ∃ target, s.selected.result = .ok (some target) ∧
        let o := s.updateSelected patch
        (o.result = .ok true ↔ target.Accepts patch) ∧
        (target.Accepts patch → ∃ record new, target.check (target.withValues patch) = .ok record ∧
          target.Patched patch record ∧ o.session.activeWindow? = some new ∧
          target.again? new = some record) ∧
        (¬ target.Accepts patch → o.result = .ok false ∧ ∃ reason : Text,
          o.session.console.entries = s.console.entries ++
            [⟨.error, "Rejected edit on " ++ Text.ofString target.word ++ ": " ++ reason⟩] ∧
          (∀ before key v after, patch = before ++ (key, v) :: after →
            (∀ field ∈ before, Patch.Takes target.names field.1) → ¬ Patch.Takes target.names key →
            reason = if ∃ f ∈ target.names, f.isNamed key = true then "Property is read-only: " ++ key
              else "Unknown property: " ++ key) ∧
          o.session.history = s.history ∧ o.session.selection = s.selection ∧
          o.session.activeWindow? = some w) := by
  intro s
  have hstalls : s.history.stalls = false := stalls_after hcapacity commands
  refine ⟨exists_activeWindow?_after hbegin commands,
    fun hfresh => ((allProper_of_begin hbegin).after commands hfresh).files.ne_nil, fun w patch hactive => ?_⟩
  obtain ⟨file, hfile, hw⟩ := exists_of_activeWindow? hactive
  refine ⟨w.selected s.selection, result_selected hfile hw, ?_⟩
  obtain ⟨target, htarget⟩ : ∃ target, w.selected s.selection = target := ⟨_, rfl⟩
  rw [htarget]
  cases hpatch : patchSelected w patch target with
  | ok new =>
    obtain ⟨record, hcheck, hkeys, hpatched, hagain⟩ := exists_of_patchSelected htarget hpatch
    have haccepts : target.Accepts patch := ⟨hkeys, record, hcheck⟩
    have hout := updateSelected_of_ok hfile hw hstalls (htarget.symm ▸ hpatch)
    rw [hout]
    refine ⟨iff_of_true rfl haccepts, fun _ => ?_, fun hnot => absurd haccepts hnot⟩
    exact ⟨record, new, hcheck, hpatched, activeWindow?_withWindowPushed hfile new, hagain⟩
  | error e =>
    have hnot : ¬ target.Accepts patch := by
      intro haccepts
      obtain ⟨new, hnew⟩ := exists_patchSelected_of_accepts w haccepts
      rw [hpatch] at hnew
      cases hnew
    have hout := updateSelected_of_error hfile hw (htarget.symm ▸ hpatch)
    rw [htarget] at hout
    rw [hout]
    refine ⟨iff_of_false (by simp [answer]) hnot, fun haccepts => absurd haccepts hnot, fun _ => ⟨rfl, ?_⟩⟩
    refine ⟨e.message, rfl, ?_, rfl, rfl, hactive⟩
    rintro before key v after rfl hbefore hkey
    rw [patchSelected_of_not_takes w hbefore hkey] at hpatch
    cases hpatch
    exact message_refusal target.names key

/-- A patch that gives the logic of an element twice, by the name of the field and by its other name. -/
def logicPatch : Fields := [("custom_logic", .text "go()"), ("text", .text "Go"), ("customLogic", .text "stop()")]

/-- A patch that would change the id. -/
def idPatch : Fields := [("text", .text "Go"), ("id", .text "x"), ("flags", .null)]

/-- A toggle takes the first and refuses the second. -/
theorem updateSelected_puts_checked_toggle :
    ∃ first, begin (some exampleFile) (.int 3) .initial .defaults = .ok first ∧
      (∀ k, first.history.capacity ≠ .bound k) ∧
      ∃ target record, (first.after [.addElement (.text "Toggle")]).selected.result = .ok (some target) ∧
        target.Patched logicPatch record ∧
        ((first.after [.addElement (.text "Toggle")]).updateSelected logicPatch).result = .ok true ∧
        ((first.after [.addElement (.text "Toggle")]).updateSelected idPatch).result = .ok false := by
  refine ⟨_, rfl, nofun, ?_⟩
  obtain ⟨-, -, hpatch⟩ := @updateSelected_puts_checked (some exampleFile) (.int 3) .initial .defaults _ rfl nofun
    [.addElement (.text "Toggle")]
  obtain ⟨target, htarget, hiff, hdone, -⟩ := hpatch _ logicPatch rfl
  obtain ⟨target', htarget', -, -, hrefused⟩ := hpatch _ idPatch rfl
  have haccepts : target.Accepts logicPatch := by
    cases htarget
    exact ⟨by decide, _, rfl⟩
  have hnot : ¬ target'.Accepts idPatch := by
    intro h
    cases htarget'
    exact absurd h.1 (by decide)
  obtain ⟨record, -, -, hpatched, -⟩ := hdone haccepts
  exact ⟨target, record, htarget, hpatched, hiff.2 haccepts, (hrefused hnot).1⟩

end Session

end GuiBuilder
