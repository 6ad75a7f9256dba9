import GuiBuilder.Proofs.Session.OnePlace

/-!
# Selecting an element

Selecting an element keeps its id and that of its folder, and each edit looks up again what has them. The two
go through the window in the same order and agree on the first element with the id (`Window.FirstAt`), whatever
ids the window repeats.

The one id on which they do not agree is the empty one. It is an id like any other where an element is to be
selected, but where the selected element is looked up, an id that is empty counts as none. Selecting such an
element succeeds, and then its folder is what is edited, and deleted.
-/

namespace GuiBuilder

namespace Window

variable {w new : Window} {f : Folder} {e : Element} {id : Text} {selection : Selection}

/-- An element in a folder of the window, with no element of its id before it in document order. -/
def FirstAt (w : Window) (f : Folder) (e : Element) : Prop :=
  ∃ before after es es', w.folders = before ++ f :: after ∧ f.elements = es ++ e :: es' ∧
    (∀ g ∈ before, ∀ x ∈ g.elements, x.id ≠ e.id) ∧ ∀ x ∈ es, x.id ≠ e.id

/-- A window that has lost the elements of an id, and nothing else. -/
structure Loses (w : Window) (id : Text) (new : Window) : Prop where
  title_eq : new.title = w.title
  /-- Folder by folder, the elements of other ids are left. -/
  folders : List.Forall₂ (fun f g => g = { f with elements := f.elements.filter fun e => decide (e.id ≠ id) })
    w.folders new.folders

theorem loses_removeElement (w : Window) (id : Text) : w.Loses id (w.removeElement id) :=
  ⟨rfl, List.forall₂_map_right_iff.2 (List.forall₂_same.2 fun _ _ => rfl)⟩

/-- No folder goes with the elements. -/
theorem Loses.length_eq (h : w.Loses id new) : new.folders.length = w.folders.length :=
  h.folders.length_eq.symm

theorem FirstAt.folderOfElement? (h : w.FirstAt f e) : w.folderOfElement? e.id = some f := by
  obtain ⟨before, after, es, es', hw, hf, hbefore, -⟩ := h
  rw [Window.folderOfElement?, List.find?_eq_some_iff_append]
  refine ⟨?_, before, after, hw, fun g hg => ?_⟩
  · simp [hf]
  · simpa using hbefore g hg

theorem FirstAt.element? (h : w.FirstAt f e) : w.element? e.id = some e := by
  obtain ⟨before, after, es, es', hw, hf, hbefore, hes⟩ := h
  rw [Window.element?, List.find?_eq_some_iff_append]
  refine ⟨by simp, before.flatMap Folder.elements ++ es, es' ++ after.flatMap Folder.elements, ?_, ?_⟩
  · simp [elements, hw, hf]
  · intro x hx
    rcases List.mem_append.1 hx with hx | hx
    · obtain ⟨g, hg, hxg⟩ := List.mem_flatMap.1 hx
      simpa using hbefore g hg x hxg
    · simpa using hes x hx

/-- A folder that is found for an id has the first element of that id. -/
theorem exists_firstAt (h : w.folderOfElement? id = some f) : ∃ e, w.FirstAt f e ∧ e.id = id := by
  rw [Window.folderOfElement?, List.find?_eq_some_iff_append] at h
  obtain ⟨hany, before, after, hw, hbefore⟩ := h
  obtain ⟨e, he⟩ : ∃ e, f.elements.find? (fun e => decide (e.id = id)) = some e := by
    rw [← Option.isSome_iff_exists, List.find?_isSome]
    simpa using hany
  obtain ⟨hid, es, es', hf, hes⟩ := List.find?_eq_some_iff_append.1 he
  obtain rfl : e.id = id := by simpa using hid
  refine ⟨e, ⟨before, after, es, es', hw, hf, fun g hg => ?_, fun x hx => ?_⟩, rfl⟩
  · simpa using hbefore g hg
  · simpa using hes x hx

theorem folderOfElement?_eq_none_iff : w.folderOfElement? id = none ↔ ∀ e ∈ w.elements, e.id ≠ id := by
  simp only [folderOfElement?, elements, List.find?_eq_none, List.mem_flatMap, List.any_eq_true,
    decide_eq_true_eq]
  constructor
  · rintro h e ⟨f, hf, he⟩ hid
    exact h f hf ⟨e, he, hid⟩
  · rintro h f hf ⟨e, he, hid⟩
    exact h e ⟨f, hf, he⟩ hid

theorem FirstAt.mem (h : w.FirstAt f e) : e ∈ w.elements :=
  List.mem_of_find?_eq_some h.element?

theorem FirstAt.exists_folder? (h : w.FirstAt f e) : ∃ g, w.folder? f.id = some g := by
  rw [← Option.isSome_iff_exists, folder?, List.find?_isSome]
  exact ⟨f, List.mem_of_find?_eq_some h.folderOfElement?, by simp⟩

/-! ### What a selection of an element selects -/

/-- An id that is not empty selects the element that is found. -/
theorem selected_of_element (hid : id ≠ []) (hmarked : selection.element = some id)
    (he : w.element? id = some e) : w.selected selection = .element e := by
  have hgiven : (some id).filter (fun id : Text => !id.isEmpty) = some id := by
    simpa [Option.filter_some] using hid
  simp only [selected, hmarked, hgiven, Option.bind_some, he]

/-- The empty one leaves the folder selected, if its own id is not empty. -/
theorem selected_folder_of_empty {g : Folder} (hmarked : selection.element = some [])
    (hfolder : selection.folder = .text id) (hid : id ≠ []) (hg : w.folder? id = some g) :
    w.selected selection = .folder g := by
  have hgiven : (some id).filter (fun id : Text => !id.isEmpty) = some id := by
    simpa [Option.filter_some] using hid
  have hnone : (some []).filter (fun id : Text => !id.isEmpty) = none := rfl
  simp only [selected, hmarked, hfolder, Value.text?, hgiven, hnone, Option.bind_some, Option.bind_none, hg]

theorem selected_window_of_empty (hmarked : selection.element = some []) (hfolder : selection.folder = .text []) :
    w.selected selection = .window w := by
  have hnone : (some []).filter (fun id : Text => !id.isEmpty) = none := rfl
  simp only [selected, hmarked, hfolder, Value.text?, hnone, Option.bind_none]

end Window

namespace Session

variable {s : Session} {file : File} {w : Window} {f : Folder} {e : Element}

/-- The session in which an element and its folder are selected. -/
def marked (s : Session) (f : Folder) (e : Element) : Session :=
  { s with selection := { s.selection with folder := .text f.id, element := some e.id } }

theorem selectElement_of_firstAt (hfile : s.activeFile? = some file) (hw : file.content = .window w)
    (h : w.FirstAt f e) : s.selectElement (.text e.id) = (s.marked f e).answer true := by
  rw [selectElement, withWindow_of_activeFile? hfile hw]
  simp only [Value.text?, Option.bind_some, h.folderOfElement?, Option.map_some]
  rfl

theorem selectElement_of_notMem {id : Value} (hfile : s.activeFile? = some file)
    (hw : file.content = .window w) (h : ∀ e ∈ w.elements, id ≠ .text e.id) :
    s.selectElement id = s.answer false := by
  rw [selectElement, withWindow_of_activeFile? hfile hw]
  cases id with
  | text t =>
    have hnone : w.folderOfElement? t = none := by
      rw [Window.folderOfElement?_eq_none_iff]
      intro e he hid
      exact h e he (congrArg Value.text hid.symm)
    simp only [Value.text?, Option.bind_some, hnone, Option.map_none]
  | _ => simp only [Value.text?, Option.bind_none]

theorem deleteSelected_of_element (hfile : s.activeFile? = some file) (hw : file.content = .window w)
    (hstalls : s.history.stalls = false) (hselected : w.selected s.selection = .element e) :
    s.deleteSelected = ((s.withWindowPushed file.id (w.removeElement e.id)).markElement none).answer true := by
  rw [deleteSelected_eq hfile hw, hselected, delete, replaceWindow_andThen hstalls]

/-- **Selecting an element selects what is edited, unless its id is empty.** Begin a session on any file, with
a capacity that is no bound, and carry out any commands. Where a tab is open, and there is one if each id that
is drawn differs from that of the first file and from those drawn before, the active file holds a window.

Selecting an element by its id succeeds exactly if the window has an element of that id, and otherwise changes
nothing. What it changes is the selection: to the first element of that id in document order, and to the folder
that it is in. If the id is not empty, that element is what is reported as selected, and what is deleted next:
with all elements of its id, but with no folder.

If the id is empty, the first folder with the id of its folder is what is selected, or the window, if that id
is empty too. -/
theorem selectElement_selects_unless_empty {given : Option File} {capacity : Value} {ids : IdSupply}
    {preferences : Preferences} {first : Session} (hbegin : begin given capacity ids preferences = .ok first)
    (hcapacity : ∀ k, first.history.capacity ≠ .bound k) (commands : List Command) :
    let s := first.after commands
    (s.files ≠ [] → ∃ w, s.activeWindow? = some w) ∧
    ((first.files.map File.id ++ first.ids.drawnUntil s.ids).Nodup → s.files ≠ []) ∧
    ∀ (w : Window) (id : Value), s.activeWindow? = some w →
      let o := s.selectElement id
      (o.result = .ok true ∨ o.result = .ok false ∧ o.session = s) ∧
      (o.result = .ok true ↔ ∃ e ∈ w.elements, id = .text e.id) ∧
      (o.result = .ok true → ∃ f e, w.FirstAt f e ∧ id = .text e.id ∧ o.session = s.marked f e ∧
        (e.id ≠ [] → o.session.selected.result = .ok (some (.element e)) ∧
          o.session.deleteSelected.result = .ok true ∧
          ∃ new, o.session.deleteSelected.session.activeWindow? = some new ∧ w.Loses e.id new ∧
            new.folders.length = w.folders.length) ∧
        (e.id = [] → f.id ≠ [] → ∃ g, w.folder? f.id = some g ∧
          o.session.selected.result = .ok (some (.folder g))) ∧
        (e.id = [] → f.id = [] → o.session.selected.result = .ok (some (.window w)))) := by
  intro s
  have hstalls : s.history.stalls = false := stalls_after hcapacity commands
  refine ⟨exists_activeWindow?_after hbegin commands,
    fun hfresh => ((allProper_of_begin hbegin).after commands hfresh).files.ne_nil, fun w id hactive => ?_⟩
  obtain ⟨file, hfile, hw⟩ := exists_of_activeWindow? hactive
  by_cases hid : ∃ e ∈ w.elements, id = .text e.id
  · obtain ⟨x, hx, rfl⟩ := hid
    obtain ⟨f, hf⟩ : ∃ f, w.folderOfElement? x.id = some f := by
      rw [← Option.ne_none_iff_exists']
      exact fun hnone => Window.folderOfElement?_eq_none_iff.1 hnone x hx rfl
    obtain ⟨e, hfirst, hxe⟩ := Window.exists_firstAt hf
    rw [← hxe, selectElement_of_firstAt hfile hw hfirst]
    have hfile' : (s.marked f e).activeFile? = some file := hfile
    have hstalls' : (s.marked f e).history.stalls = false := hstalls
    refine ⟨.inl rfl, iff_of_true rfl ⟨e, hfirst.mem, rfl⟩, fun _ => ⟨f, e, hfirst, rfl, rfl, ?_, ?_, ?_⟩⟩
    · intro hne
      have hselected : w.selected (s.marked f e).selection = .element e :=
        Window.selected_of_element hne rfl hfirst.element?
      have hloses := w.loses_removeElement e.id
      refine ⟨hselected ▸ result_selected hfile' hw, ?_⟩
      have hdelete := deleteSelected_of_element hfile' hw hstalls' hselected
      rw [answer, hdelete]
      exact ⟨rfl, _, activeWindow?_withWindowPushed hfile' _, hloses, hloses.length_eq⟩
    · intro hempty hne
      obtain ⟨g, hg⟩ := hfirst.exists_folder?
      have hselected : w.selected (s.marked f e).selection = .folder g :=
        Window.selected_folder_of_empty (congrArg some hempty) rfl hne hg
      exact ⟨g, hg, hselected ▸ result_selected hfile' hw⟩
    · intro hempty hnil
      have hselected : w.selected (s.marked f e).selection = .window w :=
        Window.selected_window_of_empty (congrArg some hempty) (congrArg Value.text hnil)
      exact hselected ▸ result_selected hfile' hw
  · have hnone : ∀ e ∈ w.elements, id ≠ .text e.id := fun e he heq => hid ⟨e, he, heq⟩
    rw [selectElement_of_notMem hfile hw hnone]
    have hfalse : (s.answer false).result ≠ .ok true := by
      simp [answer]
    exact ⟨.inr ⟨rfl, rfl⟩, iff_of_false hfalse hid, fun htrue => absurd htrue hfalse⟩

/-- A file with one button under an id in two folders, behind a button with an empty id. -/
def blankFile : File :=
  ⟨"f", "blank.lua", .window ⟨"Blank", [⟨"a", "One", [⟨"", "Go", none, .button⟩, ⟨"x", "First", none, .button⟩]⟩,
    ⟨"b", "Two", [⟨"x", "Second", none, .button⟩]⟩]⟩⟩

/-- The first of the two is selected, and both are deleted. -/
theorem selectElement_selects_unless_empty_twice :
    ∃ first, begin (some blankFile) (.int 2) .initial .defaults = .ok first ∧
      (∀ k, first.history.capacity ≠ .bound k) ∧
      ∃ w new, first.activeWindow? = some w ∧
        (first.selectElement (.text "x")).session.selected.result
          = .ok (some (.element ⟨"x", "First", none, .button⟩)) ∧
        (first.selectElement (.text "x")).session.deleteSelected.session.activeWindow? = some new ∧
        w.Loses "x" new := by
  refine ⟨_, rfl, nofun, ?_⟩
  obtain ⟨-, -, hselect⟩ :=
    @selectElement_selects_unless_empty (some blankFile) (.int 2) .initial .defaults _ rfl nofun []
  obtain ⟨-, hiff, hdone⟩ := hselect _ (.text "x") rfl
  have htrue := hiff.2 ⟨⟨"x", "First", none, .button⟩, by decide, rfl⟩
  obtain ⟨f, e, -, hid, -, hselects, -⟩ := hdone htrue
  have hx : e.id = "x" := (Value.text.inj hid).symm
  obtain ⟨-, -, new, hnew, hloses, -⟩ := hselects (by rw [hx]; decide)
  exact ⟨_, new, rfl, rfl, hnew, hx ▸ hloses⟩

/-- The element with the empty id is selected, but its folder is deleted. -/
theorem selectElement_empty_deletes_folder :
    ∃ first, begin (some blankFile) (.int 2) .initial .defaults = .ok first ∧
      first.activeFile? = some blankFile ∧ (first.selectElement (.text "")).result = .ok true ∧
      (first.selectElement (.text "")).session.selected.result = .ok (some (.folder
        ⟨"a", "One", [⟨"", "Go", none, .button⟩, ⟨"x", "First", none, .button⟩]⟩)) ∧
      (first.selectElement (.text "")).session.deleteSelected.result = .ok true ∧
      (first.selectElement (.text "")).session.deleteSelected.session.activeWindow?
        = some ⟨"Blank", [⟨"b", "Two", [⟨"x", "Second", none, .button⟩]⟩]⟩ :=
  ⟨_, rfl, rfl, rfl, rfl, rfl, rfl⟩

end Session

end GuiBuilder
