import GuiBuilder.Session.Edit
import Mathlib.Data.List.Nodup
import Mathlib.Data.List.Basic

/-!
# Windows in which ids tell the parts apart

The edits of a window go by ids: they change or take away every folder, or every element of every folder, that
has the id in question. In a window whose folders have distinct ids, and whose elements have distinct ids
across all folders (`Window.Distinct`), that is one folder or one element. Then an edit can be said with the
window taken apart at the place where it acts, with everything before and after it left as it is
(`Window.removeFolder_at`, `Window.changeElement_at` and their like).
-/

namespace GuiBuilder

/-! ### Items with distinct keys -/

section Keys

variable {α β : Type} {key : α → β} {before after : List α} {a : α}

theorem key_ne_of_nodup (h : ((before ++ a :: after).map key).Nodup) :
    ∀ b ∈ before ++ after, key b ≠ key a := by
  intro b hb heq
  rw [List.map_append, List.map_cons, List.nodup_middle, List.nodup_cons, ← List.map_append] at h
  exact h.1 (List.mem_map.2 ⟨b, hb, heq⟩)

variable [DecidableEq β]

theorem filter_key_ne (h : ∀ b ∈ before ++ after, key b ≠ key a) :
    (before ++ a :: after).filter (fun b => decide (key b ≠ key a)) = before ++ after := by
  have hkept : (before ++ after).filter (fun b => decide (key b ≠ key a)) = before ++ after := by
    refine List.filter_eq_self.2 fun b hb => ?_
    exact decide_eq_true (h b hb)
  rw [List.filter_append, List.filter_cons_of_neg (by simp), ← List.filter_append, hkept]

theorem map_key_eq_self {l : List α} {k : β} (h : ∀ b ∈ l, key b ≠ k) (f : α → α) :
    l.map (fun b => if key b = k then f b else b) = l := by
  calc l.map (fun b => if key b = k then f b else b)
    _ = l.map id := List.map_congr_left fun b hb => if_neg (h b hb)
    _ = l := List.map_id l

theorem map_key_eq (h : ∀ b ∈ before ++ after, key b ≠ key a) (f : α → α) :
    (before ++ a :: after).map (fun b => if key b = key a then f b else b) = before ++ f a :: after := by
  rw [List.forall_mem_append] at h
  rw [List.map_append, List.map_cons, map_key_eq_self h.1, map_key_eq_self h.2, if_pos rfl]

end Keys

/-! ### Distinct windows -/

namespace Window

/-- The ids of the folders. -/
def folderIds (w : Window) : List Text := w.folders.map Folder.id

/-- The ids of the elements of all folders. -/
def elementIds (w : Window) : List Text := w.elements.map Element.id

/-- All ids of folders and elements. -/
def ids (w : Window) : List Text := w.folderIds ++ w.elementIds

/-- No two folders have one id, and no two elements. -/
structure Distinct (w : Window) : Prop where
  folders : w.folderIds.Nodup
  elements : w.elementIds.Nodup

instance (w : Window) : Decidable w.Distinct :=
  decidable_of_iff (w.folderIds.Nodup ∧ w.elementIds.Nodup) ⟨fun h => ⟨h.1, h.2⟩, fun h => ⟨h.1, h.2⟩⟩

/-! ### A window taken apart -/

variable {w : Window} {title id text : Text} {before after : List Folder} {f : Folder}
  {es es' : List Element} {e : Element}

theorem exists_at_folder (h : f ∈ w.folders) : ∃ title before after, w = ⟨title, before ++ f :: after⟩ := by
  obtain ⟨title, folders⟩ := w
  obtain ⟨before, after, rfl⟩ := List.append_of_mem h
  exact ⟨title, before, after, rfl⟩

theorem exists_at_element (h : e ∈ w.elements) :
    ∃ title before id text es es' after, w = ⟨title, before ++ ⟨id, text, es ++ e :: es'⟩ :: after⟩ := by
  obtain ⟨f, hf, he⟩ := List.mem_flatMap.1 h
  obtain ⟨title, before, after, rfl⟩ := exists_at_folder hf
  obtain ⟨id, text, elements⟩ := f
  obtain ⟨es, es', rfl⟩ := List.append_of_mem he
  exact ⟨title, before, id, text, es, es', after, rfl⟩

theorem elements_at : (⟨title, before ++ ⟨id, text, es ++ e :: es'⟩ :: after⟩ : Window).elements
    = (before.flatMap Folder.elements ++ es) ++ e :: (es' ++ after.flatMap Folder.elements) := by
  simp [elements]

theorem Distinct.folder_ne (h : Distinct ⟨title, before ++ f :: after⟩) :
    ∀ g ∈ before ++ after, g.id ≠ f.id := key_ne_of_nodup h.folders

/-- No other element has the id of an element, neither in its folder nor in another one. -/
theorem Distinct.element_ne (h : Distinct ⟨title, before ++ ⟨id, text, es ++ e :: es'⟩ :: after⟩) :
    (∀ x ∈ es ++ es', x.id ≠ e.id) ∧ ∀ g ∈ before ++ after, ∀ x ∈ g.elements, x.id ≠ e.id := by
  have hnodup := h.elements
  rw [elementIds, elements_at] at hnodup
  have hall := key_ne_of_nodup hnodup
  simp only [List.forall_mem_append, List.forall_mem_flatMap] at hall ⊢
  exact ⟨⟨hall.1.2, hall.2.1⟩, hall.1.1, hall.2.2⟩

/-! ### Edits at one place -/

/-- **One folder is taken away.** -/
theorem removeFolder_at (h : Distinct ⟨title, before ++ f :: after⟩) :
    removeFolder ⟨title, before ++ f :: after⟩ f.id = ⟨title, before ++ after⟩ := by
  rw [removeFolder, filter_key_ne h.folder_ne]

/-- **One folder is changed.** -/
theorem changeFolder_at (h : Distinct ⟨title, before ++ f :: after⟩) (change : Folder → Folder) :
    changeFolder ⟨title, before ++ f :: after⟩ f.id change = ⟨title, before ++ change f :: after⟩ := by
  rw [changeFolder, map_key_eq h.folder_ne]

/-- Folders that do not hold an element of some id are left as they are, whatever is done to the elements
of that id. -/
theorem map_folders_eq_self {folders : List Folder} {change : List Element → List Element}
    (h : ∀ g ∈ folders, change g.elements = g.elements) :
    folders.map (fun g => { g with elements := change g.elements }) = folders := by
  calc folders.map (fun g => { g with elements := change g.elements })
    _ = folders.map fun g => g := List.map_congr_left fun g hg => by rw [h g hg]
    _ = folders := List.map_id' folders

/-- **One element is taken away.** -/
theorem removeElement_at (h : Distinct ⟨title, before ++ ⟨id, text, es ++ e :: es'⟩ :: after⟩) :
    removeElement ⟨title, before ++ ⟨id, text, es ++ e :: es'⟩ :: after⟩ e.id
      = ⟨title, before ++ ⟨id, text, es ++ es'⟩ :: after⟩ := by
  obtain ⟨hown, hothers⟩ := h.element_ne
  have hkept : ∀ g ∈ before ++ after, g.elements.filter (fun x => decide (x.id ≠ e.id)) = g.elements := by
    intro g hg
    refine List.filter_eq_self.2 fun x hx => ?_
    exact decide_eq_true (hothers g hg x hx)
  rw [List.forall_mem_append] at hkept
  rw [removeElement, List.map_append, List.map_cons, map_folders_eq_self hkept.1, map_folders_eq_self hkept.2,
    filter_key_ne hown]

/-- **One element is changed.** -/
theorem changeElement_at (h : Distinct ⟨title, before ++ ⟨id, text, es ++ e :: es'⟩ :: after⟩)
    (change : Element → Element) :
    changeElement ⟨title, before ++ ⟨id, text, es ++ e :: es'⟩ :: after⟩ e.id change
      = ⟨title, before ++ ⟨id, text, es ++ change e :: es'⟩ :: after⟩ := by
  obtain ⟨hown, hothers⟩ := h.element_ne
  have hkept : ∀ g ∈ before ++ after,
      g.elements.map (fun x => if x.id = e.id then change x else x) = g.elements :=
    fun g hg => map_key_eq_self (hothers g hg) change
  rw [List.forall_mem_append] at hkept
  rw [changeElement, List.map_append, List.map_cons, map_folders_eq_self hkept.1, map_folders_eq_self hkept.2,
    map_key_eq hown]

/-! ### What is selected -/

variable {selection : Selection}

theorem mem_of_selected_element (h : w.selected selection = .element e) : e ∈ w.elements := by
  unfold selected at h
  dsimp only at h
  split at h
  · next hfound =>
    cases h
    obtain ⟨t, -, ht⟩ := Option.bind_eq_some_iff.1 hfound
    exact List.mem_of_find?_eq_some ht
  · cases h
  · cases h

theorem mem_of_selected_folder (h : w.selected selection = .folder f) : f ∈ w.folders := by
  unfold selected at h
  dsimp only at h
  split at h
  · cases h
  · next hfound =>
    cases h
    obtain ⟨t, -, ht⟩ := Option.bind_eq_some_iff.1 hfound
    exact List.mem_of_find?_eq_some ht
  · cases h

theorem eq_of_selected_window {w' : Window} (h : w.selected selection = .window w') : w' = w := by
  unfold selected at h
  dsimp only at h
  split at h
  · cases h
  · cases h
  · cases h
    rfl

end Window

end GuiBuilder
