import GuiBuilder.Proofs.Session.Contents
import GuiBuilder.Proofs.Session.OneStep

/-!
# Deleting what is selected

Deleting the selected folder is refused where there is only one folder, so that one always remains. But
what is deleted is every folder that has its id, and nothing keeps the folders of a window from sharing
one. Where there are several and all have the id of the selected one (`Window.SelectsAll`), none remains:
the window without folders has been committed already when there is no first folder to select, and the call
ends in a fault. There is no other way for it to fail, or to take the last folder, as long as a tab is
open (`Session.delete_outcome`).
-/

namespace GuiBuilder

namespace Window

variable {w : Window} {selection : Selection} {id : Text}

/-- A folder is selected, there are several, and all of them have its id. -/
def SelectsAll (w : Window) (selection : Selection) : Prop :=
  ∃ f, w.selected selection = .folder f ∧ 1 < w.folders.length ∧ ∀ g ∈ w.folders, g.id = f.id

theorem folders_removeFolder_eq_nil : (w.removeFolder id).folders = [] ↔ ∀ f ∈ w.folders, f.id = id := by
  simp [removeFolder, List.filter_eq_nil_iff]

theorem folders_removeElement_ne_nil (h : w.folders ≠ []) : (w.removeElement id).folders ≠ [] :=
  fun hnil => h (List.map_eq_nil_iff.1 hnil)

/-- If a folder is selected, all are if none is left without those of its id. -/
theorem selectsAll_iff {f : Folder} (h : w.selected selection = .folder f) :
    w.SelectsAll selection ↔ 1 < w.folders.length ∧ (w.removeFolder f.id).folders = [] := by
  rw [folders_removeFolder_eq_nil]
  constructor
  · rintro ⟨f', hf', hall⟩
    cases h.symm.trans hf'
    exact hall
  · exact fun hall => ⟨f, h, hall⟩

/-- If what is selected is no folder, not all folders are. -/
theorem not_selectsAll (h : ∀ f, w.selected selection ≠ .folder f) : ¬ w.SelectsAll selection :=
  fun ⟨f, hf, _⟩ => h f hf

end Window

/-- Files that are changed in place, and keep their id, are found as before. -/
theorem Tabs.file?_change (tabs : Tabs) (id : Text) {f : File → File} (hf : ∀ file, (f file).id = file.id)
    (t : Text) :
    (tabs.change id f).file? t = (tabs.file? t).map fun file => if file.id = id then f file else file := by
  unfold file? change
  rw [List.find?_map]
  congr 2
  funext file
  simp only [Function.comp_apply]
  split
  · rw [hf]
  · rfl

namespace Session

variable {s : Session} {file : File} {w new : Window}

/-! ### The active window after a commit -/

/-- A window that is put into the active file is the active one then. -/
theorem activeWindow?_of_change {t : Session} (hfile : s.activeFile? = some file)
    (hfiles : t.files = Tabs.change s.files file.id fun g => { g with content := .window w })
    (hselection : t.selection.file = s.selection.file) : t.activeWindow? = some w := by
  set put : File → File := fun g => { g with content := .window w } with hput
  have hnamed := Tabs.file?_change s.files file.id (fun _ => rfl : ∀ g, (put g).id = g.id) s.selection.file
  have hhead : (Tabs.change s.files file.id put).head?
      = s.files.head?.map fun g => if g.id = file.id then put g else g := List.head?_map
  have hactive := calc t.activeFile?
    _ = (Tabs.file? (Tabs.change s.files file.id put) s.selection.file).or
          (Tabs.change s.files file.id put).head? := by rw [activeFile?, hfiles, hselection]
    _ = s.activeFile?.map fun g => if g.id = file.id then put g else g := by
      rw [hnamed, hhead, ← Option.map_or, activeFile?]
    _ = some (put file) := by rw [hfile, Option.map_some, if_pos rfl]
  exact activeWindow?_of_activeFile? hactive rfl

/-- The session in which a window has been put into the files of an id. -/
def withWindowPushed (s : Session) (id : Text) (w : Window) : Session :=
  { s with history := s.history.push (Tabs.change s.files id fun file => { file with content := .window w }) }

theorem activeWindow?_withWindowPushed (hfile : s.activeFile? = some file) (w : Window) :
    (s.withWindowPushed file.id w).activeWindow? = some w :=
  activeWindow?_of_change hfile (History.current_push _ _) rfl

theorem replaceWindow_andThen {α : Type} (hstalls : s.history.stalls = false) (id : Text) (w : Window)
    (next : Session → Unit → Outcome α) :
    (s.replaceWindow id w).andThen next = next (s.withWindowPushed id w) () := by
  rw [replaceWindow, replaceContent, commit_andThen, hstalls, if_neg Bool.false_ne_true]
  rfl

/-! ### Deleting -/

theorem deleteSelected_eq (hfile : s.activeFile? = some file) (hw : file.content = .window w) :
    s.deleteSelected = s.delete file w (w.selected s.selection) := by
  unfold deleteSelected withActive
  rw [hfile]
  simp only [hw]

/-- Deleting takes all folders and ends in a fault, where all of them are selected, and only there. -/
theorem delete_outcome (hfile : s.activeFile? = some file) (hw : file.content = .window w)
    (hstalls : s.history.stalls = false) :
    (w.SelectsAll s.selection → s.deleteSelected.result = .error .noFolder ∧
      ∃ new, s.deleteSelected.session.activeWindow? = some new ∧ new.folders = []) ∧
    (¬ w.SelectsAll s.selection → (∃ b, s.deleteSelected.result = .ok b) ∧
      (w.folders ≠ [] → ∃ new, s.deleteSelected.session.activeWindow? = some new ∧ new.folders ≠ [])) := by
  have hactive : s.activeWindow? = some w := activeWindow?_of_activeFile? hfile hw
  have hpushed (new : Window) := activeWindow?_withWindowPushed hfile new
  rw [deleteSelected_eq hfile hw]
  cases hselected : w.selected s.selection with
  | element e =>
    refine ⟨fun h => absurd h (Window.not_selectsAll (by simp [hselected])), fun _ => ?_⟩
    rw [delete, replaceWindow_andThen hstalls]
    exact ⟨⟨true, rfl⟩, fun hne => ⟨_, hpushed _, Window.folders_removeElement_ne_nil hne⟩⟩
  | window w' =>
    refine ⟨fun h => absurd h (Window.not_selectsAll (by simp [hselected])), fun _ => ?_⟩
    exact ⟨⟨false, rfl⟩, fun hne => ⟨w, hactive, hne⟩⟩
  | folder f =>
    rw [Window.selectsAll_iff hselected, delete]
    by_cases hmore : w.folders.length ≤ 1
    · rw [if_pos hmore]
      refine ⟨fun h => absurd h.1 (by omega), fun _ => ?_⟩
      exact ⟨⟨false, rfl⟩, fun hne => ⟨w, hactive, hne⟩⟩
    · rw [if_neg hmore, replaceWindow_andThen hstalls]
      -- the window has been pushed before the first folder that is left is looked for
      cases hleft : (w.removeFolder f.id).folders with
      | nil => exact ⟨fun _ => ⟨rfl, _, hpushed _, hleft⟩, fun h => absurd ⟨by omega, rfl⟩ h⟩
      | cons first rest =>
        refine ⟨fun h => absurd h.2 (List.cons_ne_nil _ _), fun _ => ?_⟩
        exact ⟨⟨true, rfl⟩, fun _ => ⟨_, hpushed _, by simp [hleft]⟩⟩

/-- **Deleting is safe but where all folders are selected.** Begin a session on any file, with a capacity
that is no bound, and carry out any commands, whatever windows they bring in. Where a tab is open, the active
file holds a window. Deleting what is selected answers, and leaves that window with a folder if it had one,
unless a folder is selected, there are several and all have its id. Then it commits the window without any
folder, and ends in a fault. -/
theorem deleteSelected_safe_unless_selectsAll {given : Option File} {capacity : Value} {ids : IdSupply}
    {preferences : Preferences} {first : Session} (hbegin : begin given capacity ids preferences = .ok first)
    (hcapacity : ∀ k, first.history.capacity ≠ .bound k) (commands : List Command) :
    let s := first.after commands
    let o := s.deleteSelected
    (s.files ≠ [] → ∃ w, s.activeWindow? = some w) ∧
    ∀ w, s.activeWindow? = some w →
      (¬ w.SelectsAll s.selection → (∃ b, o.result = .ok b) ∧
        (w.folders ≠ [] → ∃ new, o.session.activeWindow? = some new ∧ new.folders ≠ [])) ∧
      (w.SelectsAll s.selection → o.result = .error .noFolder ∧
        ∃ new, o.session.activeWindow? = some new ∧ new.folders = []) := by
  intro s o
  refine ⟨fun hne => ?_, fun w hactive => ?_⟩
  · obtain ⟨file, hmem, hfile⟩ := exists_activeFile? hne
    obtain ⟨w, hw⟩ := (window_after hbegin commands).files file hmem
    exact ⟨w, activeWindow?_of_activeFile? hfile hw⟩
  · obtain ⟨file, hfile, hw⟩ := exists_of_activeWindow? hactive
    exact (delete_outcome hfile hw (stalls_after hcapacity commands)).symm

/-- Of two folders with two ids, the selected one is deleted. -/
theorem deleteSelected_safe_unless_selectsAll_two :
    ∃ first, begin (some exampleFile) (.int 2) .initial .defaults = .ok first ∧
      (∀ k, first.history.capacity ≠ .bound k) ∧
      ∃ b, (first.after [.addFolder]).deleteSelected.result = .ok b := by
  refine ⟨_, rfl, nofun, ?_⟩
  refine (((@deleteSelected_safe_unless_selectsAll (some exampleFile) (.int 2) .initial .defaults _ rfl nofun
    [.addFolder]).2 _ rfl).1 ?_).1
  rintro ⟨f, hf, -, h⟩
  cases hf
  exact absurd (h ⟨"a", "Main", []⟩ List.mem_cons_self) (by decide)

/-- A file whose window has two folders with one id. -/
def twinsFile : File := ⟨"f", "twins.lua", .window ⟨"Twins", [⟨"a", "One", []⟩, ⟨"a", "Two", []⟩]⟩⟩

/-- Both are deleted when one of them is to be, and the call ends in a fault. -/
theorem deleteSelected_fails_on_twins :
    ∃ first, begin (some twinsFile) (.int 2) .initial .defaults = .ok first ∧
      first.activeFile? = some twinsFile ∧ first.deleteSelected.result = .error .noFolder ∧
      first.deleteSelected.session.activeWindow? = some ⟨"Twins", []⟩ :=
  ⟨_, rfl, rfl, rfl, rfl⟩

end Session

end GuiBuilder
