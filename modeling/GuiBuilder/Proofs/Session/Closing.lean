import GuiBuilder.Proofs.Session.Restore

/-!
# Closing the active tab

When the tab that the selection names is closed, the last remaining tab is selected. The active tab need not be
that one. Undo and redo bring tabs and take them away without a look at the selection, so it may name a tab that
is not open; the first tab stands in for it then, in every call but this one. When the first tab is closed, the
selection is left as it is: the new first tab is the active one, wherever the last one is, and what is selected
in it are ids of the tab that has gone (`Session.closeFile_selects_last_if_named`).
-/

namespace GuiBuilder

namespace Session

variable {s : Session} {file : File} {w : Window}

/-- The session in which the tabs of an id have been closed. -/
def withoutTab (s : Session) (id : Text) : Session :=
  { s with history := s.history.push (Tabs.without s.files id) }

theorem files_withoutTab (s : Session) (id : Text) : (s.withoutTab id).files = Tabs.without s.files id :=
  History.current_push _ _

/-- What closing an open tab does: the tab is gone, and where the selection names it, the last one that is left
is selected. -/
theorem closeFile_eq (hnodup : (s.files.map File.id).Nodup) (hmore : 2 ≤ s.files.length) (hfile : file ∈ s.files)
    (hstalls : s.history.stalls = false) :
    s.closeFile (.text file.id) =
      if s.selection.file = file.id then
        match (Tabs.without s.files file.id).getLast? with
        | some last => ((s.withoutTab file.id).selectFile (.text last.id)).map fun _ => true
        | none => (s.withoutTab file.id).fault .noFile
      else (s.withoutTab file.id).answer true := by
  have hnamed : s.fileNamed? (.text file.id) = some file := Tabs.file?_of_mem hnodup hfile
  have hone : s.files.length ≠ 1 := by omega
  rw [closeFile, if_neg hone, hnamed]
  dsimp only
  rw [commit_andThen, hstalls, if_neg Bool.false_ne_true]
  rfl

/-- An open file is selected, with the first folder of its window. -/
theorem selectFile_of_mem (hnodup : (s.files.map File.id).Nodup) (hfile : file ∈ s.files)
    (hw : file.content = .window w) :
    s.selectFile (.text file.id)
      = ({ s with selection := ⟨file.id, firstFolder w, none⟩ } : Session).answer true := by
  have hnamed : s.fileNamed? (.text file.id) = some file := Tabs.file?_of_mem hnodup hfile
  simp only [selectFile, hnamed, activate, hw]
  rfl

/-- The tab that the selection names is the active one. -/
theorem activeFile?_of_named (hnodup : (s.files.map File.id).Nodup) (hfile : file ∈ s.files)
    (hselected : s.selection.file = file.id) : s.activeFile? = some file := by
  rw [activeFile?, hselected, Tabs.file?_of_mem hnodup hfile, Option.some_or]

/-- The first tab stands in where the selection names none. -/
theorem activeFile?_of_not_named (h : s.selection.file ∉ s.files.map File.id) :
    s.activeFile? = s.files.head? := by
  have hnone : Tabs.file? s.files s.selection.file = none := by
    rw [Tabs.file?, List.find?_eq_none]
    intro file hfile hid
    exact h (List.mem_map.2 ⟨file, hfile, of_decide_eq_true hid⟩)
  rw [activeFile?, hnone, Option.none_or]

/-- The active tab is the one that the selection names, if it names one. -/
theorem selection_of_activeFile? (h : s.activeFile? = some file)
    (hnamed : s.selection.file ∈ s.files.map File.id) : s.selection.file = file.id := by
  obtain ⟨named, hmem, hid⟩ := List.mem_map.1 hnamed
  obtain ⟨found, hfound⟩ := Tabs.exists_file? hmem
  rw [hid] at hfound
  rw [activeFile?, hfound, Option.some_or] at h
  rw [← Option.some.inj h]
  exact (Tabs.id_of_file? hfound).symm

/-! ### Closing -/

/-- Where the selection names the tab, the last remaining one is selected. -/
theorem closeFile_of_named (hwindows : ∀ file ∈ s.files, ∃ w, file.content = .window w)
    (hnodup : (s.files.map File.id).Nodup) (hmore : 2 ≤ s.files.length) (hstalls : s.history.stalls = false)
    (hfile : file ∈ s.files) (hselected : s.selection.file = file.id) :
    ∃ last w, (s.withoutTab file.id).files.getLast? = some last ∧ last.content = .window w ∧
      s.closeFile (.text file.id)
        = ({ s.withoutTab file.id with selection := ⟨last.id, firstFolder w, none⟩ } : Session).answer true := by
  obtain ⟨before, after, hfiles, hwithout⟩ := Tabs.exists_without hnodup hfile
  have hsub : (Tabs.without s.files file.id).Sublist s.files := List.filter_sublist
  have hne : Tabs.without s.files file.id ≠ [] := by
    rw [hfiles] at hmore
    rw [hwithout, ← List.length_pos_iff]
    simp only [List.length_append, List.length_cons] at hmore ⊢
    omega
  have hlast := List.getLast?_eq_some_getLast hne
  set last := (Tabs.without s.files file.id).getLast hne
  have hmem : last ∈ Tabs.without s.files file.id := List.getLast_mem hne
  obtain ⟨w, hw⟩ := hwindows last (hsub.subset hmem)
  have hleft := files_withoutTab s file.id
  have hselect : (s.withoutTab file.id).selectFile (.text last.id)
      = ({ s.withoutTab file.id with selection := ⟨last.id, firstFolder w, none⟩ } : Session).answer true :=
    selectFile_of_mem (hleft ▸ hnodup.sublist (hsub.map _)) (hleft ▸ hmem) hw
  refine ⟨last, w, hleft ▸ hlast, hw, ?_⟩
  rw [closeFile_eq hnodup hmore hfile hstalls, if_pos hselected, hlast]
  dsimp only
  rw [hselect]
  rfl

/-- Where the selection names no open tab, it is left as it is when the first tab is closed. -/
theorem closeFile_of_not_named (hnodup : (s.files.map File.id).Nodup) (hmore : 2 ≤ s.files.length)
    (hstalls : s.history.stalls = false) (hfirst : s.files.head? = some file)
    (hnamed : s.selection.file ∉ s.files.map File.id) :
    s.files = file :: (s.withoutTab file.id).files ∧
    (s.withoutTab file.id).activeFile? = (s.withoutTab file.id).files.head? ∧
    s.closeFile (.text file.id) = (s.withoutTab file.id).answer true := by
  obtain ⟨rest, hfiles⟩ := List.head?_eq_some_iff.1 hfirst
  have hmem : file ∈ s.files := List.mem_of_head? hfirst
  have hother : s.selection.file ≠ file.id := by
    intro hid
    exact hnamed (hid ▸ List.mem_map_of_mem hmem)
  have hleft : (s.withoutTab file.id).files = rest := by
    have hrest : ∀ g ∈ [] ++ rest, g.id ≠ file.id := key_ne_of_nodup (hfiles ▸ hnodup)
    rw [files_withoutTab, hfiles, Tabs.without]
    exact filter_key_ne hrest
  refine ⟨by rw [hleft, hfiles], activeFile?_of_not_named ?_, ?_⟩
  · rw [hleft]
    intro h
    exact hnamed (by rw [hfiles]; exact List.mem_cons_of_mem _ h)
  · rw [closeFile_eq hnodup hmore hmem hstalls, if_neg hother]

/-- **Closing the active tab selects the last remaining one, if the selection names an open tab.** Begin a session
on any file, with a capacity that is no bound, and carry out any commands, undo and redo among them. Where several
tabs are open then, and no two of them have one id, closing the active one succeeds, and all other tabs stay open.

If the selection names an open tab, which is the active one, the last tab that remains is the active one then, and
the selection names it and the first folder of its window, if there is one, and no element.

Otherwise the active tab is the first one. The next one is the active tab when it has been closed, and the
selection is what it was. -/
theorem closeFile_selects_last_if_named {given : Option File} {capacity : Value} {ids : IdSupply}
    {preferences : Preferences} {first : Session} (hbegin : begin given capacity ids preferences = .ok first)
    (hcapacity : ∀ k, first.history.capacity ≠ .bound k) (commands : List Command) :
    let s := first.after commands
    ∀ file : File, s.activeFile? = some file → (s.files.map File.id).Nodup → 2 ≤ s.files.length →
      let o := s.closeFile (.text file.id)
      o.result = .ok true ∧
      (∃ before after, s.files = before ++ file :: after ∧ o.session.files = before ++ after) ∧
      (s.selection.file ∈ s.files.map File.id →
        ∃ last w, o.session.files.getLast? = some last ∧ last.content = .window w ∧
          o.session.activeFile? = some last ∧ o.session.selection = ⟨last.id, firstFolder w, none⟩) ∧
      (s.selection.file ∉ s.files.map File.id →
        s.files = file :: o.session.files ∧ o.session.activeFile? = o.session.files.head? ∧
        o.session.selection = s.selection) := by
  intro s file hactive hnodup hmore
  have hstalls : s.history.stalls = false := stalls_after hcapacity commands
  have hmem : file ∈ s.files := mem_of_activeFile? hactive
  obtain ⟨before, after, hfiles, hwithout⟩ := Tabs.exists_without hnodup hmem
  have hleft : (s.withoutTab file.id).files = before ++ after := (files_withoutTab s file.id).trans hwithout
  by_cases hnamed : s.selection.file ∈ s.files.map File.id
  · have hwindows := (window_after hbegin commands).files
    obtain ⟨last, w, hlast, hw, hclose⟩ := closeFile_of_named hwindows hnodup hmore hstalls hmem
      (selection_of_activeFile? hactive hnamed)
    rw [hclose]
    refine ⟨rfl, ⟨before, after, hfiles, hleft⟩, fun _ => ⟨last, w, hlast, hw, ?_, rfl⟩, absurd hnamed⟩
    refine activeFile?_of_named ?_ (List.mem_of_getLast? hlast) rfl
    show ((s.withoutTab file.id).files.map File.id).Nodup
    rw [files_withoutTab]
    exact hnodup.sublist (List.filter_sublist.map _)
  · rw [activeFile?_of_not_named hnamed] at hactive
    obtain ⟨hfirst, hnext, hclose⟩ := closeFile_of_not_named hnodup hmore hstalls hactive hnamed
    rw [hclose]
    exact ⟨rfl, ⟨before, after, hfiles, hleft⟩, fun h => absurd h hnamed, fun _ => ⟨hfirst, hnext, rfl⟩⟩

/-- A second tab is opened, and closed again. -/
theorem closeFile_selects_last_if_named_second :
    ∃ first file, begin (some exampleFile) (.int 3) .initial .defaults = .ok first ∧
      (∀ k, first.history.capacity ≠ .bound k) ∧ (first.after [.newFile]).activeFile? = some file ∧
      ((first.after [.newFile]).files.map File.id).Nodup ∧ 2 ≤ (first.after [.newFile]).files.length ∧
      ((first.after [.newFile]).closeFile (.text file.id)).session.activeFile? = some exampleFile ∧
      ((first.after [.newFile]).closeFile (.text file.id)).session.selection = ⟨"f", .text "a", none⟩ := by
  refine ⟨_, _, rfl, nofun, rfl, by decide, by decide, ?_⟩
  obtain ⟨-, -, hnamed, -⟩ := @closeFile_selects_last_if_named (some exampleFile) (.int 3) .initial .defaults _ rfl
    nofun [.newFile] _ rfl (by decide) (by decide)
  obtain ⟨last, w, hlast, hw, hactive, hselection⟩ := hnamed (by decide)
  cases hlast
  cases hw
  exact ⟨hactive, hselection⟩

/-- Three tabs are opened and the last of them is undone, so that the selection names a tab that is not open. -/
def danglingRun : List Command := [.newFile, .newFile, .newFile, .undo]

/-- The first tab is the active one then. When it is closed, the next one is active and not the last one, and the
selection still is that of the tab that is gone. -/
theorem closeFile_leaves_selection :
    ∃ first, begin (some exampleFile) (.int 5) .initial .defaults = .ok first ∧
      (first.after danglingRun).activeFile? = some exampleFile ∧
      (first.after danglingRun).files.map File.id = ["f", "000000001", "000000003"] ∧
      ((first.after danglingRun).closeFile (.text "f")).result = .ok true ∧
      ((first.after danglingRun).closeFile (.text "f")).session.activeFile?.map File.id = some "000000001" ∧
      ((first.after danglingRun).closeFile (.text "f")).session.selection.folder = .text "000000006" :=
  ⟨_, rfl, rfl, rfl, rfl, rfl, rfl⟩

end Session

end GuiBuilder
