import GuiBuilder.Proofs.History.Scripts
import GuiBuilder.Proofs.Session.OneTab

/-!
# Restoring a version

The versions of a file come from the whole line of snapshots. When one of them is restored, that snapshot may go
in the same call: it lies ahead of the pointer and is dropped, or it is the oldest one and has to make room.
What is put back does not depend on it. The push makes the restored tabs the last snapshot of the line, whatever
goes at its two ends, and there the newest version stands for the file (`History.exists_newest`).

The newest version need not be the snapshot that has come in. Where the file holds the same window in the last
snapshot before, there is no change between the two, and the newest version is older than both.
-/

namespace GuiBuilder

/-! ### The newest version -/

namespace History

variable {α : Type} {h : History Tabs} {id : Text}

/-- A push leaves the current moment at the end of the line. -/
theorem getLast?_push (h : History α) (x : α) : (h.push x).moments.getLast? = some (h.push x).present := by
  rw [List.getLast?_eq_getElem?]
  exact List.getElem?_eq_getElem (h.push x).pointer_lt

/-- Nothing can be redone after a push. -/
theorem redo?_push (h : History α) (x : α) : (h.push x).redo? = none := by
  have hpos := h.pushed_length_pos x
  have hlast : ¬ (h.push x).pointer + 1 < (h.push x).moments.length := by
    simp only [push]
    omega
  rw [redo?, dif_neg hlast]

/-- Where the last snapshot holds the file, the newest version has the same content. -/
theorem exists_newest {m : Moment Tabs} {file : File}
    (hwindows : ∀ m ∈ h.moments, ∀ file ∈ m.snapshot, ∃ w, file.content = .window w)
    (hlast : h.moments.getLast? = some m) (hfile : Tabs.file? m.snapshot id = some file) :
    ∃ newest older, h.versions id = newest :: older ∧ file.content.Same newest.file.content := by
  have hchanges : (h.versions id).map Version.occurrence = (Occurrence.changes (h.occurrences id)).reverse :=
    map_occurrence_versions hwindows
  have hoccurrences : ∀ o ∈ h.occurrences id, ∃ w, o.file.content = .window w := by
    intro o ho
    obtain ⟨m, hm, -, hfound⟩ := mem_occurrences.1 ho
    exact hwindows m (List.mem_of_getElem? hm) o.file (Tabs.mem_of_file? hfound)
  have hbound : ∀ o ∈ h.occurrences id, o.ordinal ≤ h.moments.length - 1 := by
    intro o ho
    obtain ⟨m, hm, -⟩ := mem_occurrences.1 ho
    obtain ⟨hlt, -⟩ := List.getElem?_eq_some_iff.1 hm
    omega
  rw [List.getLast?_eq_getElem?] at hlast
  have ho : (⟨h.moments.length - 1, m.tick, file⟩ : Occurrence) ∈ h.occurrences id :=
    mem_occurrences.2 ⟨m, hlast, rfl, hfile⟩
  -- the newest change at or before the last snapshot is the newest of all
  obtain ⟨c, hc, -, hmax, hsame⟩ :=
    Occurrence.exists_change_le (pairwise_occurrences h id) hoccurrences ho
  have horder : (Occurrence.changes (h.occurrences id)).reverse.Pairwise fun o p => p.ordinal < o.ordinal :=
    List.pairwise_reverse.2 ((pairwise_occurrences h id).sublist (Occurrence.changes_sublist _))
  rw [← List.mem_reverse, ← hchanges] at hc
  rw [← hchanges] at horder
  cases hversions : h.versions id with
  | nil =>
    rw [hversions] at hc
    cases hc
  | cons newest older =>
    rw [hversions, List.map_cons] at hc horder
    refine ⟨newest, older, rfl, ?_⟩
    rcases List.mem_cons.1 hc with rfl | hc
    · exact hsame
    · have hlt : c.ordinal < newest.occurrence.ordinal := (List.pairwise_cons.1 horder).1 c hc
      have hnewest : newest.occurrence ∈ Occurrence.changes (h.occurrences id) := by
        rw [← List.mem_reverse, ← hchanges, hversions]
        exact List.mem_cons_self
      have hle := hmax _ hnewest (hbound _ ((Occurrence.changes_sublist _).subset hnewest))
      omega

end History

/-! ### Tabs with a file put back -/

namespace Tabs

variable {tabs tabs' : Tabs} {file : File}

/-- A file takes the place of the tab that has its id, or comes in at the end if none has. -/
inductive PutsBack (file : File) : Tabs → Tabs → Prop where
  | replace {before after : Tabs} {old : File} (hid : old.id = file.id) :
      PutsBack file (before ++ old :: after) (before ++ file :: after)
  | reopen {tabs : Tabs} (hclosed : file.id ∉ tabs.map File.id) : PutsBack file tabs (tabs ++ [file])

theorem PutsBack.mem (h : PutsBack file tabs tabs') : file ∈ tabs' := by
  cases h with
  | replace hid => simp
  | reopen hclosed => simp

/-- No other file comes in. -/
theorem PutsBack.eq_or_mem (h : PutsBack file tabs tabs') {g : File} (hg : g ∈ tabs') : g = file ∨ g ∈ tabs := by
  cases h with
  | @replace before after old hid =>
    rw [List.mem_append, List.mem_cons] at hg
    rw [List.mem_append, List.mem_cons]
    tauto
  | reopen hclosed =>
    rw [List.mem_append, List.mem_singleton] at hg
    exact hg.symm

/-- No two tabs get one id. -/
theorem PutsBack.nodup (h : PutsBack file tabs tabs') (hnodup : (tabs.map File.id).Nodup) :
    (tabs'.map File.id).Nodup := by
  cases h with
  | @replace before after old hid =>
    rw [List.map_append, List.map_cons] at hnodup ⊢
    rwa [← hid]
  | reopen hclosed =>
    rw [List.map_append, List.map_singleton]
    exact List.nodup_append_comm.1 (List.nodup_cons.2 ⟨hclosed, hnodup⟩)

/-- Where no two tabs have one id, each is found. -/
theorem file?_of_mem (hnodup : (tabs.map File.id).Nodup) (hfile : file ∈ tabs) :
    tabs.file? file.id = some file := by
  obtain ⟨before, after, rfl⟩ := List.append_of_mem hfile
  have hne := key_ne_of_nodup hnodup
  rw [file?, List.find?_eq_some_iff_append]
  refine ⟨by simp, before, after, rfl, fun g hg => ?_⟩
  simpa using hne g (List.mem_append_left _ hg)

end Tabs

namespace Session

variable {s : Session} {id : Text} {v : Version} {i : ℕ}

/-- What a session becomes when a version of a file is put back. -/
structure Restored (s : Session) (id : Text) (v : Version) (t : Session) : Prop where
  pushed : t.history = s.history.push t.files
  selection_eq : t.selection = s.selection
  putsBack : Tabs.PutsBack v.file s.files t.files
  nodup : (t.files.map File.id).Nodup
  /-- The tab with the id is the file of the version, and so has its window and its script. -/
  file?_eq : Tabs.file? t.files id = some v.file
  /-- The newest version has the same window, and the same script. -/
  newest : ∃ w w' newest older, v.file.content = .window w ∧ t.versions (.text id) = newest :: older ∧
    newest.file.content = .window w' ∧ w'.Same w ∧ ∀ url, w'.scriptFrom url = w.scriptFrom url
  redo_eq : t.redo.2 = none

/-- The session in which some tabs have been pushed and a message has been logged. -/
def pushedWith (s : Session) (tabs : Tabs) (message : Text) : Session :=
  ({ s with history := s.history.push tabs } : Session).log .success message

theorem exists_putsBack (hnodup : (s.files.map File.id).Nodup) (hstalls : s.history.stalls = false)
    (hv : (s.versions (.text id))[i]? = some v) :
    ∃ tabs, Tabs.PutsBack v.file s.files tabs ∧ s.restoreVersion (.text id) (.int i)
      = (s.pushedWith tabs ("Restored version of " ++ v.file.name)).answer true := by
  have hlt : i < (s.versions (.text id)).length := (List.getElem?_eq_some_iff.1 hv).1
  have hindex : indexIn (s.versions (.text id)).length (.int i) = .ok (some i) := by
    simp [indexIn, hlt]
  simp only [restoreVersion, hindex, hv, commit_andThen, hstalls, if_neg Bool.false_ne_true]
  cases hopen : Tabs.file? s.files v.file.id with
  | none => exact ⟨_, .reopen (Tabs.notMem_ids_of_file?_eq_none hopen), rfl⟩
  | some old =>
    refine ⟨_, ?_, rfl⟩
    obtain ⟨before, after, hfiles, hchange⟩ :=
      Tabs.exists_change hnodup (Tabs.mem_of_file? hopen) fun _ => v.file
    rw [← Tabs.id_of_file? hopen, hchange, hfiles]
    exact .replace (Tabs.id_of_file? hopen)

/-- Putting back the file of a version restores it, as long as nothing but windows occur. -/
theorem restored_pushedWith {tabs : Tabs} (hall : s.AllContents fun content => ∃ w, content = .window w)
    (hnodup : (s.files.map File.id).Nodup) (hv : v ∈ s.versions (.text id))
    (htabs : Tabs.PutsBack v.file s.files tabs) (message : Text) :
    s.Restored id v (s.pushedWith tabs message) := by
  have hfiles : (s.pushedWith tabs message).files = tabs := History.current_push _ _
  have hid : v.file.id = id := (Value.text.inj (eq_text_of_mem_versions hv)).symm
  have hfound : Tabs.file? tabs id = some v.file := by
    rw [← hid]
    exact Tabs.file?_of_mem (htabs.nodup hnodup) htabs.mem
  obtain ⟨m, hm, hfile⟩ := History.exists_moment_of_mem_versions hv
  obtain ⟨w, hw⟩ := hall m hm v.file (Tabs.mem_of_file? hfile)
  have hwindows : ∀ m ∈ (s.history.push tabs).moments, ∀ file ∈ m.snapshot, ∃ w, file.content = .window w := by
    intro m hm file hfile
    rcases History.mem_push hm with hm | rfl
    · exact hall m hm file hfile
    · rcases htabs.eq_or_mem hfile with rfl | hmem
      · exact ⟨w, hw⟩
      · exact hall.files file hmem
  have hcurrent : Tabs.file? (s.history.push tabs).present.snapshot id = some v.file := by
    have hpushed : (s.history.push tabs).present.snapshot = tabs := History.current_push _ _
    rw [hpushed, hfound]
  obtain ⟨newest, older, hversions, hsame⟩ :=
    History.exists_newest hwindows (History.getLast?_push _ _) hcurrent
  obtain ⟨m', hm', hfile'⟩ := History.exists_moment_of_mem_versions (hversions ▸ List.mem_cons_self)
  obtain ⟨w', hw'⟩ := hwindows m' hm' newest.file (Tabs.mem_of_file? hfile')
  rw [hw, hw', Content.same_window] at hsame
  refine ⟨?_, rfl, ?_, ?_, ?_, ?_, ?_⟩
  · rw [hfiles]
    rfl
  · rwa [hfiles]
  · rw [hfiles]
    exact htabs.nodup hnodup
  · rwa [hfiles]
  · exact ⟨w, w', newest, older, hw, hversions, hw', hsame.symm, Window.scriptFrom_eq_of_same hsame.symm⟩
  · have hredo : (s.pushedWith tabs message).history.redo? = none := History.redo?_push _ _
    simp only [redo, hredo]

/-- **Restoring a version puts it back.** Begin a session on any file, with a capacity that is no bound, and carry
out any commands. Where no two open tabs have one id then, restoring the version at an index of those of a file
succeeds exactly if there is one, and otherwise changes neither the history nor the selection.

If it succeeds, one snapshot has been pushed, so that nothing can be redone. In it the file is exactly as it is in
the version: in its tab, or in a new last one when it was closed, with all other tabs as they were. The newest
version of the file then holds the window that has been put back, up to which of the two zeros a number is, and
has its script, or none if that has none. Undo brings back the tabs from before, unless the capacity is one.

All this also where undone edits lie ahead, and where the snapshot that the version was found in goes. -/
theorem restoreVersion_puts_back {given : Option File} {capacity : Value} {ids : IdSupply}
    {preferences : Preferences} {first : Session} (hbegin : begin given capacity ids preferences = .ok first)
    (hcapacity : ∀ k, first.history.capacity ≠ .bound k) (commands : List Command) :
    let s := first.after commands
    ∀ (id : Text) (index : ℤ), (s.files.map File.id).Nodup →
      let o := s.restoreVersion (.text id) (.int index)
      (o.result = .ok true ↔ 0 ≤ index ∧ index < (s.versions (.text id)).length) ∧
      (o.result = .ok true → ∃ v, (s.versions (.text id))[index.toNat]? = some v ∧
        s.Restored id v o.session ∧
        ∀ n pos, first.history.capacity = .count n pos → 2 ≤ n → o.session.undo.2 = some s.files) ∧
      (¬ (0 ≤ index ∧ index < (s.versions (.text id)).length) → o.result = .ok false ∧
        o.session.history = s.history ∧ o.session.selection = s.selection) := by
  intro s id index hnodup
  have hall : s.AllContents fun content => ∃ w, content = .window w := window_after hbegin commands
  have hstalls : s.history.stalls = false := stalls_after hcapacity commands
  by_cases hindex : 0 ≤ index ∧ index < (s.versions (.text id)).length
  · obtain ⟨i, rfl⟩ : ∃ i : ℕ, index = i := ⟨index.toNat, by omega⟩
    obtain ⟨v, hv⟩ : ∃ v, (s.versions (.text id))[i]? = some v :=
      ⟨_, List.getElem?_eq_getElem (by omega)⟩
    obtain ⟨tabs, htabs, hrestore⟩ := exists_putsBack hnodup hstalls hv
    rw [hrestore]
    have hrestored := restored_pushedWith hall hnodup (List.mem_of_getElem? hv) htabs
      ("Restored version of " ++ v.file.name)
    refine ⟨iff_of_true rfl hindex, fun _ => ⟨v, by simpa using hv, hrestored, ?_⟩, fun hnot => absurd hindex hnot⟩
    intro n pos hn htwo
    have hcap : s.history.capacity = .count n pos := by
      show (first.after commands).history.capacity = _
      rw [← afterCalls_map_command, capacity_afterCalls, hn]
    exact (undo_redo_of_push hcap htwo hrestored.pushed).1
  · have hnone : s.restoreVersion (.text id) (.int index) = (s.log .error "Version not found.").answer false := by
      simp only [restoreVersion, indexIn, if_neg hindex]
    rw [hnone]
    have hfalse : ((s.log .error "Version not found.").answer false).result ≠ .ok true := by
      simp [answer]
    exact ⟨iff_of_false hfalse hindex, fun htrue => absurd htrue hfalse, fun _ => ⟨rfl, rfl, rfl⟩⟩

/-- At capacity two, after a folder has been added, the version from before is restored, and its snapshot makes
room. When the folder has been undone, the version with it is restored, and its snapshot is dropped. -/
theorem restoreVersion_puts_back_gone :
    ∃ first, begin (some exampleFile) (.int (2 : ℕ)) .initial .defaults = .ok first ∧
      (∀ k, first.history.capacity ≠ .bound k) ∧
      (∃ v, (first.after [.addFolder]).Restored "f" v
          ((first.after [.addFolder]).restoreVersion (.text "f") (.int 1)).session ∧
        v.file = exampleFile ∧
        ((first.after [.addFolder]).restoreVersion (.text "f") (.int 1)).session.undo.2
          = some (first.after [.addFolder]).files) ∧
      ∃ v, (first.after [.addFolder, .undo]).Restored "f" v
          ((first.after [.addFolder, .undo]).restoreVersion (.text "f") (.int 0)).session ∧
        some v.file = (first.after [.addFolder]).activeFile? := by
  refine ⟨_, rfl, nofun, ?_, ?_⟩
  · obtain ⟨hiff, hdone, -⟩ := @restoreVersion_puts_back (some exampleFile) (.int (2 : ℕ)) .initial .defaults _ rfl
      nofun [.addFolder] "f" 1 (by decide)
    obtain ⟨v, hv, hrestored, hundo⟩ := hdone (hiff.2 (by decide))
    cases hv
    exact ⟨_, hrestored, rfl, hundo 2 (by decide) rfl (by decide)⟩
  · obtain ⟨hiff, hdone, -⟩ := @restoreVersion_puts_back (some exampleFile) (.int (2 : ℕ)) .initial .defaults _ rfl
      nofun [.addFolder, .undo] "f" 0 (by decide)
    obtain ⟨v, hv, hrestored, -⟩ := hdone (hiff.2 (by decide))
    cases hv
    exact ⟨_, hrestored, rfl⟩

end Session

end GuiBuilder
