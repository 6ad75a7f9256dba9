import GuiBuilder.Proofs.Session.Deletion
import GuiBuilder.Proofs.Session.OpenTabs
import GuiBuilder.Proofs.Widget.Distinct

/-!
# Edits act at one place

The edits of the widget tree go by ids, over whole lists. That each of them acts at one place only
(`OnePlace`) rests on an invariant: in every snapshot, each window has folders with distinct ids and elements
with distinct ids (`Window.Distinct`), and all of these ids are known, because they came in with a window or
have been drawn (`Content.Known`). An edit at one place keeps the ids of a window, takes one of them away, or
brings in the one that it has drawn (`OnePlace.distinct`); so the invariant goes on holding as long as no id
is drawn that was known before (`Session.FreshRun`).

What is selected plays no part in the invariant. A selection that has gone stale names nothing, and what a
selection does name is at one place in a distinct window.
-/

namespace GuiBuilder

/-! ### Commands -/

namespace Command

/-- The commands that edit the widget tree of the active window. -/
def editsWidgets : Command → Bool
  | .addFolder | .addElement _ | .deleteSelected | .updateSelected _ => true
  | _ => false

/-- A window that is brought in has distinct ids, and a patch puts no folders or elements as a whole. -/
def Tidy : Command → Prop
  | .openWindow w _ | .applyWindow _ w => w.Distinct
  | .updateSelected patch =>
    ∀ field ∈ patch, Field.folders.isNamed field.1 = false ∧ Field.elements.isNamed field.1 = false
  | _ => True

/-- The ids of the window that a command brings in. -/
def givenIds (c : Command) : List Text := (Call.command c).windows.flatMap Window.ids

end Command

/-- What an edit that draws some ids makes of a window in which there is a selection. -/
inductive OnePlace (selection : Selection) : Command → List Text → Window → Window → Prop where
  /-- An empty folder comes in at the end. -/
  | addFolder {title id : Text} {folders : List Folder} :
      OnePlace selection .addFolder [id] ⟨title, folders⟩ ⟨title, folders ++ [⟨id, newFolderText, []⟩]⟩
  /-- An element of the given variant comes in at the end of the selected folder. -/
  | addElement {kind : Value} {title id text : Text} {before after : List Folder} {es : List Element}
      {e : Element} (hfolder : selection.folder = .text id) (hkind : Kind.ofValue kind = .ok e.kind) :
      OnePlace selection (.addElement kind) [e.id] ⟨title, before ++ ⟨id, text, es⟩ :: after⟩
        ⟨title, before ++ ⟨id, text, es ++ [e]⟩ :: after⟩
  /-- The selected element is taken away. -/
  | deleteElement {title id text : Text} {before after : List Folder} {es es' : List Element} {e : Element}
      (hselected : Window.selected ⟨title, before ++ ⟨id, text, es ++ e :: es'⟩ :: after⟩ selection
        = .element e) :
      OnePlace selection .deleteSelected [] ⟨title, before ++ ⟨id, text, es ++ e :: es'⟩ :: after⟩
        ⟨title, before ++ ⟨id, text, es ++ es'⟩ :: after⟩
  /-- The selected folder is taken away. -/
  | deleteFolder {title : Text} {before after : List Folder} {f : Folder}
      (hselected : Window.selected ⟨title, before ++ f :: after⟩ selection = .folder f) :
      OnePlace selection .deleteSelected [] ⟨title, before ++ f :: after⟩ ⟨title, before ++ after⟩
  /-- An element with the same id and of the same variant takes the place of the selected one. -/
  | updateElement {patch : Fields} {title id text : Text} {before after : List Folder}
      {es es' : List Element} {e e' : Element}
      (hselected : Window.selected ⟨title, before ++ ⟨id, text, es ++ e :: es'⟩ :: after⟩ selection
        = .element e)
      (hid : e'.id = e.id) (hkind : e'.kind = e.kind) :
      OnePlace selection (.updateSelected patch) []
        ⟨title, before ++ ⟨id, text, es ++ e :: es'⟩ :: after⟩
        ⟨title, before ++ ⟨id, text, es ++ e' :: es'⟩ :: after⟩
  /-- The selected folder takes another text. -/
  | updateFolder {patch : Fields} {title id text text' : Text} {before after : List Folder}
      {es : List Element}
      (hselected : Window.selected ⟨title, before ++ ⟨id, text, es⟩ :: after⟩ selection
        = .folder ⟨id, text, es⟩) :
      OnePlace selection (.updateSelected patch) [] ⟨title, before ++ ⟨id, text, es⟩ :: after⟩
        ⟨title, before ++ ⟨id, text', es⟩ :: after⟩
  /-- Nothing in the window is selected, and it takes another title. -/
  | updateWindow {patch : Fields} {title title' : Text} {folders : List Folder}
      (hselected : Window.selected ⟨title, folders⟩ selection = .window ⟨title, folders⟩) :
      OnePlace selection (.updateSelected patch) [] ⟨title, folders⟩ ⟨title', folders⟩

/-! ### Distinct ids stay distinct -/

namespace Window

variable {v w : Window} {id : Text}

/-- Where no id comes in, ids stay distinct. -/
theorem Distinct.of_sublist (hw : w.Distinct) (hfolders : v.folderIds.Sublist w.folderIds)
    (helements : v.elementIds.Sublist w.elementIds) : v.Distinct ∧ v.ids ⊆ w.ids :=
  ⟨⟨hw.folders.sublist hfolders, hw.elements.sublist helements⟩, (hfolders.append helements).subset⟩

/-- So they do where one comes in that is new, either for a folder or for an element. -/
theorem Distinct.of_perm (hw : w.Distinct) (hid : id ∉ w.ids)
    (h : v.folderIds.Perm (id :: w.folderIds) ∧ v.elementIds = w.elementIds ∨
      v.folderIds = w.folderIds ∧ v.elementIds.Perm (id :: w.elementIds)) :
    v.Distinct ∧ v.ids ⊆ w.ids ++ [id] := by
  have hids : v.ids.Perm (id :: w.ids) := by
    rcases h with ⟨hfolders, helements⟩ | ⟨hfolders, helements⟩
    · rw [ids, helements]
      exact hfolders.append_right _
    · rw [ids, hfolders]
      exact (helements.append_left _).trans List.perm_middle
  rw [ids, List.mem_append, not_or] at hid
  refine ⟨?_, (hids.trans (List.perm_append_singleton _ _).symm).subset⟩
  rcases h with ⟨hfolders, helements⟩ | ⟨hfolders, helements⟩
  · exact ⟨hfolders.nodup_iff.2 (List.nodup_cons.2 ⟨hid.1, hw.folders⟩), helements ▸ hw.elements⟩
  · exact ⟨hfolders ▸ hw.folders, helements.nodup_iff.2 (List.nodup_cons.2 ⟨hid.2, hw.elements⟩)⟩

theorem Distinct.fresh (title id : Text) : (Window.fresh title id).Distinct :=
  ⟨List.nodup_singleton id, List.nodup_nil⟩

end Window

open Window in
/-- **An edit at one place keeps ids distinct**, if those that it draws are new to the window. -/
theorem OnePlace.distinct {selection : Selection} {c : Command} {drawn : List Text} {w new : Window}
    (h : OnePlace selection c drawn w new) (hw : w.Distinct) (hfresh : ∀ id ∈ drawn, id ∉ w.ids) :
    new.Distinct ∧ new.ids ⊆ w.ids ++ drawn := by
  cases h with
  | addFolder =>
    refine hw.of_perm (hfresh _ List.mem_cons_self) (.inl ⟨?_, ?_⟩)
    · rw [folderIds, List.map_append]
      exact List.perm_append_singleton _ _
    · simp [elementIds, elements]
  | @addElement kind title id text before after es e hfolder hkind =>
    refine hw.of_perm (hfresh _ List.mem_cons_self) (.inr ⟨?_, ?_⟩)
    · simp [folderIds]
    · have hrest : elementIds ⟨title, before ++ ⟨id, text, es⟩ :: after⟩
          = (before.flatMap Folder.elements ++ es ++ after.flatMap Folder.elements).map Element.id := by
        simp [elementIds, elements]
      rw [elementIds, elements_at, hrest, ← List.map_cons]
      exact List.perm_middle.map _
  | deleteElement hselected =>
    rw [List.append_nil]
    refine hw.of_sublist ?_ ?_
    · simp [folderIds]
    · simp [elementIds, elements]
  | deleteFolder hselected =>
    rw [List.append_nil]
    refine hw.of_sublist ?_ ?_
    · simp [folderIds]
    · simp [elementIds, elements]
  | updateElement hselected hid hkind =>
    rw [List.append_nil]
    refine hw.of_sublist ?_ ?_
    · simp [folderIds]
    · simp [elementIds, elements, hid]
  | updateFolder hselected =>
    rw [List.append_nil]
    refine hw.of_sublist ?_ ?_
    · simp [folderIds]
    · simp [elementIds, elements]
  | updateWindow hselected =>
    rw [List.append_nil]
    exact hw.of_sublist (List.Sublist.refl _) (List.Sublist.refl _)

/-! ### What is committed -/

/-- A window with distinct ids, all of which are known. -/
def Content.Known (known : List Text) (content : Content) : Prop :=
  ∃ w, content = .window w ∧ w.Distinct ∧ w.ids ⊆ known

theorem Content.Known.mono {known known' : List Text} {content : Content} (h : content.Known known)
    (hsub : known ⊆ known') : content.Known known' := by
  obtain ⟨w, hw, hdistinct, hids⟩ := h
  exact ⟨w, hw, hdistinct, List.Subset.trans hids hsub⟩

theorem Command.ids_subset_known {c : Command} {w : Window} (known drawn : List Text)
    (hw : w ∈ (Call.command c).windows) : w.ids ⊆ known ++ c.givenIds ++ drawn := by
  intro id hid
  refine List.mem_append_left _ (List.mem_append_right _ ?_)
  exact List.mem_flatMap.2 ⟨w, hw, hid⟩

theorem Value.eq_text {v : Value} {t : Text} (h : v.text? = some t) : v = .text t := by
  cases v <;> cases h
  rfl

namespace Session

variable {s t : Session} {c : Command} {id : Text} {content : Content} {ids : IdSupply} {w : Window}

/-- A patch acts on what is selected, and on nothing else. -/
theorem onePlace_of_patchSelected {selection : Selection} {patch : Fields} {new : Window} (hw : w.Distinct)
    (htidy : (Command.updateSelected patch).Tidy)
    (hnew : patchSelected w patch (w.selected selection) = .ok new) :
    OnePlace selection (.updateSelected patch) [] w new := by
  cases hselected : w.selected selection with
  | element e =>
    rw [hselected] at hnew
    obtain ⟨e', he', rfl⟩ := exists_of_map_eq_ok hnew
    obtain ⟨title, before, id, text, es, es', after, rfl⟩ :=
      Window.exists_at_element (Window.mem_of_selected_element hselected)
    obtain ⟨hid, hkind⟩ := Element.of_patch he'
    rw [Window.changeElement_at hw]
    exact .updateElement hselected hid hkind
  | folder f =>
    rw [hselected] at hnew
    obtain ⟨f', hf', rfl⟩ := exists_of_map_eq_ok hnew
    obtain ⟨title, before, after, rfl⟩ := Window.exists_at_folder (Window.mem_of_selected_folder hselected)
    obtain ⟨hid, helements⟩ := Folder.of_patch hf'
    rw [Window.changeFolder_at hw]
    -- nothing but the text of the folder can have changed
    have hf : f' = ⟨f.id, f'.text, f.elements⟩ := by
      rw [← hid, ← helements fun field hfield => (htidy field hfield).2]
    rw [hf]
    exact .updateFolder hselected
  | window w' =>
    obtain rfl := Window.eq_of_selected_window hselected
    rw [hselected] at hnew
    have hfolders : new.folders = w'.folders :=
      Window.of_patch hnew fun field hfield => (htidy field hfield).1
    obtain ⟨title, folders⟩ := w'
    obtain ⟨title', folders'⟩ := new
    cases hfolders
    exact .updateWindow hselected

/-- **An edit of the widget tree puts in a window that differs at one place**, where ids are distinct. -/
theorem onePlace_of_puts (hput : s.Puts (.command c) id content ids) (hc : c.editsWidgets = true)
    (htidy : c.Tidy) (hdistinct : ∀ w, s.activeWindow? = some w → w.Distinct) :
    ∃ file w new, s.activeFile? = some file ∧ file.content = .window w ∧ id = file.id ∧
      content = .window new ∧ OnePlace s.selection c (s.ids.drawnUntil ids) w new := by
  have hone : s.ids.drawnUntil (s.ids.skip 1) = [s.ids.next] := IdSupply.drawnUntil_skip 1
  have hnone : s.ids.drawnUntil s.ids = [] := IdSupply.drawnUntil_skip 0
  have hactive {file : File} {w : Window} (hfile : s.activeFile? = some file)
      (hw : file.content = .window w) : w.Distinct := hdistinct w (activeWindow?_of_activeFile? hfile hw)
  cases hput with
  | @addFolder file w folder hfile hw hmade =>
    refine ⟨file, w, _, hfile, hw, rfl, rfl, ?_⟩
    rw [hone, (Folder.of_make hmade).1]
    exact .addFolder
  | @addElement file w kind k folder e hfile hw hfolder hkind hmade =>
    refine ⟨file, w, _, hfile, hw, rfl, rfl, ?_⟩
    obtain ⟨hid, rfl⟩ := Element.of_make hmade
    obtain ⟨htext, hsome⟩ := Option.filter_eq_some_iff.1 hfolder
    obtain ⟨f, hf⟩ := Option.isSome_iff_exists.1 hsome
    obtain rfl : f.id = folder := by simpa using List.find?_some hf
    obtain ⟨title, before, after, rfl⟩ := Window.exists_at_folder (List.mem_of_find?_eq_some hf)
    rw [hone, ← hid, Window.changeFolder_at (hactive hfile hw)]
    exact .addElement (Value.eq_text htext) hkind
  | @deleteElement file w e hfile hw hselected =>
    refine ⟨file, w, _, hfile, hw, rfl, rfl, ?_⟩
    obtain ⟨title, before, id, text, es, es', after, rfl⟩ :=
      Window.exists_at_element (Window.mem_of_selected_element hselected)
    rw [hnone, Window.removeElement_at (hactive hfile hw)]
    exact .deleteElement hselected
  | @deleteFolder file w f hfile hw hselected hmore =>
    refine ⟨file, w, _, hfile, hw, rfl, rfl, ?_⟩
    obtain ⟨title, before, after, rfl⟩ := Window.exists_at_folder (Window.mem_of_selected_folder hselected)
    rw [hnone, Window.removeFolder_at (hactive hfile hw)]
    exact .deleteFolder hselected
  | @updateSelected file w new patch hfile hw hnew =>
    refine ⟨file, w, new, hfile, hw, rfl, rfl, ?_⟩
    rw [hnone]
    exact onePlace_of_patchSelected (hactive hfile hw) htidy hnew
  | applyWindow hfile => cases hc

/-! ### Known ids -/

variable {known : List Text}

/-- All windows of a session have distinct ids, all of which are known. -/
def AllKnown (known : List Text) (s : Session) : Prop := s.AllContents (Content.Known known)

theorem AllKnown.activeWindow (hall : s.AllKnown known) (h : s.activeWindow? = some w) :
    w.Distinct ∧ w.ids ⊆ known := by
  obtain ⟨file, hfile, hw⟩ := exists_of_activeWindow? h
  obtain ⟨w', hw', hknown⟩ := hall.files file (mem_of_activeFile? hfile)
  cases hw.symm.trans hw'
  exact hknown

theorem AllKnown.put (hall : s.AllKnown known) (htidy : c.Tidy)
    (hfresh : (s.ids.drawnUntil ids).Disjoint known) (hput : s.Puts (.command c) id content ids) :
    content.Known (known ++ c.givenIds ++ s.ids.drawnUntil ids) := by
  cases hc : c.editsWidgets with
  | true =>
    obtain ⟨file, w, new, hfile, hw, -, rfl, hplace⟩ :=
      onePlace_of_puts hput hc htidy fun w hw => (hall.activeWindow hw).1
    obtain ⟨hdistinct, hids⟩ := hall.activeWindow (activeWindow?_of_activeFile? hfile hw)
    obtain ⟨hnew, hsub⟩ := hplace.distinct hdistinct fun i hi hmem => hfresh hi (hids hmem)
    refine ⟨new, rfl, hnew, fun i hi => ?_⟩
    rcases List.mem_append.1 (hsub hi) with hold | hdrawn
    · exact List.mem_append_left _ (List.mem_append_left _ (hids hold))
    · exact List.mem_append_right _ hdrawn
  | false =>
    cases hput with
    | applyWindow hfile => exact ⟨_, rfl, htidy, Command.ids_subset_known _ _ List.mem_cons_self⟩
    | _ => cases hc

theorem AllKnown.allows (hall : s.AllKnown known) (htidy : c.Tidy)
    (hfresh : (s.ids.drawnUntil ids).Disjoint known) :
    Allows (Content.Known (known ++ c.givenIds ++ s.ids.drawnUntil ids)) s (.command c) ids where
  put id content hput := hall.put htidy hfresh hput
  checked v arrival w h _ := by
    obtain ⟨w', hw', -⟩ := h
    cases hw'
  fresh title hids _ := by
    refine ⟨_, rfl, .fresh title _, ?_⟩
    have hdrawn : s.ids.drawnUntil ids = [s.ids.next, s.ids.rest.next] := by
      rw [hids, IdSupply.drawnUntil_skip]
      rfl
    rw [hdrawn]
    refine List.cons_subset.2 ⟨List.mem_append_right _ ?_, List.nil_subset _⟩
    exact List.mem_cons_of_mem _ List.mem_cons_self
  opened w name h := by
    cases h
    exact ⟨w, rfl, htidy, Command.ids_subset_known _ _ List.mem_cons_self⟩

/-- What is known after a command: what was known before, the ids that came in with a window, and those
that have been drawn. -/
def knownAfter (s : Session) (known : List Text) (c : Command) : List Text :=
  known ++ c.givenIds ++ s.ids.drawnUntil (s.run c).session.ids

/-- No command of a run draws an id that was known before. -/
def FreshRun : (known : List Text) → Session → List Command → Prop
  | _, _, [] => True
  | known, s, c :: commands =>
    (s.ids.drawnUntil (s.run c).session.ids).Disjoint known ∧
      FreshRun (s.knownAfter known c) (s.run c).session commands

theorem AllKnown.run (hall : s.AllKnown known) (htidy : c.Tidy)
    (hfresh : (s.ids.drawnUntil (s.run c).session.ids).Disjoint known) :
    (s.run c).session.AllKnown (s.knownAfter known c) := by
  have hsub : known ⊆ s.knownAfter known c :=
    fun i hi => List.mem_append_left _ (List.mem_append_left _ hi)
  have hall' : s.AllContents (Content.Known (s.knownAfter known c)) :=
    AllContents.imp hall fun content hcontent => hcontent.mono hsub
  exact AllContents.call (c := .command c) hall' (hall.allows htidy hfresh)

/-- **In every snapshot, ids stay distinct and known**, along a run that draws fresh ids. -/
theorem AllKnown.after {commands : List Command} (hall : s.AllKnown known)
    (htidy : ∀ c ∈ commands, c.Tidy) (hfresh : FreshRun known s commands) :
    ∃ known', (s.after commands).AllKnown known' := by
  induction commands generalizing s known with
  | nil => exact ⟨known, hall⟩
  | cons c commands ih =>
    rw [List.forall_mem_cons] at htidy
    exact ih (hall.run htidy.1 hfresh.1) htidy.2 hfresh.2

/-! ### Edits that succeed -/

/-- After an outcome, the active file is still the one that it is in a session. -/
def Stays {α : Type} (s : Session) (o : Outcome α) : Prop := o.session.selection.file = s.selection.file

section Stays

variable {α : Type}

theorem selection_replaceWindow (s : Session) (id : Text) (w : Window) :
    (s.replaceWindow id w).session.selection = s.selection := by
  unfold replaceWindow replaceContent commit
  split <;> rfl

theorem stays_replaceWindow {next : Session → Unit → Outcome α} (id : Text) (w : Window)
    (hnext : ∀ u : Session, u.Stays (next u ())) : s.Stays ((s.replaceWindow id w).andThen next) := by
  refine Outcome.session_andThen_induction (P := fun u => u.selection.file = s.selection.file) ?_ ?_
  · rw [selection_replaceWindow]
  · exact fun u _ hu => (hnext u).trans hu

theorem stays_addFolder (s : Session) : s.Stays s.addFolder := by
  unfold addFolder
  split
  · rfl
  · refine withWindow_induction rfl rfl fun file w _ _ => ?_
    exact stays_replaceWindow (s := s.drawId) _ _ fun u => rfl

theorem stays_addElement (s : Session) (kind : Value) : s.Stays (s.addElement kind) := by
  refine withWindow_induction rfl rfl fun file w _ _ => ?_
  split
  · rfl
  · split
    · rfl
    · rfl
    · split
      · rfl
      · exact stays_replaceWindow (s := s.drawId) _ _ fun u => rfl

theorem stays_delete (s : Session) (file : File) (w : Window) (target : Selected) :
    s.Stays (s.delete file w target) := by
  cases target with
  | element e => exact stays_replaceWindow _ _ fun u => rfl
  | folder f =>
    rw [delete]
    split
    · rfl
    · refine stays_replaceWindow _ _ fun u => ?_
      split <;> rfl
  | window w => rfl

theorem stays_deleteSelected (s : Session) : s.Stays s.deleteSelected := by
  refine withActive_induction rfl fun file _ => ?_
  split
  · exact s.stays_delete file _ _
  · split <;> rfl

theorem stays_updateSelected (s : Session) (patch : Fields) : s.Stays (s.updateSelected patch) := by
  refine withWindow_induction rfl rfl fun file w _ _ => ?_
  dsimp only
  split
  · rw [Stays, Outcome.session_map, selection_replaceWindow]
  · rfl

end Stays

/-- An edit of the widget tree leaves the active file the one that it is. -/
theorem stays_run (hc : c.editsWidgets = true) : s.Stays (s.run c) := by
  cases c with
  | addFolder => exact s.stays_addFolder
  | addElement kind => exact s.stays_addElement kind
  | deleteSelected => exact s.stays_deleteSelected
  | updateSelected patch => exact s.stays_updateSelected patch
  | _ => cases hc

/-- What an edit of the widget tree commits is that it puts a content into some files. -/
theorem exists_puts_of_commits {tabs : Tabs} (h : s.Commits (.command c) tabs ids)
    (hc : c.editsWidgets = true) : ∃ id content, s.Puts (.command c) id content ids ∧
      tabs = Tabs.change s.files id fun file => { file with content := content } := by
  cases h with
  | put hput => exact ⟨_, _, hput, rfl⟩
  | _ => cases hc

/-- What is selected is what the selection selects in the active window. -/
theorem result_selected {file : File} (hfile : s.activeFile? = some file) (hw : file.content = .window w) :
    s.selected.result = .ok (some (w.selected s.selection)) := by
  unfold selected withActive
  rw [hfile]
  simp only [hw]
  rfl

theorem Command.isEdit_of_editsWidgets (hc : c.editsWidgets = true) : (Call.command c).isEdit = true := by
  cases c <;> first | rfl | cases hc

/-- **Edits act at one place.** Begin a session on a file whose window has distinct folder ids and distinct
element ids, or on none, with any capacity, and carry out commands that bring in only such windows, patch no
folders or elements as a whole, and draw no id that was drawn before or came in with a window before. Then
every window of every snapshot has distinct folder ids and distinct element ids. Where a further edit of the
widget tree reports success, the active file holds another window afterwards, and all other files are as they
were. The two windows differ at one place: an empty folder has come in at the end, or an element of the given
variant at the end of the selected folder; what was reported as selected is gone; or an element with the same
id and of the same variant, a folder with the same id and elements, or the title is in its place. -/
theorem edits_act_at_one_place {given : Option File} {capacity : Value} {supply : IdSupply}
    {preferences : Preferences} {first : Session}
    (hbegin : begin given capacity supply preferences = .ok first)
    (hgiven : ∀ file ∈ given, ∀ w, file.content = .window w → w.Distinct) {commands : List Command}
    (htidy : ∀ c ∈ commands, c.Tidy)
    (hfresh : FreshRun ((first.files.filterMap File.window?).flatMap Window.ids) first commands) :
    let s := first.after commands
    (∀ tabs ∈ s.history.snapshots, ∀ file ∈ tabs, ∃ w, file.content = .window w ∧ w.Distinct) ∧
    ∀ (c : Command) (t : Session) (reply : Reply), c.editsWidgets = true → c.Tidy →
      s.run c = ⟨t, .ok reply⟩ → reply.isSuccess = true →
      ∃ file w new, s.activeFile? = some file ∧ file.content = .window w ∧
        s.selected.result = .ok (some (w.selected s.selection)) ∧
        OnePlace s.selection c (s.ids.drawnUntil t.ids) w new ∧ t.activeWindow? = some new ∧
        t.files = Tabs.change s.files file.id fun f => { f with content := .window new } := by
  intro s
  obtain ⟨file, n, w, hcontent, hfile, hhistory, -⟩ := exists_fresh_of_begin hbegin
  have hfirst : first.AllKnown ((first.files.filterMap File.window?).flatMap Window.ids) := by
    have hfiles : first.files = [file] := by
      rw [files, hhistory]
      rfl
    have hdistinct : w.Distinct := by
      rcases hfile with rfl | ⟨-, title, id, rfl⟩
      · exact hgiven file rfl w hcontent
      · exact .fresh title id
    refine allContents_start hhistory ⟨w, hcontent, hdistinct, ?_⟩
    rw [hfiles]
    simp [File.window?, hcontent, Content.window?]
  obtain ⟨known, hall⟩ := hfirst.after htidy hfresh
  refine ⟨fun tabs htabs file hmem => ?_, fun c t reply hc hctidy hrun hsuccess => ?_⟩
  · obtain ⟨m, hm, rfl⟩ := List.mem_map.1 htabs
    obtain ⟨w, hw, hdistinct, -⟩ := hall m hm file hmem
    exact ⟨w, hw, hdistinct⟩
  · have hcommits : s.Commits (.command c) t.files t.ids :=
      commits_of_call s (Command.isEdit_of_editsWidgets hc) hrun hsuccess
    have hselection : t.selection.file = s.selection.file := by
      have h := stays_run (s := s) hc
      rwa [hrun] at h
    obtain ⟨id, content, hput, hfiles⟩ := exists_puts_of_commits hcommits hc
    obtain ⟨file, w, new, hactive, hw, rfl, rfl, hplace⟩ :=
      onePlace_of_puts hput hc hctidy fun w hw => (hall.activeWindow hw).1
    exact ⟨file, w, new, hactive, hw, result_selected hactive hw, hplace,
      activeWindow?_of_change hactive hfiles hselection, hfiles⟩

/-- A folder and an element in it are added, and the element is undone and redone. -/
def togglingRun : List Command := [.addFolder, .addElement (.text "Toggle"), .undo, .redo]

/-- A patch of what is selected. -/
def textPatch : Fields := [("text", .text "Go")]

/-- The element takes another text. -/
theorem edits_act_at_one_place_toggling :
    ∃ first, begin (some exampleFile) (.int 3) .initial .defaults = .ok first ∧
      (∀ file ∈ some exampleFile, ∀ w, file.content = .window w → w.Distinct) ∧
      (∀ c ∈ togglingRun, c.Tidy) ∧
      FreshRun ((first.files.filterMap File.window?).flatMap Window.ids) first togglingRun ∧
      (Command.updateSelected textPatch).Tidy ∧
      ∃ t w new, (first.after togglingRun).run (.updateSelected textPatch) = ⟨t, .ok (.truth true)⟩ ∧
        OnePlace (first.after togglingRun).selection (.updateSelected textPatch) [] w new ∧
        t.activeWindow? = some new := by
  have hgiven : ∀ file ∈ some exampleFile, ∀ w, file.content = .window w → w.Distinct := by
    rintro _ ⟨⟩ _ ⟨⟩
    decide
  have htidy : ∀ c ∈ togglingRun, c.Tidy := by
    simp [togglingRun, Command.Tidy]
  have hpatch : (Command.updateSelected textPatch).Tidy :=
    List.forall_mem_singleton.2 (by decide)
  have hfresh (first : Session) (h : begin (some exampleFile) (.int 3) .initial .defaults = .ok first) :
      FreshRun ((first.files.filterMap File.window?).flatMap Window.ids) first togglingRun := by
    cases h
    exact ⟨List.disjoint_left.2 (by decide), List.disjoint_left.2 (by decide),
      List.disjoint_left.2 (by decide), List.disjoint_left.2 (by decide), trivial⟩
  refine ⟨_, rfl, hgiven, htidy, hfresh _ rfl, hpatch, ?_⟩
  obtain ⟨-, hedits⟩ := @edits_act_at_one_place (some exampleFile) (.int 3) .initial .defaults _ rfl hgiven
    togglingRun htidy (hfresh _ rfl)
  obtain ⟨file, w, new, -, -, -, hplace, hnew, -⟩ :=
    hedits (.updateSelected textPatch) _ (.truth true) rfl hpatch rfl rfl
  exact ⟨_, w, new, rfl, hplace, hnew⟩

end Session

end GuiBuilder
