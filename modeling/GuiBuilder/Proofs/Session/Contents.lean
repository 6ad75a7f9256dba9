import GuiBuilder.Proofs.History.Versions
import GuiBuilder.Proofs.Session.Commits
import GuiBuilder.Proofs.Widget.Patch

/-!
# What the files of a session hold

Everything that a session commits is made of contents that were there before, of what a call brings in, and
of what has passed the check of the widget tree. So a property of contents that these have holds of every
file of every snapshot, after any calls (`Session.AllContents.call`), and undo and restoring bring
back nothing else. Encodable windows are such a property: edits of an encodable window give encodable ones,
whatever ids, names and patches they are given.
-/

namespace GuiBuilder

/-! ### Files in tabs -/

namespace Tabs

variable {tabs : Tabs} {id : Text} {file : File}

theorem mem_of_file? (h : tabs.file? id = some file) : file ∈ tabs := List.mem_of_find?_eq_some h

theorem forall_mem_change {P : File → Prop} {f : File → File} (htabs : ∀ file ∈ tabs, P file)
    (hf : ∀ file ∈ tabs, P (f file)) : ∀ file ∈ tabs.change id f, P file := by
  intro file hfile
  obtain ⟨g, hg, rfl⟩ := List.mem_map.1 hfile
  split
  · exact hf g hg
  · exact htabs g hg

end Tabs

namespace Session

variable {s : Session} {id : Value} {file : File} {w : Window}

theorem mem_of_fileNamed? (h : s.fileNamed? id = some file) : file ∈ s.files := by
  obtain ⟨t, -, ht⟩ := Option.bind_eq_some_iff.1 h
  exact Tabs.mem_of_file? ht

theorem mem_of_activeFile? (h : s.activeFile? = some file) : file ∈ s.files := by
  rcases Option.or_eq_some_iff.1 h with h | ⟨-, h⟩
  · exact Tabs.mem_of_file? h
  · exact List.mem_of_head? h

/-- The active file is one of the open ones. -/
theorem exists_activeFile? (h : s.files ≠ []) : ∃ file ∈ s.files, s.activeFile? = some file := by
  cases hfound : Tabs.file? s.files s.selection.file with
  | some file => exact ⟨file, Tabs.mem_of_file? hfound, by rw [activeFile?, hfound, Option.some_or]⟩
  | none =>
    obtain ⟨file, files, hfiles⟩ := List.exists_cons_of_ne_nil h
    exact ⟨file, hfiles ▸ List.mem_cons_self, by rw [activeFile?, hfound, hfiles]; rfl⟩

/-- The window of the active file, if it holds one. -/
def activeWindow? (s : Session) : Option Window := s.activeFile?.bind File.window?

theorem exists_of_activeWindow? (h : s.activeWindow? = some w) :
    ∃ file, s.activeFile? = some file ∧ file.content = .window w := by
  obtain ⟨file, hfile, hw⟩ := Option.bind_eq_some_iff.1 h
  refine ⟨file, hfile, ?_⟩
  unfold File.window? at hw
  cases hcontent : file.content with
  | window w' =>
    rw [hcontent] at hw
    rw [Option.some.inj hw]
  | data v arrival =>
    rw [hcontent] at hw
    cases hw

theorem activeWindow?_of_activeFile? {file : File} (hfile : s.activeFile? = some file)
    (hw : file.content = .window w) : s.activeWindow? = some w := by
  rw [activeWindow?, hfile, Option.bind_some, File.window?, hw, Content.window?]

theorem exists_moment_of_mem_versions {v : Version} (hv : v ∈ s.versions id) :
    ∃ m ∈ s.history.moments, v.file ∈ m.snapshot := by
  unfold versions at hv
  split at hv
  · obtain ⟨m, hm, h⟩ := History.exists_moment_of_mem_versions hv
    exact ⟨m, hm, Tabs.mem_of_file? h⟩
  · cases hv

end Session

/-! ### Edits of encodable windows -/

namespace Window

variable {w : Window} {id : Text}

theorem Encodable.addFolder (hw : w.Encodable) {f : Folder} (hf : f.Encodable) : (w.addFolder f).Encodable :=
  ⟨hw.title, List.forall_mem_append.2 ⟨hw.folders, List.forall_mem_singleton.2 hf⟩⟩

theorem Encodable.changeFolder (hw : w.Encodable) {change : Folder → Folder}
    (hchange : ∀ f ∈ w.folders, f.Encodable → (change f).Encodable) :
    (w.changeFolder id change).Encodable := by
  refine ⟨hw.title, List.forall_mem_map.2 fun f hf => ?_⟩
  split
  · exact hchange f hf (hw.folders f hf)
  · exact hw.folders f hf

theorem Encodable.changeElement (hw : w.Encodable) {e : Element} (he : e.Encodable) :
    (w.changeElement id fun _ => e).Encodable := by
  refine ⟨hw.title, List.forall_mem_map.2 fun f hf => ⟨(hw.folders f hf).id, (hw.folders f hf).text, ?_⟩⟩
  refine List.forall_mem_map.2 fun e' he' => ?_
  split
  · exact he
  · exact (hw.folders f hf).elements e' he'

theorem Encodable.removeElement (hw : w.Encodable) : (w.removeElement id).Encodable := by
  refine ⟨hw.title, List.forall_mem_map.2 fun f hf => ⟨(hw.folders f hf).id, (hw.folders f hf).text, ?_⟩⟩
  exact fun e he => (hw.folders f hf).elements e (List.mem_of_mem_filter he)

theorem Encodable.removeFolder (hw : w.Encodable) : (w.removeFolder id).Encodable :=
  ⟨hw.title, fun f hf => hw.folders f (List.mem_of_mem_filter hf)⟩

end Window

theorem Folder.Encodable.addElement {f : Folder} (hf : f.Encodable) {e : Element} (he : e.Encodable) :
    (f.addElement e).Encodable :=
  ⟨hf.id, hf.text, List.forall_mem_append.2 ⟨hf.elements, List.forall_mem_singleton.2 he⟩⟩

theorem exists_of_map_eq_ok {ε α β : Type} {f : α → β} {x : Except ε α} {b : β} (h : x.map f = .ok b) :
    ∃ a, x = .ok a ∧ f a = b := by
  cases x with
  | ok a => exact ⟨a, rfl, Except.ok.inj h⟩
  | error e => cases h

theorem Session.encodable_of_patchSelected {w new : Window} {patch : Fields} {target : Selected}
    (hw : w.Encodable) (h : patchSelected w patch target = .ok new) : new.Encodable := by
  cases target with
  | element e =>
    obtain ⟨e', he', rfl⟩ := exists_of_map_eq_ok h
    obtain ⟨record, -, hread⟩ := Patch.exists_of_apply he'
    exact hw.changeElement (Element.encodable_of_ofValueOf hread)
  | folder f =>
    obtain ⟨f', hf', rfl⟩ := exists_of_map_eq_ok h
    obtain ⟨record, -, hread⟩ := Patch.exists_of_apply hf'
    exact hw.changeFolder fun _ _ _ => Folder.encodable_of_ofValue hread
  | window w' =>
    obtain ⟨record, -, hread⟩ := Patch.exists_of_apply h
    exact Window.encodable_of_ofValue hread

/-! ### Files that have been checked -/

/-- A checked file holds a checked window. -/
theorem File.exists_window_of_ofValue {v : Value} {file : File} (h : ofValue v = .ok file) :
    ∃ w, file.content = .window w ∧ w.Encodable := by
  obtain ⟨fields, -, h⟩ := Schema.exists_of_readRecord h
  obtain ⟨withData, language, h₁, -, rfl⟩ := Checked.seq_eq_ok.1 h
  obtain ⟨withName, w, h₂, hw, rfl⟩ := Checked.seq_eq_ok.1 h₁
  obtain ⟨withId, name, h₃, -, rfl⟩ := Checked.seq_eq_ok.1 h₂
  obtain ⟨id, -, rfl⟩ := Checked.map_eq_ok.1 h₃
  obtain ⟨v', hv'⟩ := FieldName.exists_of_required hw
  exact ⟨w, rfl, Window.encodable_of_ofValue hv'⟩

/-- A file that is made has the id and the window that it is given. -/
theorem File.of_make {id : Text} {name : Value} {w : Window} {file : File}
    (h : File.make (.text id) name w = .ok file) : file.id = id ∧ file.content = .window w := by
  obtain ⟨withName, window, h₁, hwindow, rfl⟩ := Checked.seq_eq_ok.1 (Checked.as_eq_ok.1 h)
  obtain ⟨withId, name', h₂, -, rfl⟩ := Checked.seq_eq_ok.1 h₁
  obtain ⟨id', hid', rfl⟩ := Checked.map_eq_ok.1 h₂
  have htext := (Schema.readText_eq_ok.1 (Checked.under_eq_ok.1 hid')).1
  cases hwindow
  exact ⟨(Value.text.inj htext).symm, rfl⟩

/-- A folder that is made has the id and the text that it is given, and no elements. -/
theorem Folder.of_make {id : Text} {text : String} {f : Folder} (h : Folder.make id text = .ok f) :
    f = ⟨id, text, []⟩ ∧ f.Encodable := by
  have hread := Checked.as_eq_ok.1 h
  refine ⟨?_, encodable_of_ofValue hread⟩
  obtain ⟨withText, elements, h₁, helements, rfl⟩ := Checked.seq_eq_ok.1 hread
  obtain ⟨withId, text', h₂, htext, rfl⟩ := Checked.seq_eq_ok.1 h₁
  obtain ⟨id', hid, rfl⟩ := Checked.map_eq_ok.1 h₂
  have hapart : (([(Field.id, .text id), (Field.text, .text text)] : List (FieldName × Value)).map
      Prod.fst).Pairwise FieldName.Apart := (by decide : [Field.id, Field.text].Pairwise FieldName.Apart)
  have hsame : id' = id := (text_of_required hapart List.mem_cons_self hid).1
  have hcaption : text' = text :=
    (text_of_optional hapart (List.mem_cons_of_mem _ List.mem_cons_self) htext).1
  have hnone : elements = [] := (Checked.ok.inj helements).symm
  rw [hsame, hcaption, hnone]

/-- An element that is made has the id and the variant that it is given. -/
theorem Element.of_make {kind : Kind} {id : Text} {e : Element} (h : Element.make kind id = .ok e) :
    e.id = id ∧ e.kind = kind := of_ofValueOf rfl (Checked.as_eq_ok.1 h)

/-- The window of a fresh file: one empty folder. -/
def Window.fresh (title folderId : Text) : Window := ⟨title, [⟨folderId, firstFolderText, []⟩]⟩

/-- A fresh file has the next id, and holds a fresh window whose folder has the one after it. -/
theorem File.of_fresh {ids ids' : IdSupply} {name title : Value} {file : File}
    (h : File.fresh ids name .null title = (.ok file, ids')) :
    file.id = ids.next ∧ ∃ t, file.content = .window (.fresh t ids.rest.next) ∧
      (Window.fresh t ids.rest.next).Encodable := by
  have hmade := congrArg Prod.fst h
  simp only [fresh, Value.isGiven, Bool.false_eq_true, if_false] at hmade
  split at hmade
  · cases hmade
  · next w hw =>
    obtain ⟨hid, hcontent⟩ := of_make hmade
    unfold Window.make at hw
    split at hw
    · cases hw
    · next folder hfolder =>
      obtain ⟨rfl, hencodable⟩ := Folder.of_make hfolder
      obtain ⟨withTitle, folders, h₁, hfolders, rfl⟩ := Checked.seq_eq_ok.1 (Checked.as_eq_ok.1 hw)
      obtain ⟨t, ht, rfl⟩ := Checked.map_eq_ok.1 h₁
      cases hfolders
      exact ⟨hid, t, hcontent, Schema.encodable_of_readText (Checked.under_eq_ok.1 ht),
        List.forall_mem_singleton.2 hencodable⟩

/-! ### Contents of all snapshots -/

namespace Session

variable {P : Content → Prop} {s : Session}

/-- A property of the content of every file in every snapshot. -/
def AllContents (P : Content → Prop) (s : Session) : Prop :=
  ∀ m ∈ s.history.moments, ∀ file ∈ m.snapshot, P file.content

theorem AllContents.files (h : s.AllContents P) : ∀ file ∈ s.files, P file.content :=
  h s.history.present (History.present_mem s.history)

theorem AllContents.imp {Q : Content → Prop} (hall : s.AllContents P) (h : ∀ content, P content → Q content) :
    s.AllContents Q := fun m hm file hfile => h _ (hall m hm file hfile)

/-- What a property of contents has to allow for, so that a call with which the supply of ids becomes `ids`
keeps it: whatever is put in the place of a content, windows that are read from data, the window of a new
file, and every window that is opened. -/
structure Allows (P : Content → Prop) (s : Session) (c : Call) (ids : IdSupply) : Prop where
  put : ∀ id content, s.Puts c id content ids → P content
  checked : ∀ v arrival (w : Window), P (.data v arrival) → w.Encodable → P (.window w)
  fresh : ∀ title, ids = s.ids.skip 2 → (Window.fresh title s.ids.rest.next).Encodable →
    P (.window (.fresh title s.ids.rest.next))
  opened : ∀ w name, c = .command (.openWindow w name) → P (.window w)

/-- A file that is renamed keeps its window; data in its place is checked. -/
theorem content_of_rename {file renamed : File} {t : Text} (hfile : P file.content)
    (hchecked : ∀ v arrival (w : Window), P (.data v arrival) → w.Encodable → P (.window w))
    (hnew : file.patch [(Field.name.spelled .name, .text t)] = .ok renamed) : P renamed.content := by
  cases hcontent : file.content with
  | window w =>
    rw [(File.of_rename hnew).2 w hcontent, ← hcontent]
    exact hfile
  | data v arrival =>
    obtain ⟨record, -, hread⟩ := Patch.exists_of_apply hnew
    obtain ⟨w, hw, hencodable⟩ := File.exists_window_of_ofValue hread
    rw [hw]
    rw [hcontent] at hfile
    exact hchecked v arrival w hfile hencodable

theorem forall_content_of_commits {c : Call} {tabs : Tabs} {ids : IdSupply} (h : s.Commits c tabs ids)
    (hall : s.AllContents P) (hc : Allows P s c ids) : ∀ file ∈ tabs, P file.content := by
  have hfiles := hall.files
  cases h with
  | put h => exact Tabs.forall_mem_change hfiles fun _ _ => hc.put _ _ h
  | rename hname hfile hnew =>
    have hrenamed := content_of_rename (hfiles _ (mem_of_fileNamed? hfile)) hc.checked hnew
    exact Tabs.forall_mem_change hfiles fun _ _ => hrenamed
  | newFile hmade =>
    have hids : ids = s.ids.skip 2 := (congrArg Prod.snd hmade).symm.trans (File.fresh_ids s.ids _ _)
    obtain ⟨-, title, hcontent, hencodable⟩ := File.of_fresh hmade
    refine List.forall_mem_append.2 ⟨hfiles, List.forall_mem_singleton.2 ?_⟩
    rw [hcontent]
    exact hc.fresh title hids hencodable
  | openWindow hmade =>
    have hcontent := (File.of_make hmade).2
    exact List.forall_mem_append.2 ⟨hfiles, List.forall_mem_singleton.2 (hcontent ▸ hc.opened _ _ rfl)⟩
  | close hmore hfile => exact fun file hmem => hfiles file (List.mem_of_mem_filter hmem)
  | restore hversion hopen =>
    obtain ⟨m, hm, hmem⟩ := exists_moment_of_mem_versions hversion
    exact Tabs.forall_mem_change hfiles fun _ _ => hall m hm _ hmem
  | reopen hversion hclosed =>
    obtain ⟨m, hm, hmem⟩ := exists_moment_of_mem_versions hversion
    exact List.forall_mem_append.2 ⟨hfiles, List.forall_mem_singleton.2 (hall m hm _ hmem)⟩

theorem AllContents.call {c : Call} (hall : s.AllContents P) (hc : Allows P s c (s.call c).session.ids) :
    (s.call c).session.AllContents P := by
  intro m hm
  rcases s.call_moments c hm with hm | hcommits
  · exact hall m hm
  · exact forall_content_of_commits hcommits hall hc

/-! ### The first snapshot -/

/-- A session begins with one file, which holds a window: the one that was given, or a fresh one. -/
theorem exists_fresh_of_begin {given : Option File} {capacity : Value} {ids : IdSupply}
    {preferences : Preferences} (h : begin given capacity ids preferences = .ok s) :
    ∃ file n w, file.content = .window w ∧
      (given = some file ∨ w.Encodable ∧ ∃ title id, w = .fresh title id) ∧
      s.history = .start n [file] ∧ s.cache = none := by
  unfold begin at h
  split at h
  · next file =>
    obtain ⟨n, w, -, hcontent, rfl⟩ := exists_of_start h
    exact ⟨file, n, w, hcontent, .inl rfl, rfl, rfl⟩
  · split at h
    · next file ids' hfresh =>
      obtain ⟨-, title, hcontent, hw⟩ := File.of_fresh hfresh
      obtain ⟨n, w', -, -, rfl⟩ := exists_of_start h
      exact ⟨file, n, _, hcontent, .inr ⟨hw, title, _, rfl⟩, rfl, rfl⟩
    · cases h

/-- If the window was not given, it is encodable. -/
theorem exists_of_begin {given : Option File} {capacity : Value} {ids : IdSupply} {preferences : Preferences}
    (h : begin given capacity ids preferences = .ok s) :
    ∃ file n w, file.content = .window w ∧ (given = some file ∨ w.Encodable) ∧
      s.history = .start n [file] ∧ s.cache = none := by
  obtain ⟨file, n, w, hcontent, hfile, hrest⟩ := exists_fresh_of_begin h
  exact ⟨file, n, w, hcontent, hfile.imp_right And.left, hrest⟩

theorem allContents_start {file : File} {n : Capacity} (h : s.history = .start n [file])
    (hfile : P file.content) : s.AllContents P := by
  intro m hm
  rw [h] at hm
  rw [List.mem_singleton.1 hm]
  exact List.forall_mem_singleton.2 hfile

end Session

/-! ### Encodable contents -/

/-- A window that a file holds is encodable. -/
def Content.Encodable : Content → Prop
  | window w => w.Encodable
  | data .. => True

/-- The windows that a call brings in. -/
def Call.windows : Call → List Window
  | command (.openWindow w _) | command (.applyWindow _ w) => [w]
  | _ => []

namespace Session

variable {s : Session}

/-- A session that is begun with an encodable file or none holds encodable contents only. -/
theorem encodable_of_begin {given : Option File} {capacity : Value} {ids : IdSupply} {preferences : Preferences}
    (h : begin given capacity ids preferences = .ok s) (hgiven : ∀ file ∈ given, file.content.Encodable) :
    s.AllContents Content.Encodable := by
  obtain ⟨file, n, w, hcontent, hfile, hhistory, -⟩ := exists_of_begin h
  refine allContents_start hhistory ?_
  rcases hfile with rfl | hw
  · exact hgiven file rfl
  · rw [hcontent]
    exact hw

theorem allows_encodable {c : Call} {ids : IdSupply} (hall : s.AllContents Content.Encodable)
    (hc : ∀ w ∈ c.windows, w.Encodable) : Allows Content.Encodable s c ids where
  put id content hput := by
    have hactive {file : File} {w : Window} (hfile : s.activeFile? = some file)
        (hw : file.content = .window w) : w.Encodable := by
      have h := hall.files file (mem_of_activeFile? hfile)
      rw [hw] at h
      exact h
    cases hput with
    | addFolder hfile hw hmade =>
      exact (hactive hfile hw).addFolder (Folder.encodable_of_ofValue (Checked.as_eq_ok.1 hmade))
    | addElement hfile hw hfolder hkind hmade =>
      have he := Element.encodable_of_ofValueOf (Checked.as_eq_ok.1 hmade)
      exact (hactive hfile hw).changeFolder fun f _ hf => hf.addElement he
    | deleteElement hfile hw hselected => exact (hactive hfile hw).removeElement
    | deleteFolder hfile hw hselected hmore => exact (hactive hfile hw).removeFolder
    | updateSelected hfile hw hnew => exact encodable_of_patchSelected (hactive hfile hw) hnew
    | applyWindow hfile => exact hc _ List.mem_cons_self
    | applyData hfile => trivial
  checked v arrival w _ hw := hw
  fresh title _ hw := hw
  opened w name h := by
    subst h
    exact hc w List.mem_cons_self

theorem AllContents.encodable_activeWindow (hall : s.AllContents Content.Encodable)
    (h : s.activeWindow? = some w) : w.Encodable := by
  obtain ⟨file, hfile, hw⟩ := exists_of_activeWindow? h
  have hcontent := hall.files file (mem_of_activeFile? hfile)
  rw [hw] at hcontent
  exact hcontent

/-- **All windows of a session are encodable**, in every snapshot, if those that are brought in are. -/
theorem encodable_afterCalls {calls : List Call} (hall : s.AllContents Content.Encodable)
    (hcalls : ∀ c ∈ calls, ∀ w ∈ c.windows, w.Encodable) :
    (s.afterCalls calls).AllContents Content.Encodable := by
  induction calls generalizing s with
  | nil => exact hall
  | cons c calls ih =>
    rw [List.forall_mem_cons] at hcalls
    exact ih (hall.call (allows_encodable hall hcalls.1)) hcalls.2

/-! ### Nothing but windows -/

/-- A command puts nothing but windows into files. -/
theorem allows_window (c : Command) (ids : IdSupply) :
    Allows (fun content => ∃ w, content = .window w) s (.command c) ids where
  put id content hput := by cases hput <;> exact ⟨_, rfl⟩
  checked v arrival w _ _ := ⟨w, rfl⟩
  fresh title _ _ := ⟨_, rfl⟩
  opened w _ _ := ⟨w, rfl⟩

/-- **All files of a session hold windows** after any commands, in every snapshot. -/
theorem window_after {given : Option File} {capacity : Value} {ids : IdSupply} {preferences : Preferences}
    (hbegin : begin given capacity ids preferences = .ok s) (commands : List Command) :
    (s.after commands).AllContents fun content => ∃ w, content = .window w := by
  obtain ⟨file, n, w, hcontent, -, hhistory, -⟩ := exists_of_begin hbegin
  have hfirst := allContents_start (P := fun content => ∃ w, content = .window w) hhistory ⟨w, hcontent⟩
  clear hbegin hhistory
  induction commands generalizing s with
  | nil => exact hfirst
  | cons c commands ih => exact ih (hfirst.call (allows_window c _))

/-- Where a tab is open after some commands, the active file holds a window. -/
theorem exists_activeWindow?_after {given : Option File} {capacity : Value} {ids : IdSupply}
    {preferences : Preferences} (hbegin : begin given capacity ids preferences = .ok s) (commands : List Command)
    (hne : (s.after commands).files ≠ []) : ∃ w, (s.after commands).activeWindow? = some w := by
  obtain ⟨file, hmem, hfile⟩ := exists_activeFile? hne
  obtain ⟨w, hw⟩ := (window_after hbegin commands).files file hmem
  exact ⟨w, activeWindow?_of_activeFile? hfile hw⟩

end Session

end GuiBuilder
