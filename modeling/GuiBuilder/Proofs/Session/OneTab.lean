import GuiBuilder.Proofs.Session.OnePlace

/-!
# Edits act on one tab

The calls rebuild the list of open tabs by ids, over all of them. Where no two open tabs have one id, that
comes to a single tab (`OneTab`): the active file has another window, a file another window or another name,
a file is closed, one comes in at the end, or a version takes the place of its file. All other tabs are
there as they were, in their order, and none has got another id.

Which tab an edit of the widget tree acts on is what the session reports as the active file before it, also
where the selection names a file that is not open and the first tab stands in for it.

The commands that do not edit leave every moment of the history as it is; undo and redo move its pointer.
-/

namespace GuiBuilder

/-! ### What an edit does to the tabs -/

/-- What an edit makes of the open tabs of a session. -/
inductive OneTab (s : Session) : Command → Tabs → Tabs → Prop where
  /-- The active file has another window. -/
  | edit {c : Command} {before after : Tabs} {file : File} {w : Window} (hc : c.editsWidgets = true)
      (hactive : s.activeFile? = some file) :
      OneTab s c (before ++ file :: after) (before ++ { file with content := .window w } :: after)
  /-- The file of the given id has the given window. -/
  | apply {before after : Tabs} {file : File} {w : Window} :
      OneTab s (.applyWindow (.text file.id) w) (before ++ file :: after)
        (before ++ { file with content := .window w } :: after)
  /-- The file of the given id has the given name. -/
  | rename {before after : Tabs} {file : File} {name : Text} :
      OneTab s (.renameFile (.text file.id) (.text name)) (before ++ file :: after)
        (before ++ { file with name := name } :: after)
  /-- The file of the given id is closed. -/
  | close {before after : Tabs} {file : File} :
      OneTab s (.closeFile (.text file.id)) (before ++ file :: after) (before ++ after)
  /-- A file is opened at the end. -/
  | newFile {tabs : Tabs} {file : File} : OneTab s .newFile tabs (tabs ++ [file])
  /-- A file that holds the given window is opened at the end. -/
  | openWindow {tabs : Tabs} {id fileName : Text} {name : Value} {w : Window} :
      OneTab s (.openWindow w name) tabs (tabs ++ [⟨id, fileName, .window w⟩])
  /-- A version takes the place of its file. -/
  | restore {index : Value} {before after : Tabs} {file : File} {version : Version}
      (hversion : version ∈ s.versions (.text file.id)) (hid : version.file.id = file.id) :
      OneTab s (.restoreVersion (.text file.id) index) (before ++ file :: after)
        (before ++ version.file :: after)
  /-- The file of a version is not open, and is opened at the end. -/
  | reopen {index : Value} {tabs : Tabs} {version : Version}
      (hversion : version ∈ s.versions (.text version.file.id))
      (hclosed : version.file.id ∉ tabs.map File.id) :
      OneTab s (.restoreVersion (.text version.file.id) index) tabs (tabs ++ [version.file])

/-- No tab has another id: the ids are the same, one of them is gone, or one has come in at the end. -/
theorem OneTab.map_id {s : Session} {c : Command} {tabs tabs' : Tabs} (h : OneTab s c tabs tabs') :
    tabs'.map File.id = tabs.map File.id ∨
    (∃ before id after, tabs.map File.id = before ++ id :: after ∧ tabs'.map File.id = before ++ after) ∨
    ∃ id, tabs'.map File.id = tabs.map File.id ++ [id] := by
  cases h with
  | edit hc hactive => exact .inl (by simp)
  | apply => exact .inl (by simp)
  | rename => exact .inl (by simp)
  | @close before after file =>
    refine .inr (.inl ⟨before.map File.id, file.id, after.map File.id, ?_, ?_⟩)
    · rw [List.map_append, List.map_cons]
    · rw [List.map_append]
  | newFile => exact .inr (.inr ⟨_, List.map_append⟩)
  | openWindow => exact .inr (.inr ⟨_, List.map_append⟩)
  | restore hversion hid => exact .inl (by simp [hid])
  | reopen hversion hclosed => exact .inr (.inr ⟨_, List.map_append⟩)

/-! ### Tabs with distinct ids -/

namespace Tabs

variable {tabs : Tabs} {file : File}

/-- **One tab is changed.** -/
theorem exists_change (h : (tabs.map File.id).Nodup) (hfile : file ∈ tabs) (f : File → File) :
    ∃ before after, tabs = before ++ file :: after ∧ tabs.change file.id f = before ++ f file :: after := by
  obtain ⟨before, after, rfl⟩ := List.append_of_mem hfile
  refine ⟨before, after, rfl, ?_⟩
  rw [change, map_key_eq (key_ne_of_nodup h)]

/-- **One tab is taken away.** -/
theorem exists_without (h : (tabs.map File.id).Nodup) (hfile : file ∈ tabs) :
    ∃ before after, tabs = before ++ file :: after ∧ tabs.without file.id = before ++ after := by
  obtain ⟨before, after, rfl⟩ := List.append_of_mem hfile
  refine ⟨before, after, rfl, ?_⟩
  rw [without, filter_key_ne (key_ne_of_nodup h)]

theorem id_of_file? {id : Text} (h : tabs.file? id = some file) : file.id = id := by
  have hid := List.find?_some h
  exact of_decide_eq_true hid

end Tabs

/-- A file that is renamed has the name that it is given. -/
theorem File.name_of_rename {file renamed : File} {t : Text}
    (h : file.patch [(Field.name.spelled .name, .text t)] = .ok renamed) : renamed.name = t := by
  obtain ⟨record, hput, hread⟩ := Patch.exists_of_apply h
  obtain ⟨withData, language, h₁, -, rfl⟩ := Checked.seq_eq_ok.1 hread
  obtain ⟨withName, w, h₂, -, rfl⟩ := Checked.seq_eq_ok.1 h₁
  obtain ⟨withId, name, h₃, hname, rfl⟩ := Checked.seq_eq_ok.1 h₂
  obtain ⟨id, -, rfl⟩ := Checked.map_eq_ok.1 h₃
  -- the name is the only field that has been put
  have hnames : (file.fields .name).map Prod.fst = [Field.id, Field.name, Field.data, Field.language] := rfl
  have hfield : Patch.fieldOf? [Field.id, Field.name, Field.data, Field.language] (Field.name.spelled .name)
      = some Field.name := by decide
  have hwritable : Field.name ∉ Patch.readOnlyFields := by decide
  simp only [hnames, Patch.putAll, hfield, if_neg hwritable, Except.ok.injEq] at hput
  have hfound : Field.name.find? record = some (Field.name.spelled .json, .text t) := by
    have hkey : Field.name.spelled .name = Field.name.spelled .json := rfl
    rw [← hput, FieldName.find?, Fields.get?_put, if_pos hkey]
  rw [FieldName.required_eq_ok hfound] at hname
  exact (Schema.readText_text_eq_ok.1 hname).1

namespace Session

variable {s : Session}

/-- A value that names a file is its id. -/
theorem eq_text_of_fileNamed? {id : Value} {file : File} (h : s.fileNamed? id = some file) :
    id = .text file.id := by
  obtain ⟨t, ht, hfile⟩ := Option.bind_eq_some_iff.1 h
  rw [Tabs.id_of_file? hfile]
  exact Value.eq_text ht

/-- A version of the file that a value names has that value as its id. -/
theorem eq_text_of_mem_versions {id : Value} {v : Version} (hv : v ∈ s.versions id) :
    id = .text v.file.id := by
  unfold versions at hv
  split at hv
  · next t ht =>
    obtain ⟨m, -, hfile⟩ := History.exists_moment_of_mem_versions hv
    rw [Tabs.id_of_file? hfile]
    exact Value.eq_text ht
  · cases hv

/-! ### Every edit -/

/-- Putting a window into the files of an id changes one tab. -/
theorem oneTab_of_puts {c : Command} {id : Text} {content : Content} {ids : IdSupply}
    (hput : s.Puts (.command c) id content ids) (hnodup : (s.files.map File.id).Nodup) :
    OneTab s c s.files (s.files.change id fun file => { file with content := content }) := by
  -- the edits of the widget tree differ in the window that they put only
  have hactive {file : File} {w : Window} (hc : c.editsWidgets = true) (hfile : s.activeFile? = some file) :
      OneTab s c s.files (s.files.change file.id fun f => { f with content := .window w }) := by
    obtain ⟨before, after, hfiles, hchange⟩ := Tabs.exists_change hnodup (mem_of_activeFile? hfile)
      fun f => { f with content := .window w }
    rw [hchange, hfiles]
    exact .edit hc hfile
  cases hput with
  | addFolder hfile hw hmade => exact hactive rfl hfile
  | addElement hfile hw hfolder hkind hmade => exact hactive rfl hfile
  | deleteElement hfile hw hselected => exact hactive rfl hfile
  | deleteFolder hfile hw hselected hmore => exact hactive rfl hfile
  | updateSelected hfile hw hnew => exact hactive rfl hfile
  | @applyWindow id file w hfile =>
    obtain ⟨before, after, hfiles, hchange⟩ := Tabs.exists_change hnodup (mem_of_fileNamed? hfile)
      fun f => { f with content := .window w }
    rw [eq_text_of_fileNamed? hfile, hchange, hfiles]
    exact .apply

/-- **What a command commits differs from the open tabs in one tab**, where no two of them have one id and
all hold windows. -/
theorem oneTab_of_commits {c : Command} {tabs : Tabs} {ids : IdSupply} (h : s.Commits (.command c) tabs ids)
    (hnodup : (s.files.map File.id).Nodup) (hwindows : ∀ file ∈ s.files, ∃ w, file.content = .window w) :
    OneTab s c s.files tabs := by
  cases h with
  | put hput => exact oneTab_of_puts hput hnodup
  | @rename id name t file renamed hname hfile hnew =>
    have hmem := mem_of_fileNamed? hfile
    obtain ⟨w, hw⟩ := hwindows file hmem
    obtain ⟨hid, hcontent⟩ := File.of_rename hnew
    have hrenamed : renamed = { file with name := t } := by
      have hsame : renamed.content = file.content := (hcontent w hw).trans hw.symm
      rw [← File.name_of_rename hnew, ← hid, ← hsame]
    obtain ⟨before, after, hfiles, hchange⟩ := Tabs.exists_change hnodup hmem fun _ => renamed
    rw [eq_text_of_fileNamed? hfile, Value.eq_text hname, hchange, hfiles, hrenamed]
    exact .rename
  | newFile hmade => exact .newFile
  | @openWindow w name name' file hmade =>
    obtain ⟨id, fileName, content⟩ := file
    obtain rfl : content = .window w := (File.of_make hmade).2
    exact .openWindow
  | @close id file hmore hfile =>
    obtain ⟨before, after, hfiles, hwithout⟩ := Tabs.exists_without hnodup (mem_of_fileNamed? hfile)
    rw [eq_text_of_fileNamed? hfile, hwithout, hfiles]
    exact .close
  | @restore id index version file hversion hopen =>
    have hid : version.file.id = file.id := (Tabs.id_of_file? hopen).symm
    obtain rfl := eq_text_of_mem_versions hversion
    obtain ⟨before, after, hfiles, hchange⟩ := Tabs.exists_change hnodup (Tabs.mem_of_file? hopen)
      fun _ => version.file
    rw [hid] at hversion ⊢
    rw [hchange, hfiles]
    exact .restore hversion hid
  | @reopen id index version hversion hclosed =>
    obtain rfl := eq_text_of_mem_versions hversion
    exact .reopen hversion (Tabs.notMem_ids_of_file?_eq_none hclosed)

/-- **Edits act on one tab.** Begin a session on any file, at any capacity, and carry out any commands. Where
no two open tabs have one id then, an edit that reports success acts on one tab. An edit of the widget tree
changes the window of the file that was reported as the active one before, and nothing else; applying a
window changes the window of the file of the given id, and renaming its name; closing takes that file away,
and restoring puts a version of it in its place, or opens it at the end when it was closed; a new file and a
given window are opened at the end. All other tabs are the same, in the same order; no open file has got
another id or another language. A command that does not edit changes no moment of the history. -/
theorem edits_act_on_one_tab {given : Option File} {capacity : Value} {ids : IdSupply}
    {preferences : Preferences} {first : Session} (hbegin : begin given capacity ids preferences = .ok first)
    (commands : List Command) :
    let s := first.after commands
    (∀ (c : Command) (t : Session) (reply : Reply), (s.files.map File.id).Nodup → c.isEdit = true →
      s.run c = ⟨t, .ok reply⟩ → reply.isSuccess = true →
      OneTab s c s.files t.files ∧
      (t.files.map File.id = s.files.map File.id ∨
        (∃ before id after, s.files.map File.id = before ++ id :: after ∧
          t.files.map File.id = before ++ after) ∨
        ∃ id, t.files.map File.id = s.files.map File.id ++ [id]) ∧
      ∀ file ∈ t.files, ∀ spelling,
        (Field.language, Value.text (Text.ofString scriptLanguage)) ∈ file.fields spelling) ∧
    ∀ c : Command, c.isEdit = false → (s.run c).session.history.moments = s.history.moments := by
  intro s
  have hwindows := (window_after hbegin commands).files
  refine ⟨fun c t reply hnodup hedit hrun hsuccess => ?_, fun c hc => (run_moved s hc).moments⟩
  have hcommits : s.Commits (.command c) t.files t.ids := commits_of_call s (c := .command c) hedit hrun hsuccess
  have hone := oneTab_of_commits hcommits hnodup hwindows
  refine ⟨hone, hone.map_id, fun file _ spelling => ?_⟩
  simp [File.fields]

/-- A tab is opened and that is undone, so the selection names a file that is not open. A folder comes into
the first tab then. -/
theorem edits_act_on_one_tab_fallback :
    ∃ first t reply, begin (some exampleFile) (.int 3) .initial .defaults = .ok first ∧
      (first.after [.newFile, .undo]).fileNamed? (.text (first.after [.newFile, .undo]).selection.file)
        = none ∧
      ((first.after [.newFile, .undo]).files.map File.id).Nodup ∧
      (first.after [.newFile, .undo]).run .addFolder = ⟨t, .ok reply⟩ ∧ reply.isSuccess = true ∧
      OneTab (first.after [.newFile, .undo]) .addFolder (first.after [.newFile, .undo]).files t.files := by
  refine ⟨_, _, _, rfl, rfl, by decide, rfl, rfl, ?_⟩
  exact ((@edits_act_on_one_tab (some exampleFile) (.int 3) .initial .defaults _ rfl [.newFile, .undo]).1
    .addFolder _ _ (by decide) rfl rfl rfl).1

end Session

end GuiBuilder
