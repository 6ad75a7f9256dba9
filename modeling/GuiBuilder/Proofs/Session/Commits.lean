import GuiBuilder.Proofs.History.Refinement
import GuiBuilder.Proofs.Session.Frame

/-!
# What calls commit

A call takes the history of a session at most one step (`History.Becomes`). The calls that edit push the
tabs that `Session.Commits` lists: tabs with another content in the files of an id (`Session.Puts`), with
a file renamed, opened, closed or restored, each with what has been checked before it. Where an edit
reports success, the history is the old one after exactly one push, that of the files as they are now, and
where it reports failure, neither the history nor the selection has changed (`Outcome.Edits`).

Each call is followed once, from its last commit backwards: a refusal comes before the commit and logs at
most, and what comes after the commit selects or logs and leaves the history alone. All that later proofs
need of a call is in `Outcome.EditsBy`, so none of them looks into a call again.
-/

namespace GuiBuilder

/-! ### One step of a history -/

namespace History

variable {α : Type}

/-- What one call can make of a history. -/
inductive Becomes (h : History α) : History α → Prop where
  /-- Nothing changes. -/
  | same : Becomes h h
  /-- A snapshot is pushed. -/
  | pushed (x : α) : Becomes h (h.push x)
  /-- A push stalls. -/
  | stalled (x : α) : Becomes h (h.stalled x)
  /-- The pointer goes back. -/
  | undone {h' : History α} : h.undo? = some h' → Becomes h h'
  /-- The pointer goes ahead. -/
  | redone {h' : History α} : h.redo? = some h' → Becomes h h'

/-- No step changes the capacity. -/
theorem Becomes.capacity_eq {h h' : History α} (hb : h.Becomes h') : h'.capacity = h.capacity := by
  cases hb with
  | same => rfl
  | pushed x => rfl
  | stalled x => rfl
  | undone hu => exact (undo?_eq_some hu).1
  | redone hr => exact (redo?_eq_some hr).1

/-- A pushed snapshot is the current one. -/
theorem current_push (h : History α) (x : α) : (h.push x).current = x := by
  have hlast : (h.push x).moments.getLast? = some ⟨x, h.pushes + 1⟩ := by
    have hext : (h.extended x).getLast? = some ⟨x, h.pushes + 1⟩ := by
      rw [extended, List.getLast?_concat]
    show (kept h.capacity (h.extended x)).getLast? = _
    cases hc : h.capacity with
    | count n pos =>
      have hlen := length_extended h x
      rw [kept, List.getLast?_drop, if_neg (by omega), hext]
    | unbounded => exact hext
    | bound n => exact hext
  rw [List.getLast?_eq_getElem?, List.getElem?_eq_some_iff] at hlast
  obtain ⟨hlt, hget⟩ := hlast
  show ((h.push x).moments[(h.push x).moments.length - 1]).snapshot = x
  rw [hget]

/-- A line after a push holds what was there, and the new snapshot. -/
theorem mem_extended {h : History α} {x : α} {m : Moment α} (hm : m ∈ h.extended x) :
    m ∈ h.moments ∨ m.snapshot = x := by
  rcases List.mem_append.1 hm with hm | hm
  · exact .inl (List.mem_of_mem_take hm)
  · rw [List.mem_singleton.1 hm]
    exact .inr rfl

theorem mem_push {h : History α} {x : α} {m : Moment α} (hm : m ∈ (h.push x).moments) :
    m ∈ h.moments ∨ m.snapshot = x := mem_extended ((kept_sublist _ _).mem hm)

/-- The current snapshot is one of the line. -/
theorem present_mem (h : History α) : h.present ∈ h.moments := List.get_mem _ _

end History

/-- The supply without its next ids, so many of them. -/
def IdSupply.skip (ids : IdSupply) : ℕ → IdSupply
  | 0 => ids
  | n + 1 => ids.rest.skip n

theorem File.fresh_ids (ids : IdSupply) (name title : Value) :
    (File.fresh ids name .null title).2 = ids.skip 2 := rfl

/-! ### Calls -/

/-- The commands that edit. -/
def Command.isEdit : Command → Bool
  | .addFolder | .addElement _ | .deleteSelected | .updateSelected _ | .newFile | .openWindow ..
  | .applyWindow .. | .renameFile .. | .closeFile _ | .restoreVersion .. => true
  | _ => false

/-- The commands that generate the script. -/
def Command.generates : Command → Bool
  | .code | .exportTo .. => true
  | _ => false

/-- A call on a session: a command, or the same as applying a window with data in its place, which
nothing checks. -/
inductive Call where
  | command (c : Command)
  | applyData (id data : Value)

/-- The calls that edit. -/
def Call.isEdit : Call → Bool
  | command c => c.isEdit
  | applyData .. => true

/-- The calls that generate the script. -/
def Call.generates : Call → Bool
  | command c => c.generates
  | applyData .. => false

namespace Session

/-- Makes a call. -/
def call (s : Session) : Call → Outcome Reply
  | .command c => s.run c
  | .applyData id data => (s.applyContent id (.data data (s.history.pushes + 1))).map .truth

/-- What a session becomes when calls are made one after the other. -/
def afterCalls (s : Session) (calls : List Call) : Session :=
  calls.foldl (fun s c => (s.call c).session) s

theorem afterCalls_map_command (s : Session) (commands : List Command) :
    s.afterCalls (commands.map .command) = s.after commands := List.foldl_map

/-! ### What is committed -/

variable (s : Session)

/-- The content that a call puts into the files of an id, with the supply of ids after it. -/
inductive Puts : Call → Text → Content → IdSupply → Prop where
  /-- The window of the active file with a new folder. -/
  | addFolder {file : File} {w : Window} {folder : Folder} (hfile : s.activeFile? = some file)
      (hw : file.content = .window w) (hmade : Folder.make s.ids.next newFolderText = .ok folder) :
      Puts (.command .addFolder) file.id (.window (w.addFolder folder)) (s.ids.skip 1)
  /-- The window of the active file with a new element in the selected folders. -/
  | addElement {file : File} {w : Window} {value : Value} {kind : Kind} {folder : Text} {e : Element}
      (hfile : s.activeFile? = some file) (hw : file.content = .window w)
      (hfolder : (s.selection.folder.text?.filter fun id => (w.folder? id).isSome) = some folder)
      (hkind : Kind.ofValue value = .ok kind) (hmade : Element.make kind s.ids.next = .ok e) :
      Puts (.command (.addElement value)) file.id (.window (w.changeFolder folder fun f => f.addElement e))
        (s.ids.skip 1)
  /-- The window of the active file without the selected element. -/
  | deleteElement {file : File} {w : Window} {e : Element} (hfile : s.activeFile? = some file)
      (hw : file.content = .window w) (hselected : w.selected s.selection = .element e) :
      Puts (.command .deleteSelected) file.id (.window (w.removeElement e.id)) s.ids
  /-- The window of the active file without the selected folder, where there is more than one. -/
  | deleteFolder {file : File} {w : Window} {f : Folder} (hfile : s.activeFile? = some file)
      (hw : file.content = .window w) (hselected : w.selected s.selection = .folder f)
      (hmore : 1 < w.folders.length) :
      Puts (.command .deleteSelected) file.id (.window (w.removeFolder f.id)) s.ids
  /-- The window of the active file with what is selected patched. -/
  | updateSelected {file : File} {w new : Window} {patch : Fields} (hfile : s.activeFile? = some file)
      (hw : file.content = .window w) (hnew : patchSelected w patch (w.selected s.selection) = .ok new) :
      Puts (.command (.updateSelected patch)) file.id (.window new) s.ids
  /-- A given window. -/
  | applyWindow {id : Value} {file : File} {w : Window} (hfile : s.fileNamed? id = some file) :
      Puts (.command (.applyWindow id w)) file.id (.window w) s.ids
  /-- Given data. -/
  | applyData {id data : Value} {file : File} (hfile : s.fileNamed? id = some file) :
      Puts (.applyData id data) file.id (.data data (s.history.pushes + 1)) s.ids

/-- The tabs that a call commits, with the supply of ids after it. -/
inductive Commits : Call → Tabs → IdSupply → Prop where
  /-- A content is put into the files of an id. -/
  | put {c : Call} {id : Text} {content : Content} {ids : IdSupply} (h : s.Puts c id content ids) :
      Commits c (Tabs.change s.files id fun file => { file with content := content }) ids
  /-- An open file takes the name that it is given. -/
  | rename {id name : Value} {t : Text} {file renamed : File} (hname : name.text? = some t)
      (hfile : s.fileNamed? id = some file)
      (hnew : file.patch [(Field.name.spelled .name, .text t)] = .ok renamed) :
      Commits (.command (.renameFile id name)) (Tabs.change s.files file.id fun _ => renamed) s.ids
  /-- A new file is opened. -/
  | newFile {file : File} {ids : IdSupply}
      (hmade : File.fresh s.ids (.text newFileName) .null (.text newTitle) = (.ok file, ids)) :
      Commits (.command .newFile) (s.files ++ [file]) ids
  /-- A given window is opened. -/
  | openWindow {w : Window} {name name' : Value} {file : File}
      (hmade : File.make (.text s.ids.next) name' w = .ok file) :
      Commits (.command (.openWindow w name)) (s.files ++ [file]) (s.ids.skip 1)
  /-- One of several tabs is closed. -/
  | close {id : Value} {file : File} (hmore : s.files.length ≠ 1) (hfile : s.fileNamed? id = some file) :
      Commits (.command (.closeFile id)) (Tabs.without s.files file.id) s.ids
  /-- A version takes the place of the open file. -/
  | restore {id index : Value} {version : Version} {file : File} (hversion : version ∈ s.versions id)
      (hopen : Tabs.file? s.files version.file.id = some file) :
      Commits (.command (.restoreVersion id index))
        (Tabs.change s.files version.file.id fun _ => version.file) s.ids
  /-- A version of a file that is not open is opened. -/
  | reopen {id index : Value} {version : Version} (hversion : version ∈ s.versions id)
      (hclosed : Tabs.file? s.files version.file.id = none) :
      Commits (.command (.restoreVersion id index)) (s.files ++ [version.file]) s.ids

end Session

/-! ### What an edit does -/

open History (Becomes)

/-- A call on a session `s` that edits. -/
structure Outcome.Edits {α : Type} (s : Session) (success : α → Bool) (o : Outcome α) : Prop where
  /-- Whatever comes of it, the history is at most one step further. -/
  becomes : s.history.Becomes o.session.history
  /-- Success is one push of the files as they are then. -/
  done : ∀ a, o.result = .ok a → success a = true → o.session.history = s.history.push o.session.files
  /-- Failure changes neither the history nor the selection. -/
  refused : ∀ a, o.result = .ok a → success a = false →
    o.session.history = s.history ∧ o.session.selection = s.selection

namespace Outcome.Edits

variable {α β : Type} {s t : Session} {success : α → Bool}

/-- A call that ends in a fault before it has committed anything. -/
theorem fault (h : t.history = s.history) (f : Fault) : Edits s success (t.fault f) :=
  ⟨h ▸ .same, nofun, nofun⟩

/-- A call that refuses. -/
theorem refuse {a : α} (h : t.history = s.history) (hsel : t.selection = s.selection)
    (ha : success a = false) : Edits s success (t.answer a) := by
  refine ⟨h ▸ .same, fun b hb hs => ?_, fun _ _ _ => ⟨h, hsel⟩⟩
  cases hb
  rw [ha] at hs
  cases hs

/-- A call that commits, leaves the history alone from there on, and reports success if anything. -/
theorem commit {next : Session → Unit → Outcome α} {tabs : Tabs} (h : t.history = s.history)
    (hhist : ∀ u, (next u ()).session.history = u.history)
    (hok : ∀ u a, (next u ()).result = .ok a → success a = true) :
    Edits s success ((t.commit tabs).andThen next) := by
  unfold Session.commit
  split
  · refine ⟨?_, nofun, nofun⟩
    rw [Session.fault_andThen, Session.session_fault, ← h]
    exact .stalled tabs
  · rw [Session.answer_andThen]
    set u : Session := { t with history := t.history.push tabs } with hu
    have hfiles : (next u ()).session.files = tabs := by
      rw [Session.files, hhist, hu, History.current_push]
    refine ⟨?_, fun a _ _ => ?_, fun a ha hf => ?_⟩
    · rw [hhist, hu, ← h]
      exact .pushed tabs
    · rw [hfiles, hhist, hu, h]
    · rw [hok u a ha] at hf
      cases hf

/-- An answer in another form reports what the answer reports. -/
theorem map {success' : β → Bool} {o : Outcome α} {f : α → β} (h : Edits s success o)
    (hf : ∀ a, success' (f a) = success a) : Edits s success' (o.map f) := by
  obtain ⟨t, a | a⟩ := o
  · exact ⟨h.becomes, nofun, nofun⟩
  · refine ⟨h.becomes, fun b hb hs => ?_, fun b hb hs => ?_⟩
    · cases hb
      exact h.done a rfl ((hf a).symm.trans hs)
    · cases hb
      exact h.refused a rfl ((hf a).symm.trans hs)

end Outcome.Edits

/-- The history and the cache are still the same, and some ids have been drawn. -/
structure Session.Drawn (s t : Session) (n : ℕ) : Prop where
  history : t.history = s.history
  cache : t.cache = s.cache
  ids : t.ids = s.ids.skip n

theorem Session.Drawn.refl (s : Session) : s.Drawn s 0 := ⟨rfl, rfl, rfl⟩

theorem Session.drawn_log (s : Session) (level : Level) (message : Text) :
    s.Drawn (s.log level message) 0 := ⟨rfl, rfl, rfl⟩

theorem Session.drawn_drawId (s : Session) : s.Drawn s.drawId 1 := ⟨rfl, rfl, rfl⟩

/-- What a commit does and what follows it. -/
theorem Session.commit_andThen {α : Type} (t : Session) (tabs : Tabs) (next : Session → Unit → Outcome α) :
    (t.commit tabs).andThen next
      = if t.history.stalls then
          ({ t with history := t.history.stalled tabs } : Session).fault .historyStalled
        else next { t with history := t.history.push tabs } () := by
  unfold commit
  split <;> rfl

/-- An edit that is one call on a session `s`, with all that it can do to the history, the cache and the
supply of ids. -/
structure Outcome.EditsBy {α : Type} (c : Call) (s : Session) (success : α → Bool) (o : Outcome α) : Prop
    extends Outcome.Edits s success o where
  /-- Each moment was there before or holds what the call commits. -/
  commits : ∀ m ∈ o.session.history.moments,
    m ∈ s.history.moments ∨ s.Commits c m.snapshot o.session.ids
  /-- Where the call reports success, the files are what it commits. -/
  committed : ∀ a, o.result = .ok a → success a = true → s.Commits c o.session.files o.session.ids
  cache : o.session.cache = s.cache
  ids : ∃ n, o.session.ids = s.ids.skip n

namespace Outcome.EditsBy

variable {α β : Type} {c : Call} {s t : Session} {n : ℕ} {success : α → Bool}

theorem fault (h : s.Drawn t n) (f : Fault) : EditsBy c s success (t.fault f) where
  toEdits := .fault h.history f
  commits _ hm := .inl (h.history ▸ hm)
  committed := nofun
  cache := h.cache
  ids := ⟨n, h.ids⟩

theorem refuse {a : α} (h : s.Drawn t n) (hsel : t.selection = s.selection) (ha : success a = false) :
    EditsBy c s success (t.answer a) where
  toEdits := .refuse h.history hsel ha
  commits _ hm := .inl (h.history ▸ hm)
  committed b hb hs := by
    cases hb
    rw [ha] at hs
    cases hs
  cache := h.cache
  ids := ⟨n, h.ids⟩

/-- A call that commits, selects or logs at most from there on, and reports success if anything. -/
theorem commit {next : Session → Unit → Outcome α} {tabs : Tabs} (h : s.Drawn t n)
    (hcommits : s.Commits c tabs (s.ids.skip n)) (hnext : ∀ u : Session, u.Kept (next u ()).session)
    (hok : ∀ u a, (next u ()).result = .ok a → success a = true) :
    EditsBy c s success ((t.commit tabs).andThen next) := by
  have hedits : Edits s success ((t.commit tabs).andThen next) :=
    .commit h.history (fun u => (hnext u).history) hok
  rw [Session.commit_andThen] at hedits ⊢
  by_cases hstalls : t.history.stalls = true
  · rw [if_pos hstalls] at hedits ⊢
    refine ⟨hedits, fun m hm => ?_, nofun, h.cache, n, h.ids⟩
    rcases History.mem_extended hm with hm | hm
    · exact .inl (h.history ▸ hm)
    · refine .inr ?_
      rw [hm, Session.session_fault, h.ids]
      exact hcommits
  · rw [if_neg hstalls] at hedits ⊢
    have hkept := hnext { t with history := t.history.push tabs }
    refine ⟨hedits, fun m hm => ?_, fun a _ _ => ?_, hkept.cache.trans h.cache, n, hkept.ids.trans h.ids⟩
    · rw [hkept.history] at hm
      rcases History.mem_push hm with hm | hm
      · exact .inl (h.history ▸ hm)
      · refine .inr ?_
        rw [hm, hkept.ids, h.ids]
        exact hcommits
    · rw [Session.files, hkept.history, History.current_push, hkept.ids, h.ids]
      exact hcommits

/-- An answer in another form reports what the answer reports. -/
theorem map {success' : β → Bool} {o : Outcome α} {f : α → β} (h : EditsBy c s success o)
    (hf : ∀ a, success' (f a) = success a) : EditsBy c s success' (o.map f) where
  toEdits := h.toEdits.map hf
  commits := h.commits
  committed b hb hs := by
    obtain ⟨t, a | a⟩ := o
    · cases hb
    · cases hb
      exact h.committed a rfl ((hf a).symm.trans hs)
  cache := h.cache
  ids := h.ids

end Outcome.EditsBy

/-! ### The edits -/

namespace Session

variable (s : Session)

theorem addFolder_edits : s.addFolder.EditsBy (.command .addFolder) s fun _ => true := by
  unfold addFolder
  split
  · exact .fault s.drawn_drawId _
  · next folder hmade =>
    refine withWindow_induction (.fault s.drawn_drawId _) (.fault s.drawn_drawId _) fun file w hfile hw => ?_
    exact .commit s.drawn_drawId (.put (.addFolder hfile hw hmade)) (fun u => kept_selectFolder u _)
      (fun u a _ => rfl)

theorem addElement_edits (kind : Value) :
    (s.addElement kind).EditsBy (.command (.addElement kind)) s Option.isSome := by
  unfold addElement
  refine withWindow_induction (.fault (.refl s) _) (.fault (.refl s) _) fun file w hfile hw => ?_
  split
  · exact .refuse (s.drawn_log _ _) rfl rfl
  · next folder hfolder =>
    split
    · exact .fault (.refl s) _
    · exact .refuse (s.drawn_log _ _) rfl rfl
    · next k hkind =>
      split
      · exact .refuse (n := 1) ⟨rfl, rfl, rfl⟩ rfl rfl
      · next e hmade =>
        refine .commit s.drawn_drawId (.put (.addElement hfile hw hfolder hkind hmade))
          (fun u => kept_markElement u _) (fun u a ha => ?_)
        cases ha
        rfl

theorem deleteSelected_edits : s.deleteSelected.EditsBy (.command .deleteSelected) s id := by
  unfold deleteSelected
  refine withActive_induction (.fault (.refl s) _) fun file hfile => ?_
  split
  · next w hw =>
    cases hselected : w.selected s.selection with
    | element e =>
      refine .commit (.refl s) (.put (.deleteElement hfile hw hselected)) (fun u => kept_markElement u _)
        (fun u a ha => ?_)
      cases ha
      rfl
    | folder f =>
      simp only [delete]
      split
      · exact .refuse (s.drawn_log _ _) rfl rfl
      · next hmore =>
        refine .commit (.refl s) (.put (.deleteFolder hfile hw hselected (Nat.not_le.1 hmore)))
          (fun u => ?_) (fun u a ha => ?_)
        · split
          · exact kept_selectFolder u _
          · exact .refl u
        · split at ha <;> cases ha
          rfl
    | window w => exact .refuse (.refl s) rfl rfl
  · split
    · exact .fault (.refl s) _
    · exact .refuse (.refl s) rfl rfl

/-- Putting a content into some files, and then reporting success. -/
theorem replaceContent_edits {c : Call} {id' : Text} {content : Content} (h : s.Puts c id' content s.ids) :
    ((s.replaceContent id' content).map fun _ => true).EditsBy c s id := by
  have heq : (s.commit (Tabs.change s.files id' fun file => { file with content := content })).andThen
      (fun u _ => u.answer true) = (s.replaceContent id' content).map fun _ => true := by
    unfold replaceContent commit
    split <;> rfl
  rw [← heq]
  refine .commit (.refl s) (.put h) (fun u => .refl u) (fun u a ha => ?_)
  cases ha
  rfl

theorem updateSelected_edits (patch : Fields) :
    (s.updateSelected patch).EditsBy (.command (.updateSelected patch)) s id := by
  unfold updateSelected
  refine withWindow_induction (.fault (.refl s) _) (.fault (.refl s) _) fun file w hfile hw => ?_
  dsimp only
  split
  · next new hnew => exact replaceContent_edits s (.updateSelected hfile hw hnew)
  · exact .refuse (s.drawn_log _ _) rfl rfl

/-- After a tab has been opened, only the selection and the console change. -/
theorem openTab_edits {c : Call} {t : Session} {n : ℕ} {file : File} (h : s.Drawn t n)
    (hcommits : s.Commits c (s.files ++ [file]) (s.ids.skip n)) (message : String) :
    (t.openTab file message).EditsBy c s fun _ => true := by
  have hfiles : t.files = s.files := congrArg History.current h.history
  unfold openTab
  rw [hfiles]
  refine .commit h hcommits (fun u => ?_) (fun u a _ => rfl)
  refine Outcome.session_andThen_induction (P := u.Kept) (kept_selectFile u _) fun v _ hv => ?_
  exact hv.trans (kept_log v _ _)

theorem newFile_edits : s.newFile.EditsBy (.command .newFile) s fun _ => true := by
  unfold newFile
  have hids := File.fresh_ids s.ids (.text newFileName) (.text newTitle)
  split
  · next r ids hmade =>
    have hdrawn : s.Drawn { s with ids := ids } 2 := ⟨rfl, rfl, (congrArg Prod.snd hmade).symm.trans hids⟩
    exact .fault hdrawn _
  · next file ids hmade =>
    have hskip : ids = s.ids.skip 2 := (congrArg Prod.snd hmade).symm.trans hids
    have hdrawn : s.Drawn { s with ids := ids } 2 := ⟨rfl, rfl, hskip⟩
    have hcommits : s.Commits (.command .newFile) (s.files ++ [file]) ids := .newFile hmade
    exact openTab_edits s hdrawn (hskip ▸ hcommits) _

theorem openWindow_edits (w : Window) (name : Value) :
    (s.openWindow w name).EditsBy (.command (.openWindow w name)) s fun _ => true := by
  unfold openWindow
  dsimp only
  split
  · exact .fault s.drawn_drawId _
  · next file hmade => exact openTab_edits s s.drawn_drawId (.openWindow hmade) _

/-- Any content may take the place of that of an open file. -/
theorem applyContent_edits {c : Call} (id' : Value) (content : Content)
    (h : ∀ file, s.fileNamed? id' = some file → s.Puts c file.id content s.ids) :
    (s.applyContent id' content).EditsBy c s id := by
  unfold applyContent
  split
  · exact .refuse (s.drawn_log _ _) rfl rfl
  · next file hfile => exact replaceContent_edits s (h file hfile)

theorem renameFile_edits (id' name : Value) :
    (s.renameFile id' name).EditsBy (.command (.renameFile id' name)) s id := by
  unfold renameFile
  split
  · exact .refuse (s.drawn_log _ _) rfl rfl
  · split
    · exact .fault (.refl s) _
    · next t hname =>
      split
      · exact .refuse (s.drawn_log _ _) rfl rfl
      · split
        · exact .refuse (s.drawn_log _ _) rfl rfl
        · next file hfile =>
          split
          · exact .refuse (s.drawn_log _ _) rfl rfl
          · next renamed hnew =>
            refine .commit (.refl s) (.rename hname hfile hnew) (fun u => kept_log u _ _) (fun u a ha => ?_)
            cases ha
            rfl

theorem closeFile_edits (id' : Value) : (s.closeFile id').EditsBy (.command (.closeFile id')) s id := by
  unfold closeFile
  split
  · exact .refuse (s.drawn_log _ _) rfl rfl
  · next hmore =>
    split
    · exact .refuse (s.drawn_log _ _) rfl rfl
    · next file hfile =>
      refine .commit (.refl s) (.close hmore hfile) (fun u => ?_) (fun u a ha => ?_)
      · split
        · split
          · exact kept_selectFile u _
          · exact .refl u
        · exact .refl u
      · -- whether the last tab can be selected or not, closing reports success
        split at ha
        · split at ha
          · rw [Outcome.result_map] at ha
            cases hsel : (u.selectFile _).result with
            | ok b => rw [hsel] at ha; cases ha; rfl
            | error f => rw [hsel] at ha; cases ha
          · cases ha
        · cases ha
          rfl

theorem restoreVersion_edits (id' index : Value) :
    (s.restoreVersion id' index).EditsBy (.command (.restoreVersion id' index)) s id := by
  unfold restoreVersion
  dsimp only
  split
  · exact .fault (.refl s) _
  · exact .refuse (s.drawn_log _ _) rfl rfl
  · split
    · exact .fault (.refl s) _
    · next version hversion =>
      have hmem : version ∈ s.versions id' := List.mem_of_getElem? hversion
      refine .commit (.refl s) ?_ (fun u => kept_log u _ _) (fun u a ha => ?_)
      · split
        · next file hopen => exact .restore hmem hopen
        · next hclosed => exact .reopen hmem hclosed
      · cases ha
        rfl

/-! ### Every call -/

theorem run_edits {c : Command} (hc : c.isEdit = true) :
    (s.run c).EditsBy (.command c) s Reply.isSuccess := by
  cases c with
  | addFolder => exact (addFolder_edits s).map fun _ => rfl
  | addElement kind =>
    refine (addElement_edits s kind).map fun e => ?_
    cases e <;> rfl
  | deleteSelected => exact (deleteSelected_edits s).map fun _ => rfl
  | updateSelected patch => exact (updateSelected_edits s patch).map fun _ => rfl
  | newFile => exact (newFile_edits s).map fun _ => rfl
  | openWindow w name => exact (openWindow_edits s w name).map fun _ => rfl
  | applyWindow id w => exact (applyContent_edits s id _ fun _ => .applyWindow).map fun _ => rfl
  | renameFile id name => exact (renameFile_edits s id name).map fun _ => rfl
  | closeFile id => exact (closeFile_edits s id).map fun _ => rfl
  | restoreVersion id index => exact (restoreVersion_edits s id index).map fun _ => rfl
  | _ => cases hc

theorem call_editsBy {c : Call} (hc : c.isEdit = true) : (s.call c).EditsBy c s Reply.isSuccess := by
  cases c with
  | command c => exact run_edits s hc
  | applyData id data => exact (applyContent_edits s id _ fun _ => .applyData).map fun _ => rfl

theorem call_edits {c : Call} (hc : c.isEdit = true) : (s.call c).Edits s Reply.isSuccess :=
  (call_editsBy s hc).toEdits

/-- What a command that does not edit makes of a session `s`: the pointer of the history may move, and the
cache may change where the script is generated. -/
structure Moved (c : Command) (s t : Session) : Prop where
  becomes : s.history.Becomes t.history
  moments : t.history.moments = s.history.moments
  ids : t.ids = s.ids
  cache : c.generates = false → t.cache = s.cache

theorem Kept.moved {s t : Session} (h : s.Kept t) (c : Command) : Moved c s t :=
  ⟨h.history ▸ .same, congrArg History.moments h.history, h.ids, fun _ => h.cache⟩

theorem moved_exportTo {t : Session} (provide : Text → Except Fault (Text → Found)) (directory : Text)
    (extension : Value) (h : s.code.session.Kept t) : Moved (.exportTo provide directory extension) s t := by
  have hhistory : t.history = s.history := h.history.trans s.code_frame.1
  exact ⟨hhistory ▸ .same, congrArg History.moments hhistory, h.ids.trans s.code_frame.2, nofun⟩

theorem run_moved {c : Command} (hc : c.isEdit = false) : Moved c s (s.run c).session := by
  cases c with
  | undo =>
    simp only [run, undo]
    split
    · exact (Kept.refl s).moved _
    · next h hu => exact ⟨.undone hu, (History.undo?_eq_some hu).2.1, rfl, fun _ => rfl⟩
  | redo =>
    simp only [run, redo]
    split
    · exact (Kept.refl s).moved _
    · next h hr => exact ⟨.redone hr, (History.redo?_eq_some hr).2.1, rfl, fun _ => rfl⟩
  | selectFile id => exact (kept_selectFile s id).moved _
  | selectElement id => exact (kept_selectElement s id).moved _
  | selected => exact (kept_selected s).moved _
  | code => exact ⟨s.code_frame.1 ▸ .same, congrArg History.moments s.code_frame.1, s.code_frame.2, nofun⟩
  | versionDiff id index => exact (kept_versionDiff s id index).moved _
  | analyze => exact (kept_analyze s).moved _
  | exportTo provide directory extension =>
    exact moved_exportTo s provide directory extension (kept_exportTo s provide directory extension)
  | log message level => exact (kept_logValues s message level).moved _
  | selectFolder id => exact (kept_selectFolder s id).moved _
  | clearSelection => exact (kept_selectFolder s .null).moved _
  | files | findFile _ | versions _ => exact (Kept.refl s).moved _
  | clearLog => exact (⟨rfl, rfl, rfl⟩ : s.Kept { s with console := s.console.clear }).moved _
  | _ => cases hc

/-- A call edits, or it is a command that moves the pointer, generates the script, selects or logs. -/
theorem call_cases (c : Call) :
    (s.call c).EditsBy c s Reply.isSuccess ∨ ∃ k, c = .command k ∧ Moved k s (s.call c).session := by
  cases hc : c.isEdit with
  | true => exact .inl (call_editsBy s hc)
  | false =>
    cases c with
    | command k => exact .inr ⟨k, rfl, run_moved s hc⟩
    | applyData id data => cases hc

/-- **A call takes the history at most one step.** -/
theorem call_becomes (c : Call) : s.history.Becomes (s.call c).session.history := by
  rcases s.call_cases c with hedits | ⟨k, -, hmoved⟩
  · exact hedits.becomes
  · exact hmoved.becomes

/-- **Each moment after a call was there before, or holds what the call commits.** -/
theorem call_moments (c : Call) {m : Moment Tabs} (hm : m ∈ (s.call c).session.history.moments) :
    m ∈ s.history.moments ∨ s.Commits c m.snapshot (s.call c).session.ids := by
  rcases s.call_cases c with hedits | ⟨k, -, hmoved⟩
  · exact hedits.commits m hm
  · exact .inl (hmoved.moments ▸ hm)

/-- **Where an edit reports success, the files are what it commits.** -/
theorem commits_of_call {c : Call} (hc : c.isEdit = true) {t : Session} {reply : Reply}
    (hcall : s.call c = ⟨t, .ok reply⟩) (hsuccess : reply.isSuccess = true) : s.Commits c t.files t.ids := by
  have hedits := call_editsBy s hc
  rw [hcall] at hedits
  exact hedits.committed reply rfl hsuccess

/-- A call draws some ids, or none. -/
theorem call_ids (c : Call) : ∃ n, (s.call c).session.ids = s.ids.skip n := by
  rcases s.call_cases c with hedits | ⟨k, -, hmoved⟩
  · exact hedits.ids
  · exact ⟨0, hmoved.ids⟩

/-- Only a call that generates the script touches the cache. -/
theorem call_cache {c : Call} (h : c.generates = false) : (s.call c).session.cache = s.cache := by
  rcases s.call_cases c with hedits | ⟨k, rfl, hmoved⟩
  · exact hedits.cache
  · exact hmoved.cache h

/-! ### The first session -/

/-- A session starts on a file that holds a window, with nothing but that file in its history. -/
theorem exists_of_start {file : File} {capacity : Value} {ids : IdSupply} {preferences : Preferences}
    {s : Session} (h : start file capacity ids preferences = .ok s) :
    ∃ n w, capacityOf (if capacity.isGiven then capacity else preferences.get "history_capacity") = .ok n ∧
      file.content = .window w ∧
      s = ⟨.start n [file], ⟨file.id, firstFolder w, none⟩, .initial, [], false, none, ids, preferences⟩ := by
  unfold start at h
  dsimp only at h
  split at h
  · cases h
  · next n hn =>
    refine ⟨n, ?_⟩
    cases hcontent : file.content with
    | window w =>
      simp only [activate, hcontent, answer, Except.ok.injEq] at h
      exact ⟨w, hn, rfl, h.symm⟩
    | data v arrival => simp [activate, hcontent, fault] at h

end Session

end GuiBuilder
