import GuiBuilder.Proofs.Session.Contents
import GuiBuilder.Proofs.Session.OneStep
import Mathlib.Data.List.Nodup

/-!
# There is always an open tab, and no two have one id

Tabs are proper (`Tabs.Proper`) when there is one at least, no two of them have one id, and all ids are
known: that of the first file, and those that have been drawn since. When all of these differ, every call
commits proper tabs: a new file takes an id that has just been drawn, a version is opened only where no tab
has its id, and a closed tab is one of several. So every snapshot of the history is proper, and undo, redo
and restoring bring back proper tabs only.
-/

namespace GuiBuilder

/-! ### Ids that are drawn -/

namespace IdSupply

variable {ids : IdSupply}

/-- The next ids, so many of them. -/
def given (ids : IdSupply) : ℕ → List Text
  | 0 => []
  | n + 1 => ids.next :: ids.rest.given n

/-- How many ids have been drawn on the way to a later supply. -/
def count (ids later : IdSupply) : ℕ :=
  (later.numbered - ids.numbered) + (ids.reserved.length - later.reserved.length)

/-- The ids that have been drawn on the way to a later supply. -/
def drawnUntil (ids later : IdSupply) : List Text := ids.given (ids.count later)

theorem skip_add (m n : ℕ) : ids.skip (m + n) = (ids.skip m).skip n := by
  induction m generalizing ids with
  | zero => rw [Nat.zero_add, skip]
  | succ m ih => rw [Nat.succ_add, skip, ih, skip]

theorem given_add (m n : ℕ) : ids.given (m + n) = ids.given m ++ (ids.skip m).given n := by
  induction m generalizing ids with
  | zero => rw [Nat.zero_add, given, skip, List.nil_append]
  | succ m ih => rw [Nat.succ_add, given, ih, given, skip, List.cons_append]

/-- Drawing uses up what is reserved, and counts up then. -/
theorem numbered_skip (ids : IdSupply) (n : ℕ) : ids.numbered ≤ (ids.skip n).numbered ∧
    (ids.skip n).reserved.length ≤ ids.reserved.length ∧
    (ids.skip n).numbered + ids.reserved.length = ids.numbered + n + (ids.skip n).reserved.length := by
  induction n generalizing ids with
  | zero => exact ⟨Nat.le_refl _, Nat.le_refl _, rfl⟩
  | succ n ih =>
    obtain ⟨reserved, numbered⟩ := ids
    cases reserved with
    | cons id reserved =>
      have h := ih ⟨reserved, numbered⟩
      simp only [skip, rest, List.length_cons] at h ⊢
      omega
    | nil =>
      have h := ih ⟨[], numbered + 1⟩
      simp only [skip, rest] at h ⊢
      omega

theorem count_skip (n : ℕ) : ids.count (ids.skip n) = n := by
  have h := ids.numbered_skip n
  unfold count
  omega

@[simp] theorem drawnUntil_skip (n : ℕ) : ids.drawnUntil (ids.skip n) = ids.given n := by
  rw [drawnUntil, count_skip]

/-- What is drawn on a way is what is drawn on its parts. -/
theorem drawnUntil_append (m n : ℕ) : ids.drawnUntil (ids.skip (m + n))
    = ids.drawnUntil (ids.skip m) ++ (ids.skip m).drawnUntil ((ids.skip m).skip n) := by
  rw [drawnUntil_skip, drawnUntil_skip, drawnUntil_skip, given_add]

end IdSupply

/-! ### Proper tabs -/

namespace Tabs

/-- There is a tab, no two tabs have one id, and all ids are known. -/
structure Proper (known : List Text) (tabs : Tabs) : Prop where
  ne_nil : tabs ≠ []
  nodup : (tabs.map File.id).Nodup
  known : tabs.map File.id ⊆ known

variable {known : List Text} {tabs : Tabs} {id : Text} {file : File}

theorem Proper.mono {known' : List Text} (h : tabs.Proper known) (hsub : known ⊆ known') :
    tabs.Proper known' := ⟨h.ne_nil, h.nodup, fun _ hid => hsub (h.known hid)⟩

theorem map_id_change {f : File → File} (hf : ∀ file ∈ tabs, file.id = id → (f file).id = id) :
    (tabs.change id f).map File.id = tabs.map File.id := by
  unfold change
  rw [List.map_map]
  refine List.map_congr_left fun file hfile => ?_
  simp only [Function.comp_apply]
  split
  · next hid => rw [hf file hfile hid, hid]
  · rfl

/-- Changing files in place keeps tabs proper, as long as the files keep their id. -/
theorem Proper.change (h : tabs.Proper known) {f : File → File}
    (hf : ∀ file ∈ tabs, file.id = id → (f file).id = id) : (tabs.change id f).Proper known := by
  have hids := map_id_change hf
  refine ⟨fun hnil => h.ne_nil ?_, hids ▸ h.nodup, hids ▸ h.known⟩
  rw [hnil] at hids
  exact List.map_eq_nil_iff.1 hids.symm

/-- A file with another id may be opened. -/
theorem Proper.append (h : tabs.Proper known) (hnew : file.id ∉ tabs.map File.id) (hknown : file.id ∈ known) :
    Proper known (tabs ++ [file]) := by
  refine ⟨by simp, ?_, ?_⟩
  · rw [List.map_append, List.map_singleton]
    exact (List.perm_append_singleton _ _).nodup_iff.2 (List.nodup_cons.2 ⟨hnew, h.nodup⟩)
  · rw [List.map_append]
    exact List.append_subset.2 ⟨h.known, List.cons_subset.2 ⟨hknown, List.nil_subset _⟩⟩

/-- One of several tabs may be closed. -/
theorem Proper.without (h : tabs.Proper known) (hmore : tabs.length ≠ 1) (hfile : file ∈ tabs) :
    (tabs.without file.id).Proper known := by
  have hsub : (tabs.without file.id).Sublist tabs := List.filter_sublist
  refine ⟨fun hnil => hmore ?_, h.nodup.sublist (hsub.map _), fun _ hid => h.known ((hsub.map _).subset hid)⟩
  -- no other file is there, so there is this one only
  have hall : ∀ id ∈ tabs.map File.id, id = file.id := by
    rw [List.forall_mem_map]
    intro g hg
    by_contra hne
    have hmem : g ∈ tabs.without file.id := List.mem_filter.2 ⟨hg, by simpa using hne⟩
    rw [hnil] at hmem
    cases hmem
  have hlength := (List.eq_replicate_iff.2 ⟨rfl, hall⟩ ▸ h.nodup : (List.replicate _ file.id).Nodup)
  have hle := List.nodup_replicate.1 hlength
  rw [List.length_map] at hle
  have hpos := List.length_pos_of_mem hfile
  omega

theorem exists_file? (h : file ∈ tabs) : ∃ found, tabs.file? file.id = some found := by
  refine Option.isSome_iff_exists.1 (List.find?_isSome.2 ⟨file, h, ?_⟩)
  exact decide_eq_true rfl

theorem notMem_ids_of_file?_eq_none (h : tabs.file? id = none) : id ∉ tabs.map File.id := by
  rw [List.mem_map]
  rintro ⟨file, hfile, hid⟩
  simpa [hid] using List.find?_eq_none.1 h file hfile

end Tabs

/-! ### Proper snapshots -/

namespace Session

variable {s : Session} {known : List Text}

/-- All snapshots are proper. -/
def AllProper (known : List Text) (s : Session) : Prop := ∀ m ∈ s.history.moments, m.snapshot.Proper known

theorem AllProper.files (h : s.AllProper known) : s.files.Proper known :=
  h s.history.present (History.present_mem s.history)

/-- **What a call commits is proper**, if the ids that it has drawn were not known. -/
theorem proper_of_commits {c : Call} {tabs : Tabs} {ids : IdSupply} (h : s.Commits c tabs ids)
    (hall : s.AllProper known) (hfresh : (known ++ s.ids.drawnUntil ids).Nodup) :
    tabs.Proper (known ++ s.ids.drawnUntil ids) := by
  have hfiles := hall.files
  have hmono {tabs : Tabs} (h : tabs.Proper known) : tabs.Proper (known ++ s.ids.drawnUntil ids) :=
    h.mono (List.subset_append_left _ _)
  -- the id of a new file has been drawn, so no tab has it
  have hopen {file : File} (hdrawn : file.id ∈ s.ids.drawnUntil ids) :
      Tabs.Proper (known ++ s.ids.drawnUntil ids) (s.files ++ [file]) := by
    refine (hmono hfiles).append (fun hmem => ?_) (List.mem_append_right _ hdrawn)
    exact List.disjoint_of_nodup_append hfresh (hfiles.known hmem) hdrawn
  cases h with
  | put h => exact hmono (hfiles.change fun file _ hid => hid)
  | rename hname hfile hnew =>
    exact hmono (hfiles.change fun file _ _ => (File.of_rename hnew).1)
  | newFile hmade =>
    have hids : ids = s.ids.skip 2 := (congrArg Prod.snd hmade).symm.trans (File.fresh_ids s.ids _ _)
    refine hopen ?_
    rw [(File.of_fresh hmade).1, hids, IdSupply.drawnUntil_skip]
    exact List.mem_cons_self
  | openWindow hmade =>
    refine hopen ?_
    rw [(File.of_make hmade).1, IdSupply.drawnUntil_skip]
    exact List.mem_cons_self
  | close hmore hfile => exact hmono (hfiles.without hmore (mem_of_fileNamed? hfile))
  | restore hversion hopened => exact hmono (hfiles.change fun _ _ _ => rfl)
  | reopen hversion hclosed =>
    obtain ⟨m, hm, hmem⟩ := exists_moment_of_mem_versions hversion
    have hknown := (hall m hm).known (List.mem_map_of_mem hmem)
    exact hmono (hfiles.append (Tabs.notMem_ids_of_file?_eq_none hclosed) hknown)

/-- One call leaves all snapshots proper. -/
theorem AllProper.call {c : Call} (hall : s.AllProper known)
    (hfresh : (known ++ s.ids.drawnUntil (s.call c).session.ids).Nodup) :
    (s.call c).session.AllProper (known ++ s.ids.drawnUntil (s.call c).session.ids) := by
  intro m hm
  rcases s.call_moments c hm with hm | hcommits
  · exact (hall m hm).mono (List.subset_append_left _ _)
  · exact proper_of_commits hcommits hall hfresh

theorem ids_after (s : Session) (commands : List Command) : ∃ n, (s.after commands).ids = s.ids.skip n := by
  induction commands generalizing s with
  | nil => exact ⟨0, rfl⟩
  | cons c commands ih =>
    obtain ⟨m, hm⟩ := s.call_ids (.command c)
    obtain ⟨n, hn⟩ := ih (s.run c).session
    refine ⟨m + n, ?_⟩
    rw [IdSupply.skip_add, ← hm]
    exact hn

/-- What is drawn along a run is what its first command draws, and then the others. -/
theorem drawnUntil_after_cons (s : Session) (c : Command) (commands : List Command) :
    s.ids.drawnUntil (s.after (c :: commands)).ids = s.ids.drawnUntil (s.run c).session.ids
      ++ (s.run c).session.ids.drawnUntil ((s.run c).session.after commands).ids := by
  obtain ⟨m, hm⟩ : ∃ m, (s.run c).session.ids = s.ids.skip m := s.call_ids (.command c)
  obtain ⟨n, hn⟩ := ids_after (s.run c).session commands
  have hafter : (s.after (c :: commands)).ids = s.ids.skip (m + n) := by
    rw [IdSupply.skip_add, ← hm]
    exact hn
  rw [hafter, hn, hm, IdSupply.drawnUntil_append]

/-- **All snapshots stay proper**, if all ids that are drawn differ from each other and from those that were
known. -/
theorem AllProper.after (hall : s.AllProper known) (commands : List Command)
    (hfresh : (known ++ s.ids.drawnUntil (s.after commands).ids).Nodup) :
    (s.after commands).AllProper (known ++ s.ids.drawnUntil (s.after commands).ids) := by
  induction commands generalizing s known with
  | nil => exact fun m hm => (hall m hm).mono (List.subset_append_left _ _)
  | cons c commands ih =>
    rw [drawnUntil_after_cons, ← List.append_assoc] at hfresh ⊢
    exact ih (AllProper.call (c := .command c) hall (List.Nodup.of_append_left hfresh)) hfresh

/-- A call that draws no id for what it commits knows all ids already. -/
theorem AllProper.call_of_ids {c : Call} (hall : s.AllProper known) (hknown : known.Nodup)
    (hids : ∀ tabs ids, s.Commits c tabs ids → ids = s.ids) : (s.call c).session.AllProper known := by
  intro m hm
  rcases s.call_moments c hm with hm | hcommits
  · exact hall m hm
  · have hnone : s.ids.drawnUntil (s.call c).session.ids = [] := by
      rw [hids _ _ hcommits]
      exact IdSupply.drawnUntil_skip 0
    have hproper := proper_of_commits hcommits hall (by rwa [hnone, List.append_nil])
    rwa [hnone, List.append_nil] at hproper

theorem AllProper.closeFile (hall : s.AllProper known) (hknown : known.Nodup) (id : Value) :
    (s.closeFile id).session.AllProper known := by
  refine hall.call_of_ids (c := .command (.closeFile id)) hknown fun tabs ids h => ?_
  cases h with
  | put h => cases h
  | close hmore hfile => rfl

theorem AllProper.restoreVersion (hall : s.AllProper known) (hknown : known.Nodup) (id index : Value) :
    (s.restoreVersion id index).session.AllProper known := by
  refine hall.call_of_ids (c := .command (.restoreVersion id index)) hknown fun tabs ids h => ?_
  cases h with
  | put h => cases h
  | restore hversion hopened => rfl
  | reopen hversion hclosed => rfl

/-! ### Closing and selecting -/

/-- An open file can be selected, where all files hold windows. -/
theorem result_selectFile {file : File} (h : file ∈ s.files)
    (hwindow : ∀ file ∈ s.files, ∃ w, file.content = .window w) :
    (s.selectFile (.text file.id)).result = .ok true := by
  obtain ⟨found, hfound⟩ := Tabs.exists_file? h
  have hnamed : s.fileNamed? (.text file.id) = some found := hfound
  obtain ⟨w, hw⟩ := hwindow found (Tabs.mem_of_file? hfound)
  rw [selectFile, hnamed]
  simp only [activate, hw]
  rfl

/-- **Closing a tab never ends in a fault** where tabs are proper and hold windows, and pushes do not
stall. -/
theorem result_closeFile (hproper : s.files.Proper known)
    (hwindow : ∀ file ∈ s.files, ∃ w, file.content = .window w) (hstalls : s.history.stalls = false)
    (id : Value) : ∃ b, (s.closeFile id).result = .ok b := by
  unfold closeFile
  split
  · exact ⟨false, rfl⟩
  · next hmore =>
    split
    · exact ⟨false, rfl⟩
    · next file hfile =>
      have hmem := mem_of_fileNamed? hfile
      dsimp only
      rw [commit_andThen, hstalls, if_neg Bool.false_ne_true]
      split
      · obtain ⟨last, hlast⟩ : ∃ last, (Tabs.without s.files file.id).getLast? = some last :=
          ⟨_, List.getLast?_eq_some_getLast (hproper.without hmore hmem).ne_nil⟩
        rw [hlast]
        refine ⟨true, ?_⟩
        set u : Session := { s with history := s.history.push (Tabs.without s.files file.id) } with hu
        have hfiles : u.files = Tabs.without s.files file.id := History.current_push _ _
        have hselect : (u.selectFile (.text last.id)).result = .ok true := by
          refine result_selectFile (hfiles ▸ List.mem_of_getLast? hlast) fun f hf => ?_
          rw [hfiles] at hf
          exact hwindow f (List.mem_of_mem_filter hf)
        rw [Outcome.result_map, hselect]
        rfl
      · exact ⟨true, rfl⟩

/-- A session begins with one tab. -/
theorem allProper_of_begin {given : Option File} {capacity : Value} {ids : IdSupply}
    {preferences : Preferences} {first : Session} (hbegin : begin given capacity ids preferences = .ok first) :
    first.AllProper (first.files.map File.id) := by
  obtain ⟨file, n, w, -, -, hhistory, -⟩ := exists_of_begin hbegin
  have hfiles : first.files = [file] := by
    rw [files, hhistory]
    rfl
  intro m hm
  rw [hhistory] at hm
  rw [List.mem_singleton.1 hm, hfiles]
  exact ⟨List.cons_ne_nil _ _, List.nodup_singleton _, List.Subset.refl _⟩

/-- **There is always an open tab, and no two tabs have one id.** Begin a session on any file, with a
capacity of at least one, and carry out any commands, where each id that is drawn differs from that of the
first file and from those drawn before. Then every snapshot has a tab, and no two tabs with one id. So the
active file is one of the open files; closing a tab answers, whatever it is asked to close, and leaves a tab;
and restoring a version opens no second tab with an id. -/
theorem open_tabs_after {n : ℕ} (pos : 0 < n) {given : Option File} {ids : IdSupply}
    {preferences : Preferences} {first : Session}
    (hbegin : begin given (.int n) ids preferences = .ok first) (commands : List Command)
    (hfresh : (first.files.map File.id ++ first.ids.drawnUntil (first.after commands).ids).Nodup) :
    let s := first.after commands
    (∀ tabs ∈ s.history.snapshots, tabs ≠ [] ∧ (tabs.map File.id).Nodup) ∧
    (∃ file ∈ s.files, s.activeFile? = some file) ∧
    (∀ id, (∃ b, (s.closeFile id).result = .ok b) ∧ (s.closeFile id).session.files ≠ []) ∧
    ∀ id index, ((s.restoreVersion id index).session.files.map File.id).Nodup := by
  intro s
  have hproper : s.AllProper _ := (allProper_of_begin hbegin).after commands hfresh
  have hstalls : s.history.stalls = false :=
    stalls_after (by simp [capacity_begin pos hbegin]) commands
  refine ⟨fun tabs htabs => ?_, exists_activeFile? hproper.files.ne_nil, fun id => ⟨?_, ?_⟩,
    fun id index => ?_⟩
  · obtain ⟨m, hm, rfl⟩ := List.mem_map.1 htabs
    exact ⟨(hproper m hm).ne_nil, (hproper m hm).nodup⟩
  · exact result_closeFile hproper.files (window_after hbegin commands).files hstalls id
  · exact (hproper.closeFile hfresh id).files.ne_nil
  · exact (hproper.restoreVersion hfresh id index).files.nodup

/-- A new file is opened, the first one closed, its first version opened again, and the new one closed. -/
def reopeningRun : List Command :=
  [.newFile, .closeFile (.text "f"), .restoreVersion (.text "f") (.int 0), .closeFile (.text "000000001")]

theorem open_tabs_after_reopening :
    ∃ first, 0 < 3 ∧ begin (some exampleFile) (.int (3 : ℕ)) .initial .defaults = .ok first ∧
      (first.files.map File.id ++ first.ids.drawnUntil (first.after reopeningRun).ids).Nodup ∧
      (first.after reopeningRun).files.map File.id = ["f"] ∧
      ∃ file ∈ (first.after reopeningRun).files, (first.after reopeningRun).activeFile? = some file := by
  refine ⟨_, by decide, rfl, by decide, by decide, ?_⟩
  exact (@open_tabs_after 3 (by decide) (some exampleFile) .initial .defaults _ rfl reopeningRun
    (by decide)).2.1

end Session

end GuiBuilder
