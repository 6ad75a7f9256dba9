import GuiBuilder.Proofs.Script.Encodable
import GuiBuilder.Proofs.Session.Memo
import GuiBuilder.Proofs.Session.OpenTabs

/-!
# Everything that is stored is encodable

A text with a surrogate half can be offered to a session anywhere: as a name, as an id, in a patch, or deep
inside data that is to become a window. Nothing of it comes to be stored. Every file in every snapshot has
an encodable id, an encodable name and a window of encodable texts (`File.Encodable`), since whatever a call
commits was stored before or has passed a check (`Session.AllEncodable.call`).

So a file as data can always be written (`File.Encodable.storable_toValue`), and canonical JSON and fingerprints
exist for all windows of a session, and scripts for those whose decimals can be written. Asking for the script of
the active file answers with an encodable text as long as a tab is open and such decimals are in it, and so does an
export, unless there is something wrong with where it goes.
-/

namespace GuiBuilder

/-! ### Encodable files -/

/-- All texts of a file are encodable. -/
structure File.Encodable (file : File) : Prop where
  id : file.id.Encodable
  name : file.name.Encodable
  content : file.content.Encodable

namespace File

variable {file : File}

/-- A checked file is encodable. -/
theorem encodable_of_ofValue {v : Value} (h : ofValue v = .ok file) : file.Encodable := by
  obtain ⟨w, hcontent, hw⟩ := exists_window_of_ofValue h
  obtain ⟨fields, -, h⟩ := Schema.exists_of_readRecord h
  obtain ⟨withData, language, h₁, -, rfl⟩ := Checked.seq_eq_ok.1 h
  obtain ⟨withName, w', h₂, -, rfl⟩ := Checked.seq_eq_ok.1 h₁
  obtain ⟨withId, name, h₃, hname, rfl⟩ := Checked.seq_eq_ok.1 h₂
  obtain ⟨id, hid, rfl⟩ := Checked.map_eq_ok.1 h₃
  refine ⟨FieldName.encodable_of_required hid, FieldName.encodable_of_required hname, ?_⟩
  rw [hcontent]
  exact hw

/-- So is a file that is made for an encodable window. -/
theorem encodable_of_make {id name : Value} {w : Window} (h : make id name w = .ok file) (hw : w.Encodable) :
    file.Encodable := by
  obtain ⟨withName, content, h₁, hcontent, rfl⟩ := Checked.seq_eq_ok.1 (Checked.as_eq_ok.1 h)
  obtain ⟨withId, name', h₂, hname, rfl⟩ := Checked.seq_eq_ok.1 h₁
  obtain ⟨id', hid, rfl⟩ := Checked.map_eq_ok.1 h₂
  cases hcontent
  exact ⟨Schema.encodable_of_readText (Checked.under_eq_ok.1 hid),
    Schema.encodable_of_readText (Checked.under_eq_ok.1 hname), hw⟩

/-- A fresh file is made for a window that has been checked. -/
theorem encodable_of_fresh {ids ids' : IdSupply} {name title : Value}
    (h : fresh ids name .null title = (.ok file, ids')) : file.Encodable := by
  obtain ⟨-, t, hcontent, hw⟩ := of_fresh h
  have hmade := congrArg Prod.fst h
  simp only [fresh, Value.isGiven, Bool.false_eq_true, if_false] at hmade
  split at hmade
  · cases hmade
  · next w _ =>
    obtain rfl : w = .fresh t ids.rest.next := Content.window.inj ((of_make hmade).2.symm.trans hcontent)
    exact encodable_of_make hmade hw

theorem Encodable.window (hfile : file.Encodable) {w : Window} (hw : file.content = .window w) :
    w.Encodable := by
  have hcontent := hfile.content
  rwa [hw] at hcontent

/-- **An encodable file can be written as data**: every text in it is encodable, every number finite. -/
theorem Encodable.storable_toValue (spelling : Spelling) (hfile : file.Encodable) {w : Window}
    (hw : file.content = .window w) {digits : ℕ} (hdecimals : w.DecimalsWithin digits) :
    (file.toValue spelling).Storable digits := by
  refine storable_spellFields spelling (file.pairwise_apart_fields spelling) ?_
  simp only [fields, hw, List.forall_mem_cons]
  exact ⟨hfile.id, hfile.name, Window.storable_toValue spelling (hfile.window hw) hdecimals,
    Text.encodable_ofString _, List.forall_mem_nil _⟩

end File

namespace Session

variable {s : Session}

/-! ### Every snapshot -/

/-- All files of all snapshots are encodable. -/
def AllEncodable (s : Session) : Prop := ∀ m ∈ s.history.moments, ∀ file ∈ m.snapshot, file.Encodable

theorem AllEncodable.files (hall : s.AllEncodable) : ∀ file ∈ s.files, file.Encodable :=
  hall s.history.present (History.present_mem s.history)

theorem AllEncodable.contents (hall : s.AllEncodable) : s.AllContents Content.Encodable :=
  fun m hm file hfile => (hall m hm file hfile).content

/-- **What a call commits is encodable**, if the windows that it brings in are. -/
theorem encodable_of_commits {c : Call} {tabs : Tabs} {ids : IdSupply} (h : s.Commits c tabs ids)
    (hall : s.AllEncodable) (hc : ∀ w ∈ c.windows, w.Encodable) : ∀ file ∈ tabs, file.Encodable := by
  have hfiles := hall.files
  -- a version is a file of a snapshot
  have hversion {id : Value} {v : Version} (hv : v ∈ s.versions id) : v.file.Encodable := by
    obtain ⟨m, hm, hmem⟩ := exists_moment_of_mem_versions hv
    exact hall m hm _ hmem
  cases h with
  | @put c id content ids hput =>
    have hcontent : content.Encodable := (allows_encodable hall.contents hc).put id content hput
    refine Tabs.forall_mem_change hfiles fun file hfile => ?_
    exact ⟨(hfiles file hfile).id, (hfiles file hfile).name, hcontent⟩
  | rename hname hfile hnew =>
    obtain ⟨record, -, hread⟩ := Patch.exists_of_apply hnew
    exact Tabs.forall_mem_change hfiles fun _ _ => File.encodable_of_ofValue hread
  | newFile hmade =>
    exact List.forall_mem_append.2 ⟨hfiles, List.forall_mem_singleton.2 (File.encodable_of_fresh hmade)⟩
  | openWindow hmade =>
    have hfile := File.encodable_of_make hmade (hc _ List.mem_cons_self)
    exact List.forall_mem_append.2 ⟨hfiles, List.forall_mem_singleton.2 hfile⟩
  | close hmore hfile => exact fun file hmem => hfiles file (List.mem_of_mem_filter hmem)
  | restore hv hopen => exact Tabs.forall_mem_change hfiles fun _ _ => hversion hv
  | reopen hv hclosed => exact List.forall_mem_append.2 ⟨hfiles, List.forall_mem_singleton.2 (hversion hv)⟩

/-- One call leaves everything that is stored encodable. -/
theorem AllEncodable.call {c : Call} (hall : s.AllEncodable) (hc : ∀ w ∈ c.windows, w.Encodable) :
    (s.call c).session.AllEncodable := by
  intro m hm
  rcases s.call_moments c hm with hm | hcommits
  · exact hall m hm
  · exact encodable_of_commits hcommits hall hc

/-- **Everything that is stored stays encodable** along a run. -/
theorem AllEncodable.afterCalls {calls : List Call} (hall : s.AllEncodable)
    (hcalls : ∀ c ∈ calls, ∀ w ∈ c.windows, w.Encodable) : (s.afterCalls calls).AllEncodable := by
  induction calls generalizing s with
  | nil => exact hall
  | cons c calls ih =>
    rw [List.forall_mem_cons] at hcalls
    exact ih (hall.call hcalls.1) hcalls.2

theorem allEncodable_of_begin {given : Option File} {capacity : Value} {ids : IdSupply}
    {preferences : Preferences} (hbegin : begin given capacity ids preferences = .ok s)
    (hgiven : ∀ file ∈ given, file.Encodable) : s.AllEncodable := by
  have hfirst {file : File} {ids : IdSupply} (hstart : start file capacity ids preferences = .ok s)
      (hfile : file.Encodable) : s.AllEncodable := by
    obtain ⟨n, w, -, -, rfl⟩ := exists_of_start hstart
    intro m hm
    rw [List.mem_singleton.1 hm]
    exact List.forall_mem_singleton.2 hfile
  unfold begin at hbegin
  split at hbegin
  · next file => exact hfirst hbegin (hgiven file rfl)
  · split at hbegin
    · next file ids' hfresh => exact hfirst hbegin (File.encodable_of_fresh hfresh)
    · cases hbegin

/-! ### Scripts and exports -/

/-- The script of the active file is answered, and is encodable whether it was kept or is generated anew, unless
the decimals of the window cannot be written. -/
theorem exists_code {ws : List Window} {file : File} {w : Window} (hfile : s.activeFile? = some file)
    (hcontent : file.content = .window w) (hw : w.Encodable) (hcache : CacheOf ws s.cache)
    (hws : ∀ v ∈ ws, v.Encodable) :
    (∃ (u : Session) (script : Text), s.code = u.answer script ∧ u.activeFile? = some file ∧
      script.Encodable) ∨ (s.code = s.fault .unwritableInteger ∧ ¬ w.Writable) := by
  obtain ⟨d, -, ⟨script, hkept, hcode⟩ | ⟨script, hscript, hcode⟩ | ⟨f, hscript, hcode⟩⟩ :=
    code_eq (activeWindow?_of_activeFile? hfile hcontent) hw
  · obtain ⟨v, hv, -, hscript⟩ := hcache _ hkept
    exact .inl ⟨s, script, hcode, hfile, Window.encodable_of_script (hws v hv) hscript⟩
  · exact .inl ⟨_, script, hcode, hfile, Window.encodable_of_script hw hscript⟩
  · obtain ⟨hlong, rfl⟩ := Window.scriptFrom_eq_error.1 hscript
    exact .inr ⟨hcode, hlong⟩

/-- Why an export that has a script is not made: the directory is not there and cannot be made, the extension is no
text, or nothing can be written at the path. -/
inductive ExportRefusal (provide : Text → Except Fault (Text → Found)) (directory : Text) : Fault → Prop where
  | directory {f : Fault} (hprovide : provide directory = .error f) : ExportRefusal provide directory f
  | extension : ExportRefusal provide directory .extensionNotText
  | path {find : Text → Found} {path : Text} {f : Fault} (hprovide : provide directory = .ok find)
      (hpath : checkPath find path = .error f) : ExportRefusal provide directory f

/-- An export has the script as its content, unless nothing can be written where it goes. -/
theorem exportTo_cases {u : Session} {script : Text} {file : File} (hcode : s.code = u.answer script)
    (hfile : u.activeFile? = some file) (provide : Text → Except Fault (Text → Found)) (directory : Text)
    (extension : Value) :
    (∃ path, (s.exportTo provide directory extension).result = .ok ⟨path, script⟩) ∨
    ∃ f, ExportRefusal provide directory f ∧ (s.exportTo provide directory extension).result = .error f := by
  simp only [exportTo, hcode, answer_andThen, withActive, hfile]
  split
  · next f hprovide => exact .inr ⟨f, .directory hprovide, rfl⟩
  · next find hprovide =>
    split
    · exact .inr ⟨_, .extension, rfl⟩
    · split
      · next f hpath => exact .inr ⟨f, .path hprovide hpath, rfl⟩
      · exact .inl ⟨_, rfl⟩

/-- Without a script there is no export. -/
theorem exportTo_of_code_fault {f : Fault} (hcode : s.code = s.fault f)
    (provide : Text → Except Fault (Text → Found)) (directory : Text) (extension : Value) :
    (s.exportTo provide directory extension).result = .error f := by
  rw [exportTo, hcode]
  rfl

/-- **Everything that is stored is encodable.** Begin a session on a file that has passed the check of data,
or on none, and carry out any commands, with any texts as their arguments and with windows that have passed
the check. Then every file of every snapshot holds a window, and as data has encodable texts and finite
numbers only; the canonical JSON of its window is encodable, the window has a fingerprint, and it has a script,
which is encodable, if its decimals can be written. While a tab is open, asking for the script answers with an
encodable text, and an export has that text as its content unless nothing can be written where it goes; both
fail only if the decimals of the active window cannot be written. There is always an open tab if each id that is
drawn differs from that of the first file and from those drawn before. -/
theorem stored_is_encodable {given : Option File} {capacity : Value} {ids : IdSupply}
    {preferences : Preferences} {first : Session} (hbegin : begin given capacity ids preferences = .ok first)
    (hgiven : ∀ file ∈ given, ∃ v, File.ofValue v = .ok file) {commands : List Command}
    (hcommands : ∀ c ∈ commands, ∀ w ∈ (Call.command c).windows, ∃ v, Window.ofValue v = .ok w) :
    let s := first.after commands
    (∀ tabs ∈ s.history.snapshots, ∀ file ∈ tabs, ∃ w, file.content = .window w ∧
      (∀ spelling, ∃ digits, (file.toValue spelling).Storable digits) ∧
      (w.Writable → ∃ script, w.script = .ok script ∧ script.Encodable) ∧
      w.canonical.Encodable ∧ ∃ d, w.fingerprint? = some d) ∧
    (s.files ≠ [] → ∃ w, s.activeWindow? = some w ∧
      ((∃ script, s.code.result = .ok script ∧ script.Encodable ∧ ∀ provide directory extension,
        (∃ path, (s.exportTo provide directory extension).result = .ok ⟨path, script⟩) ∨
        ∃ f, ExportRefusal provide directory f ∧ (s.exportTo provide directory extension).result = .error f) ∨
      (¬ w.Writable ∧ s.code.result = .error .unwritableInteger ∧ ∀ provide directory extension,
        (s.exportTo provide directory extension).result = .error .unwritableInteger))) ∧
    ((first.files.map File.id ++ first.ids.drawnUntil s.ids).Nodup → s.files ≠ []) := by
  intro s
  have hcalls : ∀ c ∈ commands.map Call.command, ∀ w ∈ c.windows, w.Encodable := by
    rw [List.forall_mem_map]
    intro c hc w hw
    exact Window.exists_ofValue_iff.1 (hcommands c hc w hw)
  have hchecked : ∀ file ∈ given, file.Encodable := by
    intro file hfile
    obtain ⟨v, hv⟩ := hgiven file hfile
    exact File.encodable_of_ofValue hv
  have hfirst : first.AllEncodable := allEncodable_of_begin hbegin hchecked
  have hrun : s = first.afterCalls (commands.map .command) := (afterCalls_map_command first commands).symm
  have hall : s.AllEncodable := hrun ▸ hfirst.afterCalls hcalls
  have hwindows := window_after hbegin commands
  refine ⟨fun tabs htabs file hfile => ?_, fun hopen => ?_, fun hfresh => ?_⟩
  · obtain ⟨m, hm, rfl⟩ := List.mem_map.1 htabs
    obtain ⟨w, hcontent⟩ := hwindows m hm file hfile
    have hencodable := hall m hm file hfile
    have hw := hencodable.window hcontent
    obtain ⟨-, d, -, hd⟩ := Window.exists_fingerprint? hw
    obtain ⟨digits, hdecimals⟩ := w.exists_decimalsWithin
    exact ⟨w, hcontent, fun spelling => ⟨digits, hencodable.storable_toValue spelling hcontent hdecimals⟩,
      fun hwritable => Window.exists_encodable_script hw hwritable, Window.encodable_canonical hw, d, hd⟩
  · obtain ⟨file, hmem, hfile⟩ := exists_activeFile? hopen
    obtain ⟨w, hcontent⟩ := hwindows.files file hmem
    have hw := (hall.files file hmem).window hcontent
    have hcache : CacheOf (first.windowsRead (commands.map .command)) s.cache :=
      hrun ▸ cacheOf_of_begin hbegin (fun file hfile => (hchecked file hfile).content) hcalls
    refine ⟨w, activeWindow?_of_activeFile? hfile hcontent, ?_⟩
    rcases exists_code hfile hcontent hw hcache (encodable_windowsRead hfirst.contents hcalls) with
      ⟨u, script, hcode, hactive, hscript⟩ | ⟨hcode, hlong⟩
    · exact .inl ⟨script, by rw [hcode, result_answer], hscript, exportTo_cases hcode hactive⟩
    · exact .inr ⟨hlong, by rw [hcode]; rfl, exportTo_of_code_fault hcode⟩
  · exact ((allProper_of_begin hbegin).after commands hfresh).files.ne_nil

/-- The first half of a surrogate pair, standing alone. -/
def loneHalf : Text := [.surrogate ⟨0, by decide⟩]

/-- A half is offered as a name, in a patch and for a tab that is opened. -/
def loneHalfRun : List Command :=
  [.renameFile (.text "f") (.text loneHalf), .updateSelected [("text", .text loneHalf)],
    .openWindow ⟨"Two", []⟩ (.text loneHalf), .openWindow ⟨"Two", []⟩ .null]

theorem stored_is_encodable_lone_half :
    ∃ first, begin (some exampleFile) (.int 3) .initial .defaults = .ok first ∧
      (∀ file ∈ some exampleFile, ∃ v, File.ofValue v = .ok file) ∧
      (∀ c ∈ loneHalfRun, ∀ w ∈ (Call.command c).windows, ∃ v, Window.ofValue v = .ok w) ∧
      (first.after loneHalfRun).files.map File.name = ["one.lua", "Two.lua"] ∧
      ∃ script, (first.after loneHalfRun).code.result = .ok script ∧ script.Encodable := by
  have hgiven : ∀ file ∈ some exampleFile, ∃ v, File.ofValue v = .ok file := by
    rintro _ ⟨⟩
    exact ⟨exampleFile.toValue .name, rfl⟩
  have hcommands : ∀ c ∈ loneHalfRun, ∀ w ∈ (Call.command c).windows, ∃ v, Window.ofValue v = .ok w := by
    have htwo : ∃ v, Window.ofValue v = .ok ⟨"Two", []⟩ := ⟨Window.toValue .name ⟨"Two", []⟩, rfl⟩
    simpa [loneHalfRun, Call.windows] using htwo
  refine ⟨_, rfl, hgiven, hcommands, by decide, ?_⟩
  obtain ⟨w, hw, ⟨script, hcode, hscript, -⟩ | ⟨hlong, -⟩⟩ :=
    (@stored_is_encodable (some exampleFile) (.int 3) .initial .defaults _ rfl hgiven loneHalfRun hcommands).2.1
      (by decide)
  · exact ⟨script, hcode, hscript⟩
  · obtain rfl : Window.mk "Two" [] = w := Option.some.inj hw
    exact absurd (by decide) hlong

end Session

end GuiBuilder
