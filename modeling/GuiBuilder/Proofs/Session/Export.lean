import GuiBuilder.Proofs.Path.Inside
import GuiBuilder.Proofs.Session.Memo
import GuiBuilder.Proofs.Session.OneStep
import GuiBuilder.Storage.Disk

/-!
# Where exports go

A script is exported under a name that ends in its extension. Where the extension has taken the place of what
was behind a point, no component of the name is `..`; but a name that ends in the extension already is kept as
it is, and may lead anywhere. So the files that are exported into the directory, whatever that is, are those
whose names are relative and do not climb if they are kept (`StaysInside`, `forall_isInside_exportPath_iff`). A
name without slashes is always among them.
-/

namespace GuiBuilder

/-- A file of this name is exported into the directory, whatever that is: the name is relative, and does not
climb if it is kept. -/
def StaysInside (name extension : Text) : Prop :=
  Path.isAbsolute name = false ∧
    (Text.endsWith name (.char '.' :: extension) = true → ¬ Path.Climbs (Path.components name))

instance (name extension : Text) : Decidable (StaysInside name extension) := inferInstanceAs (Decidable (_ ∧ _))

section exportName

variable {name extension : Text}

/-! ### Exported names -/

theorem exportName_of_endsWith (h : Text.endsWith name (.char '.' :: extension) = true) :
    exportName name extension = name := by
  rw [exportName, if_pos h]

theorem exportName_of_not_endsWith (h : Text.endsWith name (.char '.' :: extension) = false) :
    exportName name extension = name.takeWhile (fun p => decide (p ≠ .char '.')) ++ .char '.' :: extension := by
  rw [exportName, h, if_neg Bool.false_ne_true]

theorem suffix_exportName (name extension : Text) : .char '.' :: extension <:+ exportName name extension := by
  cases h : Text.endsWith name (.char '.' :: extension) with
  | true =>
    rw [exportName_of_endsWith h]
    exact List.isSuffixOf_iff_suffix.1 h
  | false =>
    rw [exportName_of_not_endsWith h]
    exact List.suffix_append _ _

theorem isAbsolute_exportName (name extension : Text) :
    Path.isAbsolute (exportName name extension) = Path.isAbsolute name := by
  cases h : Text.endsWith name (.char '.' :: extension) with
  | true => rw [exportName_of_endsWith h]
  | false =>
    rw [exportName_of_not_endsWith h]
    cases name with
    | nil => rfl
    | cons p name => by_cases hp : p = .char '.' <;> simp [hp, Path.isAbsolute]

/-- An extension that takes the place of an end brings in the only point of the name. -/
theorem count_exportName (hpoint : .char '.' ∉ extension)
    (h : Text.endsWith name (.char '.' :: extension) = false) :
    (exportName name extension).count (.char '.') = 1 := by
  have hbefore : CodePoint.char '.' ∉ name.takeWhile fun p => decide (p ≠ .char '.') := by
    intro hmem
    have hne := List.mem_takeWhile_imp (p := fun p => decide (p ≠ CodePoint.char '.')) hmem
    exact absurd rfl (of_decide_eq_true hne)
  rw [exportName_of_not_endsWith h, List.count_append, List.count_eq_zero.2 hbefore, List.count_cons_self,
    List.count_eq_zero.2 hpoint]

theorem not_climbs_exportName_iff (hpoint : .char '.' ∉ extension) :
    ¬ Path.Climbs (Path.components (exportName name extension)) ↔
      (Text.endsWith name (.char '.' :: extension) = true → ¬ Path.Climbs (Path.components name)) := by
  cases h : Text.endsWith name (.char '.' :: extension) with
  | true => rw [exportName_of_endsWith h, forall_prop_of_true rfl]
  | false =>
    refine iff_of_true (Path.not_climbs_of_not_mem fun hmem => ?_) nofun
    have hle := (Text.sublist_of_mem_split hmem).count_le (.char '.')
    rw [count_exportName hpoint h] at hle
    exact absurd hle (by decide)

/-- An exported name ends in a name, that of a file with its extension. -/
theorem exists_last_exportName (name : Text) (hne : extension ≠ []) (hpoint : .char '.' ∉ extension)
    (hslash : .char '/' ∉ extension) :
    ∃ last, (Path.components (exportName name extension)).getLast? = some last ∧ Path.IsName last := by
  have hlast := List.getLast?_eq_some_getLast hne
  obtain ⟨front, hfront⟩ := suffix_exportName name extension
  refine Path.exists_last_isName (p := extension.getLast hne) ?_ ?_ ?_
  · rw [← hfront, List.getLast?_append_of_ne_nil _ (List.cons_ne_nil _ _), List.getLast?_cons, hlast]
    rfl
  · exact fun h => hslash (h ▸ List.getLast_mem hne)
  · exact fun h => hpoint (h ▸ List.getLast_mem hne)

/-- **The names of files that are exported into every directory.** -/
theorem forall_isInside_exportPath_iff (hne : extension ≠ []) (hpoint : .char '.' ∉ extension)
    (hslash : .char '/' ∉ extension) :
    (∀ directory, Path.isAbsolute directory = true →
      Path.IsInside directory (exportPath directory name extension)) ↔ StaysInside name extension := by
  obtain ⟨last, hlast, hname⟩ := exists_last_exportName name hne hpoint hslash
  simp only [exportPath]
  rw [Path.forall_isInside_join_iff hlast hname, isAbsolute_exportName, not_climbs_exportName_iff hpoint,
    StaysInside]

/-- A name without slashes is one of them: if it is kept, it is its own and only component. -/
theorem staysInside_of_not_mem (hne : extension ≠ []) (hpoint : .char '.' ∉ extension)
    (hslash : .char '/' ∉ extension) (h : .char '/' ∉ name) : StaysInside name extension := by
  refine ⟨?_, fun hends => Path.not_climbs_of_not_mem ?_⟩
  · by_contra habsolute
    obtain ⟨rest, rfl⟩ := Path.isAbsolute_iff.1 (Bool.not_eq_false _ ▸ habsolute)
    exact h List.mem_cons_self
  · obtain ⟨last, hlast, hname⟩ := exists_last_exportName name hne hpoint hslash
    rw [exportName_of_endsWith hends, Path.components, Text.split_of_not_mem h] at hlast
    obtain rfl : name = last := Option.some.inj hlast
    rw [Path.components, Text.split_of_not_mem h, List.mem_singleton]
    exact fun hup => hname.2.2 hup.symm

end exportName

namespace Session

variable {s : Session} {file : File} {w : Window} {extension : Value} {ext : Text}

/-! ### Exports of a session -/

/-- The extension of an export: that of the preferences unless one is given. -/
def extensionOf? (s : Session) (extension : Value) : Option Text :=
  (if extension.isGiven then extension else s.preferences.get "export_extension").text?

/-- An export comes to the script, to the directory being there, and to a file being writable in it: it fails as the
first of these does, and its content is the script. -/
theorem result_exportTo (hfile : s.activeFile? = some file) (hcontent : file.content = .window w)
    (hw : w.Encodable) (hext : s.extensionOf? extension = some ext)
    (provide : Text → Except Fault (Text → Found)) (directory : Text) :
    (s.exportTo provide directory extension).result = do
      let script ← s.code.result
      let find ← provide directory
      checkPath find (exportPath directory file.name ext)
      return ⟨exportPath directory file.name ext, script⟩ := by
  have hexport {u : Session} {script : Text} (hcode : s.code = u.answer script)
      (hactive : u.activeFile? = some file) (hu : u.extensionOf? extension = some ext) :
      (s.exportTo provide directory extension).result = do
        let script ← s.code.result
        let find ← provide directory
        checkPath find (exportPath directory file.name ext)
        return ⟨exportPath directory file.name ext, script⟩ := by
    rw [extensionOf?] at hu
    simp only [exportTo, hcode, answer_andThen, withActive, hactive, hu, result_answer]
    cases provide directory with
    | error f => rfl
    | ok find =>
      cases hcheck : checkPath find (exportPath directory file.name ext) <;>
        simp only [hcheck, bind, Except.bind] <;> rfl
  obtain ⟨d, -, ⟨script, -, hcode⟩ | ⟨script, -, hcode⟩ | ⟨f, -, hcode⟩⟩ :=
    code_eq (activeWindow?_of_activeFile? hfile hcontent) hw
  · exact hexport hcode hfile hext
  · exact hexport hcode hfile hext
  · rw [exportTo, hcode]
    rfl

/-- There is a script to be exported if the decimals of the active window can be written. -/
theorem exists_result_code (hactive : s.activeWindow? = some w) (hw : w.Encodable) (hwritable : w.Writable) :
    ∃ script, s.code.result = .ok script := by
  obtain ⟨d, -, ⟨script, -, hcode⟩ | ⟨script, -, hcode⟩ | ⟨f, hnone, -⟩⟩ := code_eq hactive hw
  · exact ⟨script, by rw [hcode, result_answer]⟩
  · exact ⟨script, by rw [hcode, result_answer]⟩
  · exact absurd hwritable (Window.scriptFrom_eq_error.1 hnone).1

/-- **Exports stay inside the directory, unless the name of the file leads out of it.** Begin a session with an
encodable file or none and make any calls, in which all windows that are brought in are encodable. Export the
active file with an extension that is not empty and has no point and no slash.

Whatever the directory is, the export comes to whether there is a script, whether the directory is there or can be
made, and whether then a file can be written at the path of the exported name in it. The content is the script,
which is that of the active window as long as no two windows whose script is read have one fingerprint and different
canonical JSON; there is one if the decimals of that window can be written.

For some names the path leads strictly into the directory, wherever the working directory is: for those without
slashes and, more generally, for those that are relative and do not climb if they are kept. For any other name
there is a directory that the export leaves. -/
theorem export_stays_inside_unless_name_leaves {given : Option File} {capacity : Value} {ids : IdSupply}
    {preferences : Preferences} {first : Session} (hbegin : begin given capacity ids preferences = .ok first)
    (hgiven : ∀ file ∈ given, file.content.Encodable) {calls : List Call}
    (hcalls : ∀ c ∈ calls, ∀ w ∈ c.windows, w.Encodable) {file : File} {w : Window}
    (hfile : (first.afterCalls calls).activeFile? = some file) (hcontent : file.content = .window w)
    {extension : Value} {ext : Text} (hext : (first.afterCalls calls).extensionOf? extension = some ext)
    (hne : ext ≠ []) (hpoint : .char '.' ∉ ext) (hslash : .char '/' ∉ ext) :
    (∀ provide directory, ((first.afterCalls calls).exportTo provide directory extension).result = do
      let script ← (first.afterCalls calls).code.result
      let find ← provide directory
      checkPath find (exportPath directory file.name ext)
      return ⟨exportPath directory file.name ext, script⟩) ∧
    (FingerprintsApart (first.windowsRead calls ++ [w]) → (first.afterCalls calls).code.result = w.script) ∧
    (w.Writable → ∃ script, (first.afterCalls calls).code.result = .ok script) ∧
    (StaysInside file.name ext → ∀ working directory, Path.isAbsolute working = true →
      Path.IsInside (Path.join working directory) (Path.join working (exportPath directory file.name ext))) ∧
    (¬ StaysInside file.name ext → ∃ directory, Path.isAbsolute directory = true ∧
      ¬ Path.IsInside directory (exportPath directory file.name ext)) ∧
    (.char '/' ∉ file.name → StaysInside file.name ext) := by
  have hfirst := encodable_of_begin hbegin hgiven
  have hactive := activeWindow?_of_activeFile? hfile hcontent
  have hw := (encodable_afterCalls hfirst hcalls).encodable_activeWindow hactive
  have hkept := cacheOf_of_begin hbegin hgiven hcalls
  have hinside : (∀ directory, Path.isAbsolute directory = true →
      Path.IsInside directory (exportPath directory file.name ext)) ↔ StaysInside file.name ext :=
    forall_isInside_exportPath_iff hne hpoint hslash
  refine ⟨result_exportTo hfile hcontent hw hext,
    result_code_of_cacheOf hactive hw (encodable_windowsRead hfirst hcalls) hkept,
    exists_result_code hactive hw, fun hstays working directory hworking => ?_, fun hleaves => ?_,
    staysInside_of_not_mem hne hpoint hslash⟩
  · have hdirectory : Path.isAbsolute (Path.join working directory) = true := by
      rw [Path.isAbsolute_join (Path.ne_nil_of_isAbsolute hworking), hworking, Bool.or_true]
    rw [exportPath, Path.join_assoc]
    exact hinside.2 hstays _ hdirectory
  · by_contra hall
    refine hleaves (hinside.1 fun directory hdirectory => ?_)
    by_contra hnot
    exact hall ⟨directory, hdirectory, hnot⟩

/-- The active file of a session on `exampleFile` is given a name. -/
def renamingRun (name : Text) : List Call := [.command (.renameFile (.text "f") (.text name))]

theorem encodable_exampleFile : exampleFile.content.Encodable :=
  ⟨by decide, List.forall_mem_singleton.2 ⟨by decide, by decide, nofun⟩⟩

/-- A name that goes into a directory, which is there, and out of it again stays inside. -/
theorem export_stays_inside_unless_name_leaves_and_back :
    ∃ first script, begin (some exampleFile) (.int 3) .initial .defaults = .ok first ∧
      StaysInside "tabs/../hub.lua" "lua" ∧ Path.IsInside "/tmp/out" "/tmp/out/tabs/../hub.lua" ∧
      Window.script ⟨"One", [⟨"a", "Main", []⟩]⟩ = .ok script ∧
      ((first.afterCalls (renamingRun "tabs/../hub.lua")).exportTo
        (Disk.provide ⟨"/tmp", [], [["tmp", "out", "tabs"]]⟩) "/tmp/out" .null).result =
        .ok ⟨"/tmp/out/tabs/../hub.lua", script⟩ := by
  have hgiven : ∀ file ∈ some exampleFile, file.content.Encodable := by
    rintro _ ⟨⟩
    exact encodable_exampleFile
  have hcalls : ∀ c ∈ renamingRun "tabs/../hub.lua", ∀ w ∈ c.windows, w.Encodable := by
    simp [renamingRun, Call.windows]
  have hstays : StaysInside "tabs/../hub.lua" "lua" := by decide
  obtain ⟨hexport, hcode, -, hinside, -⟩ :=
    @export_stays_inside_unless_name_leaves (some exampleFile) (.int 3) .initial .defaults _ rfl hgiven
      (renamingRun "tabs/../hub.lua") hcalls _ _ rfl rfl .null _ rfl (by decide) (by decide) (by decide)
  have hscript : Window.script ⟨"One", [⟨"a", "Main", []⟩]⟩ = .ok _ :=
    Window.scriptFrom_of_writable (by decide) _
  refine ⟨_, _, rfl, hstays, hinside hstays "/" "/tmp/out" rfl, hscript, ?_⟩
  rw [hexport, hcode, hscript]
  · rfl
  · -- nothing has been read before
    intro v hv v' hv' d _ _
    rw [List.mem_singleton.1 hv, List.mem_singleton.1 hv']

/-- A name that leads up from the directory is kept as well, and the export leaves it, although the directory was
only just made. -/
theorem export_leaves_directory :
    ∃ first, begin (some exampleFile) (.int 3) .initial .defaults = .ok first ∧
      (∃ script, ((first.afterCalls (renamingRun "../hub.lua")).exportTo
        (Disk.empty "/tmp").provide "/tmp/out" (.text "lua")).result = .ok ⟨"/tmp/out/../hub.lua", script⟩) ∧
      ¬ Path.IsInside "/tmp/out" "/tmp/out/../hub.lua" := by
  have hexport (s : Session) (hs : s.activeFile? = some ⟨"f", "../hub.lua", exampleFile.content⟩) :
      ∃ script, (s.exportTo (Disk.empty "/tmp").provide "/tmp/out" (.text "lua")).result =
        .ok ⟨"/tmp/out/../hub.lua", script⟩ := by
    obtain ⟨script, hscript⟩ :=
      exists_result_code (activeWindow?_of_activeFile? hs rfl) encodable_exampleFile (by decide)
    refine ⟨script, ?_⟩
    rw [result_exportTo hs rfl encodable_exampleFile rfl, hscript]
    rfl
  refine ⟨_, rfl, hexport _ rfl, ?_⟩
  rintro ⟨hpre, -⟩
  exact absurd hpre (by decide)

end Session

end GuiBuilder
