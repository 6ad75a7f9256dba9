import GuiBuilder.CommandLine.Run
import GuiBuilder.Proofs.Json.Limits
import GuiBuilder.Proofs.LineDiff.EditScript
import GuiBuilder.Proofs.Script.Encodable
import GuiBuilder.Proofs.Text.Utf8

/-!
# How a run ends

A run of a command reads its layouts in order. It succeeds if all of them load and the output can be written
(`Command.Succeeds`). A layout that loads has a script, since the reader of JSON refuses the decimals that cannot be
written, and the script has a UTF-8 form, since all texts of a checked window have one. Otherwise the run reports
the reason in one message, prints and writes nothing else, and ends with exit code 1.

The exception is a layout that the program has no message for: one that is not UTF-8, or that asks more of the
reader of JSON than it takes on (`Breaks`). The first of them breaks the run off, if all layouts before it load
(`run_reports_unless_layout_breaks`). One text that a run prints is none of the program's own: the name of the file
that was written. Where the output does not take it, the run is broken off although it succeeds.
-/

namespace GuiBuilder

/-! ### What is printed -/

/-- The issues of a window are findings about elements of its folders. -/
theorem Window.exists_of_mem_issuesAfter {seen : List Text} {l : List (Folder × Element)} {issue : Issue}
    (h : issue ∈ issuesAfter seen l) :
    ∃ f e seen', (f, e) ∈ l ∧ issue.finding ∈ e.findings seen' f := by
  induction l generalizing seen with
  | nil => cases h
  | cons placed l ih =>
    obtain ⟨f, e⟩ := placed
    rw [issuesAfter, List.mem_append] at h
    rcases h with h | h
    · obtain ⟨finding, hfinding, rfl⟩ := List.mem_map.1 h
      exact ⟨f, e, seen, List.mem_cons_self, hfinding⟩
    · obtain ⟨f', e', seen', hmem, hfinding⟩ := ih h
      exact ⟨f', e', seen', List.mem_cons_of_mem _ hmem, hfinding⟩

theorem Control.encodable_flag {c : Control} (hc : c.Encodable) {flag : Text} (h : c.flag? = some flag) :
    flag.Encodable := by
  cases c with
  | button => cases h
  | toggle flag' _ =>
    obtain rfl : flag' = flag := Option.some.inj h
    exact hc
  | slider flag' _ =>
    obtain rfl : flag' = flag := Option.some.inj h
    exact hc
  | dropdown flag' _ =>
    obtain rfl : flag' = flag := Option.some.inj h
    exact hc.1

theorem Element.encodable_message {e : Element} (he : e.Encodable) {f : Folder} (hf : f.Encodable)
    {seen : List Text} {finding : Finding} (h : finding ∈ e.findings seen f) : finding.message.Encodable := by
  simp only [findings, List.mem_append] at h
  rcases h with (h | h) | h
  · split at h
    · next flag hflag =>
      split at h
      · rw [List.mem_singleton.1 h]
        have hgiven : e.control.flag? = some flag := (Option.filter_eq_some_iff.1 hflag).1
        simp only [Finding.message, Text.encodable_append, Text.encodable_ofString, true_and, and_true]
        exact ⟨Control.encodable_flag he.control hgiven, he.text⟩
      · cases h
    · cases h
  · split at h
    · rw [List.mem_singleton.1 h]
      simp only [Finding.message, Text.encodable_append, Text.encodable_ofString, true_and, and_true]
      exact hf.text
    · cases h
  · split at h
    · rw [List.mem_singleton.1 h]
      simp only [Finding.message, Text.encodable_append, Text.encodable_ofString, true_and, and_true]
      exact he.text
    · cases h

/-- The messages about an encodable window are encodable. -/
theorem Window.encodable_message {w : Window} (hw : w.Encodable) {issue : Issue} (h : issue ∈ w.issues) :
    issue.finding.message.Encodable := by
  obtain ⟨f, e, seen, hmem, hfinding⟩ := exists_of_mem_issuesAfter h
  obtain ⟨f', hf', hplaced⟩ := List.mem_flatMap.1 hmem
  obtain ⟨e', he', hsame⟩ := List.mem_map.1 hplaced
  cases hsame
  exact Element.encodable_message ((hw.folders f hf').elements e he') (hw.folders f hf') hfinding

theorem encodable_analysisSummary (issues : List Issue) : (analysisSummary issues).Encodable := by
  unfold analysisSummary
  split
  · exact Text.encodable_ofString _
  · simp only [Text.encodable_append, Text.encodable_ofString, Text.encodable_ofNat, and_self]

theorem LineDiff.encodable_printed {old new : Text} (hold : old.Encodable) (hnew : new.Encodable) :
    (LineDiff.printed (LineDiff.between old new)).Encodable := by
  refine Text.encodable_join (Text.encodable_ofString _) (List.forall_mem_map.2 fun e he => ?_)
  refine Text.encodable_append.2 ⟨Text.encodable_ofString _, ?_⟩
  rcases line_mem_of_mem_between he with h | h
  · exact Text.encodable_of_mem_split hold h
  · exact Text.encodable_of_mem_split hnew h

namespace CommandLine

theorem encodable_printedLines {texts : List Text} (h : ∀ t ∈ texts, t.Encodable) :
    (printedLines texts).Encodable :=
  Text.encodable_flatMap fun t ht => Text.encodable_append.2 ⟨h t ht, by decide⟩

theorem encodable_changeSummary (entries : List LineDiff.Entry) : (changeSummary entries).Encodable := by
  simp only [changeSummary, Text.encodable_append, Text.encodable_ofString, Text.encodable_ofNat, and_self]

/-! ### Layouts -/

/-- The layout of a name is a window: a file in UTF-8, with JSON in it that passes the check. -/
def Loads (env : Environment) (name : Text) (w : Window) : Prop :=
  ∃ bytes t v, env.find name = .file bytes ∧ Text.ofUtf8? bytes = some t ∧
    Json.read env.depth (Text.unifyLineEnds t) = .ok v ∧ Window.ofValue v = .ok w

/-- The layout of a name is one that the program has no message for. -/
inductive Breaks (env : Environment) (name : Text) : Crash → Prop where
  /-- The file is not UTF-8. -/
  | undecodable {bytes : ByteArray} (hfound : env.find name = .file bytes) (hutf8 : Text.ofUtf8? bytes = none) :
      Breaks env name .undecodable
  /-- It has an integer of too many digits. -/
  | digits {bytes : ByteArray} {t : Text} {n : ℕ} (hfound : env.find name = .file bytes)
      (hutf8 : Text.ofUtf8? bytes = some t)
      (hread : Json.read env.depth (Text.unifyLineEnds t) = .error (.oversizedInteger n)) :
      Breaks env name (.oversizedInteger n)
  /-- It has a container that is nested too deeply. -/
  | depth {bytes : ByteArray} {t : Text} {container : Json.Container} (hfound : env.find name = .file bytes)
      (hutf8 : Text.ofUtf8? bytes = some t)
      (hread : Json.read env.depth (Text.unifyLineEnds t) = .error (.tooDeep container)) :
      Breaks env name (.tooDeep container)

/-- A file in UTF-8 that asks no more of a reader of JSON than it takes on: it has no more digits in a row than an
integer may have, and opens no more containers than may be nested. -/
def Moderate (depth : ℕ) (bytes : ByteArray) : Prop :=
  ∃ t, Text.ofUtf8? bytes = some t ∧ ¬ (Text.unifyLineEnds t).HasDigits (Numeral.maxIntegerDigits + 1) ∧
    (Text.unifyLineEnds t).countP CodePoint.opens ≤ depth

variable {env : Environment} {name : Text} {w : Window} {c : Crash} {failure : Failure}

theorem bytes_eq_ok {found : Found} {bytes : ByteArray} : found.bytes = .ok bytes ↔ found = .file bytes := by
  cases found <;> simp [Found.bytes]

theorem checkName_of_path (h : Path.refusal? name = none) : checkName name = .ok () := by
  rw [checkName, h]

/-- A layout loads exactly if it is a window. -/
theorem loadWindow_eq_ok_iff (h : Path.refusal? name = none) :
    loadWindow env name = .ok w ↔ Loads env name w := by
  simp only [loadWindow, checkName_of_path h, bind, Except.bind]
  constructor
  · intro hload
    split at hload
    · cases hload
    · next bytes hbytes =>
      split at hload
      · cases hload
      · next t ht =>
        split at hload
        · cases hload
        · cases hload
        · cases hload
        · next v hread =>
          split at hload
          · cases hload
          · next w' hchecked =>
            cases hload
            exact ⟨bytes, t, v, bytes_eq_ok.1 hbytes, ht, hread, Checked.as_eq_ok.1 hchecked⟩
  · rintro ⟨bytes, t, v, hfound, ht, hread, hchecked⟩
    rw [bytes_eq_ok.2 hfound]
    simp only [ht, hread, Checked.as_eq_ok.2 hchecked]

/-- Loading a layout breaks the run off exactly if there is no message for it. -/
theorem loadWindow_eq_crash_iff (h : Path.refusal? name = none) :
    loadWindow env name = .error (.crash c) ↔ Breaks env name c := by
  simp only [loadWindow, checkName_of_path h, bind, Except.bind]
  constructor
  · intro hload
    split at hload
    · cases hload
    · next bytes hbytes =>
      have hfound := bytes_eq_ok.1 hbytes
      split at hload
      · next hutf8 =>
        cases hload
        exact .undecodable hfound hutf8
      · next t ht =>
        split at hload
        · next hread =>
          cases hload
          exact .digits hfound ht hread
        · next hread =>
          cases hload
          exact .depth hfound ht hread
        · cases hload
        · split at hload <;> cases hload
  · intro hbreaks
    cases hbreaks with
    | undecodable hfound hutf8 =>
      rw [bytes_eq_ok.2 hfound]
      simp only [hutf8]
    | digits hfound hutf8 hread =>
      rw [bytes_eq_ok.2 hfound]
      simp only [hutf8, hread]
    | depth hfound hutf8 hread =>
      rw [bytes_eq_ok.2 hfound]
      simp only [hutf8, hread]

theorem Loads.encodable (h : Loads env name w) : w.Encodable := by
  obtain ⟨_, _, v, -, -, -, hchecked⟩ := h
  exact Window.encodable_of_ofValue hchecked

/-- The decimals of a layout that loads can be written: an integer that cannot is not read. -/
theorem Loads.writable (h : Loads env name w) : w.Writable := by
  obtain ⟨_, t, v, -, hutf8, hread, hchecked⟩ := h
  have ht := Text.encodable_unifyLineEnds (Text.encodable_of_ofUtf8? hutf8)
  exact Window.decimalsWithin_of_ofValue (Json.readable_of_readWithin ht hread) hchecked

/-- A layout that loads has a script. -/
theorem Loads.exists_compile (h : Loads env name w) : ∃ script, compile w = .ok script ∧ script.Encodable := by
  obtain ⟨script, hscript, hencodable⟩ := Window.exists_encodable_script h.encodable h.writable
  refine ⟨script, ?_, hencodable⟩
  rw [compile, hscript]
  rfl

/-- A moderate layout breaks nothing off. -/
theorem not_breaks_of_moderate (h : ∀ bytes, env.find name = .file bytes → Moderate env.depth bytes) :
    ¬ Breaks env name c := by
  intro hbreaks
  cases hbreaks with
  | undecodable hfound hutf8 =>
    obtain ⟨t, ht, -⟩ := h _ hfound
    rw [hutf8] at ht
    cases ht
  | digits hfound hutf8 hread =>
    obtain ⟨t, ht, hdigits, -⟩ := h _ hfound
    obtain rfl := Option.some.inj (hutf8.symm.trans ht)
    obtain ⟨hn, hrun⟩ := Json.hasDigits_of_readWithin hread
    exact hdigits (hrun.mono hn)
  | depth hfound hutf8 hread =>
    obtain ⟨t, ht, -, hdepth⟩ := h _ hfound
    obtain rfl := Option.some.inj (hutf8.symm.trans ht)
    exact absurd (Json.depth_lt_of_readWithin hread) (Nat.not_lt.2 hdepth)

/-! ### Several layouts -/

/-- Some layout is one that the program has no message for, and all layouts before it load. -/
inductive BreaksOff (env : Environment) : List Text → Crash → Prop where
  | here {name : Text} {rest : List Text} {c : Crash} (hbreaks : Breaks env name c) :
      BreaksOff env (name :: rest) c
  | later {name : Text} {rest : List Text} {w : Window} {c : Crash} (hloads : Loads env name w)
      (hrest : BreaksOff env rest c) : BreaksOff env (name :: rest) c

variable {names : List Text} {ws : List Window}

/-- Loading stops at the first layout that does not load. -/
theorem loadAll_cons_eq_error_iff : (name :: names).mapM (loadWindow env) = .error failure ↔
    loadWindow env name = .error failure ∨
      (∃ w, loadWindow env name = .ok w) ∧ names.mapM (loadWindow env) = .error failure := by
  rw [List.mapM_cons]
  cases loadWindow env name with
  | error other => simp [bind, Except.bind]
  | ok w => cases names.mapM (loadWindow env) <;> simp [bind, Except.bind, pure, Except.pure]

theorem loadAll_cons_eq_ok_iff : (name :: names).mapM (loadWindow env) = .ok ws ↔
    ∃ w rest, loadWindow env name = .ok w ∧ names.mapM (loadWindow env) = .ok rest ∧ ws = w :: rest := by
  rw [List.mapM_cons]
  cases loadWindow env name with
  | error other => simp [bind, Except.bind]
  | ok w => cases names.mapM (loadWindow env) <;> simp [bind, Except.bind, pure, Except.pure, eq_comm]

theorem loadAll_eq_ok_iff (h : ∀ name ∈ names, Path.refusal? name = none) :
    names.mapM (loadWindow env) = .ok ws ↔ List.Forall₂ (Loads env) names ws := by
  induction names generalizing ws with
  | nil => cases ws <;> simp [pure, Except.pure]
  | cons name names ih =>
    rw [List.forall_mem_cons] at h
    simp only [loadAll_cons_eq_ok_iff, loadWindow_eq_ok_iff h.1, ih h.2, List.forall₂_cons_left_iff]

theorem exists_forall₂_iff {α β : Type} {R : α → β → Prop} {l : List α} :
    (∃ bs, List.Forall₂ R l bs) ↔ ∀ a ∈ l, ∃ b, R a b := by
  induction l with
  | nil => simp
  | cons a l ih =>
    rw [List.forall_mem_cons, ← ih]
    constructor
    · rintro ⟨_, _ | ⟨hb, hbs⟩⟩
      exact ⟨⟨_, hb⟩, _, hbs⟩
    · rintro ⟨⟨b, hb⟩, bs, hbs⟩
      exact ⟨b :: bs, .cons hb hbs⟩

theorem loadAll_eq_crash_iff (h : ∀ name ∈ names, Path.refusal? name = none) :
    names.mapM (loadWindow env) = .error (.crash c) ↔ BreaksOff env names c := by
  induction names with
  | nil => exact ⟨nofun, nofun⟩
  | cons name names ih =>
    rw [List.forall_mem_cons] at h
    simp only [loadAll_cons_eq_error_iff, loadWindow_eq_ok_iff h.1, loadWindow_eq_crash_iff h.1, ih h.2]
    constructor
    · rintro (hbreaks | ⟨⟨w, hloads⟩, hrest⟩)
      · exact .here hbreaks
      · exact .later hloads hrest
    · rintro (hbreaks | ⟨hloads, hrest⟩)
      · exact .inl hbreaks
      · exact .inr ⟨⟨_, hloads⟩, hrest⟩

theorem not_breaksOff (h : ∀ name ∈ names, ∀ c, ¬ Breaks env name c) : ¬ BreaksOff env names c := by
  intro hbreaks
  induction hbreaks with
  | here hbreaks => exact h _ List.mem_cons_self _ hbreaks
  | later hloads hrest ih => exact ih fun name hname => h name (List.mem_cons_of_mem _ hname)

/-! ### Commands -/

/-- The file that a command is to write, if it is given one that is not empty. -/
def Command.output? : Command → Option Text
  | generate _ output => output.filter fun name => !name.isEmpty
  | diff .. | check _ => none

/-- The arguments of a command are paths, and a difference is between two layouts. -/
structure Command.WellFormed (command : Command) : Prop where
  layouts : ∀ name ∈ command.layouts, Path.refusal? name = none
  output : ∀ name ∈ command.output?, Path.refusal? name = none
  both : ∀ old, command ≠ .diff old none

/-- All layouts load, and the output can be written. -/
structure Command.Succeeds (env : Environment) (command : Command) : Prop where
  loads : ∀ name ∈ command.layouts, ∃ w, Loads env name w
  writable : ∀ name ∈ command.output?, (env.find name).writable = .ok ()

/-- What is written goes to the output of a command, and has a UTF-8 form. The name of the output is printed then;
what is printed otherwise has a UTF-8 form. -/
structure Product.Fits (p : Product) (command : Command) : Prop where
  written : p.written.map Written.name = command.output?
  content : ∀ written ∈ p.written, written.content.Encodable
  announced : ∀ name ∈ command.output?, p.printed = announcement name
  printed : command.output? = none → p.printed.Encodable

variable {command : Command}

/-- What stops the loading of the layouts ends the command. -/
theorem execute_of_error (hwell : command.WellFormed)
    (h : command.layouts.mapM (loadWindow env) = .error failure) : execute env command = .error failure := by
  cases command with
  | generate layout output =>
    obtain hload | ⟨-, ⟨⟩⟩ := loadAll_cons_eq_error_iff.1 h
    rw [execute, hload]
    rfl
  | diff old new =>
    cases new with
    | none => exact absurd rfl (hwell.both old)
    | some new =>
      obtain hold | ⟨⟨v, hold⟩, h⟩ := loadAll_cons_eq_error_iff.1 h
      · rw [execute, hold]
        rfl
      · obtain hnew | ⟨-, ⟨⟩⟩ := loadAll_cons_eq_error_iff.1 h
        -- the script of the old layout is made before the new one is loaded, and that does not fail
        have hloads := (loadWindow_eq_ok_iff (hwell.layouts old List.mem_cons_self)).1 hold
        obtain ⟨script, hscript, -⟩ := hloads.exists_compile
        simp only [execute, hold, hscript, hnew, bind, Except.bind]
  | check layout =>
    obtain hload | ⟨-, ⟨⟩⟩ := loadAll_cons_eq_error_iff.1 h
    rw [execute, hload]
    rfl

variable {v : Window} {layout old new script oldScript newScript : Text}

/-- The script of a layout is printed where no file is given for it. -/
theorem execute_generate_printed {output : Option Text} (hw : loadWindow env layout = .ok w)
    (hscript : compile w = .ok script) (houtput : Command.output? (.generate layout output) = none) :
    execute env (.generate layout output) = .ok ⟨script, none⟩ := by
  rw [Command.output?] at houtput
  simp only [execute, hw, hscript, bind, Except.bind, houtput]

/-- Otherwise it is written there, if that can be done. -/
theorem execute_generate_written {output : Option Text} (hw : loadWindow env layout = .ok w)
    (hscript : compile w = .ok script) (houtput : Command.output? (.generate layout output) = some name)
    (hpath : Path.refusal? name = none) :
    execute env (.generate layout output) =
      match (env.find name).writable with
      | .error e => .error (.path e name)
      | .ok () => .ok ⟨announcement name, some ⟨name, script⟩⟩ := by
  rw [Command.output?] at houtput
  cases hwritable : (env.find name).writable <;>
    simp only [execute, hw, hscript, bind, Except.bind, houtput, checkName_of_path hpath, hwritable]

theorem execute_diff (hv : loadWindow env old = .ok v) (hold : compile v = .ok oldScript)
    (hw : loadWindow env new = .ok w) (hnew : compile w = .ok newScript) :
    execute env (.diff old (some new)) =
      .ok ⟨printedLines [LineDiff.printed (LineDiff.between oldScript newScript), [],
        changeSummary (LineDiff.between oldScript newScript)], none⟩ := by
  simp only [execute, hv, hold, hw, hnew, bind, Except.bind]

theorem execute_check (hw : loadWindow env layout = .ok w) :
    execute env (.check layout) =
      .ok ⟨printedLines (w.issues.map (fun issue => Text.ofString "WARN: " ++ issue.finding.message)
        ++ [analysisSummary w.issues]), none⟩ := by
  simp only [execute, hw, bind, Except.bind]

/-- What only prints fits a command without an output. -/
theorem Product.fits_printed {printed : Text} (houtput : command.output? = none) (h : printed.Encodable) :
    (Product.mk printed none).Fits command where
  written := houtput.symm
  content := nofun
  announced := by
    rw [houtput]
    exact nofun
  printed _ := h

theorem Product.fits_written (houtput : command.output? = some name) (h : script.Encodable) :
    (Product.mk (announcement name) (some ⟨name, script⟩)).Fits command where
  written := houtput.symm
  content := by
    rintro _ ⟨⟩
    exact h
  announced := by
    rw [houtput]
    rintro _ ⟨⟩
    rfl
  printed hnone := by
    rw [houtput] at hnone
    cases hnone

/-- Where the layouts load, the command ends well unless its output cannot be written. -/
theorem execute_of_loads (hwell : command.WellFormed) (h : List.Forall₂ (Loads env) command.layouts ws) :
    ((∀ name ∈ command.output?, (env.find name).writable = .ok ()) ∧
      ∃ p : Product, execute env command = .ok p ∧ p.Fits command) ∨
    ∃ name ∈ command.output?, ∃ e, (env.find name).writable = .error e ∧
      execute env command = .error (.path e name) := by
  have hload {name : Text} {w : Window} (hname : name ∈ command.layouts) (hw : Loads env name w) :
      loadWindow env name = .ok w := (loadWindow_eq_ok_iff (hwell.layouts name hname)).2 hw
  cases command with
  | generate layout output =>
    obtain ⟨w, -, hw, -, -⟩ := List.forall₂_cons_left_iff.1 h
    obtain ⟨script, hscript, hencodable⟩ := hw.exists_compile
    have hlayout := hload List.mem_cons_self hw
    cases houtput : Command.output? (.generate layout output) with
    | none =>
      exact .inl ⟨nofun, _, execute_generate_printed hlayout hscript houtput,
        Product.fits_printed houtput hencodable⟩
    | some name =>
      rw [execute_generate_written hlayout hscript houtput (hwell.output name houtput)]
      cases hwritable : (env.find name).writable with
      | error e => exact .inr ⟨name, rfl, e, hwritable, rfl⟩
      | ok u =>
        refine .inl ⟨?_, _, rfl, Product.fits_written houtput hencodable⟩
        rintro _ ⟨⟩
        exact hwritable
  | diff old new =>
    cases new with
    | none => exact absurd rfl (hwell.both old)
    | some new =>
      obtain ⟨v, rest, hv, hrest, -⟩ := List.forall₂_cons_left_iff.1 h
      obtain ⟨w, -, hw, -, -⟩ := List.forall₂_cons_left_iff.1 hrest
      obtain ⟨oldScript, hold, holdEncodable⟩ := hv.exists_compile
      obtain ⟨newScript, hnew, hnewEncodable⟩ := hw.exists_compile
      have hnewLayout := hload (List.mem_cons_of_mem _ List.mem_cons_self) hw
      refine .inl ⟨nofun, _, execute_diff (hload List.mem_cons_self hv) hold hnewLayout hnew,
        Product.fits_printed rfl (encodable_printedLines ?_)⟩
      simp only [List.forall_mem_cons]
      exact ⟨LineDiff.encodable_printed holdEncodable hnewEncodable, Text.encodable_nil,
        encodable_changeSummary _, nofun⟩
  | check layout =>
    obtain ⟨w, -, hw, -, -⟩ := List.forall₂_cons_left_iff.1 h
    refine .inl ⟨nofun, _, execute_check (hload List.mem_cons_self hw),
      Product.fits_printed rfl (encodable_printedLines ?_)⟩
    refine List.forall_mem_append.2 ⟨?_, List.forall_mem_singleton.2 (encodable_analysisSummary _)⟩
    refine List.forall_mem_map.2 fun issue hissue => ?_
    exact Text.encodable_append.2 ⟨Text.encodable_ofString _, Window.encodable_message hw.encodable hissue⟩

/-- A command is broken off exactly by a layout. -/
theorem execute_eq_crash_iff (hwell : command.WellFormed) :
    execute env command = .error (.crash c) ↔ BreaksOff env command.layouts c := by
  rw [← loadAll_eq_crash_iff hwell.layouts]
  refine ⟨fun h => ?_, execute_of_error hwell⟩
  cases hload : command.layouts.mapM (loadWindow env) with
  | error failure =>
    have hsame := (execute_of_error hwell hload).symm.trans h
    rw [Except.error.inj hsame]
  | ok ws =>
    obtain ⟨-, p, hp, -⟩ | ⟨name, -, e, -, hpath⟩ :=
      execute_of_loads hwell ((loadAll_eq_ok_iff hwell.layouts).1 hload)
    · rw [h] at hp
      cases hp
    · rw [h] at hpath
      cases hpath

/-- A command ends well if it succeeds, and fails otherwise. -/
theorem succeeds_or_fails (hwell : command.WellFormed) (env : Environment) :
    (command.Succeeds env ∧ ∃ p : Product, execute env command = .ok p ∧ p.Fits command) ∨
    ¬ command.Succeeds env ∧ ∃ failure, execute env command = .error failure := by
  cases hload : command.layouts.mapM (loadWindow env) with
  | error failure =>
    refine .inr ⟨fun hsucceeds => ?_, failure, execute_of_error hwell hload⟩
    obtain ⟨ws, hws⟩ := exists_forall₂_iff.2 hsucceeds.loads
    rw [(loadAll_eq_ok_iff hwell.layouts).2 hws] at hload
    cases hload
  | ok ws =>
    have hloads := (loadAll_eq_ok_iff hwell.layouts).1 hload
    obtain ⟨hwritable, hdone⟩ | ⟨name, hname, e, he, hexecute⟩ := execute_of_loads hwell hloads
    · exact .inl ⟨⟨exists_forall₂_iff.1 ⟨ws, hloads⟩, hwritable⟩, hdone⟩
    · refine .inr ⟨fun hsucceeds => ?_, .path e name, hexecute⟩
      rw [hsucceeds.writable name hname] at he
      cases he

/-! ### Runs -/

section Run

variable {arguments : List Text}

/-- What the output takes of a command that succeeds: everything that has a UTF-8 form, and so all that is printed
but the name of the file that was written. -/
theorem Product.Fits.takes {p : Product} (hfits : p.Fits command)
    (htakes : ∀ t : Text, t.Encodable → env.takes t = true)
    (hname : ∀ name ∈ command.output?, env.takes (announcement name) = true) : env.takes p.printed = true := by
  cases houtput : command.output? with
  | none => exact htakes _ (hfits.printed houtput)
  | some name =>
    rw [hfits.announced name houtput]
    exact hname name houtput

theorem Product.Fits.exists_written {p : Product} (hfits : p.Fits command) (houtput : command.output? = some name) :
    ∃ content, content.Encodable ∧ p.written = some ⟨name, content⟩ := by
  have hwritten := hfits.written
  rw [houtput] at hwritten
  obtain ⟨written, hsome, rfl⟩ := Option.map_eq_some_iff.1 hwritten
  exact ⟨written.content, hfits.content written hsome, hsome⟩

/-- A command that succeeds makes something, and then all depends on whether the output takes what is printed. -/
theorem run_of_succeeds (hread : read arguments = .ok command) (hwell : command.WellFormed)
    (h : command.Succeeds env) : ∃ p : Product, p.Fits command ∧ run env arguments =
      if env.takes p.printed then .finished 0 p.printed [] p.written else .crashed .unprintable p.written := by
  obtain ⟨-, p, hexecute, hfits⟩ | ⟨hfails, -⟩ := succeeds_or_fails hwell env
  · refine ⟨p, hfits, ?_⟩
    rw [run, hread]
    simp only [hexecute]
  · exact absurd h hfails

theorem run_of_breaksOff (hread : read arguments = .ok command) (hwell : command.WellFormed)
    (h : BreaksOff env command.layouts c) : run env arguments = .crashed c none := by
  rw [run, hread]
  simp only [(execute_eq_crash_iff hwell).2 h]

/-- A command that fails is broken off by a layout, or reports why. -/
theorem run_of_not_succeeds (hread : read arguments = .ok command) (hwell : command.WellFormed)
    (h : ¬ command.Succeeds env) :
    (∃ c, BreaksOff env command.layouts c ∧ run env arguments = .crashed c none) ∨
    (∀ c, ¬ BreaksOff env command.layouts c) ∧
      ∃ message, run env arguments = .finished 1 [] (printedLines ["ERROR: " ++ message]) none := by
  obtain ⟨hsucceeds, -⟩ | ⟨-, failure, hexecute⟩ := succeeds_or_fails hwell env
  · exact absurd hsucceeds h
  · by_cases hbreaks : ∃ c, BreaksOff env command.layouts c
    · obtain ⟨c, hc⟩ := hbreaks
      exact .inl ⟨c, hc, run_of_breaksOff hread hwell hc⟩
    · refine .inr ⟨fun c hc => hbreaks ⟨c, hc⟩, failure.message, ?_⟩
      have hreported : ∀ c, failure ≠ .crash c := by
        rintro c rfl
        exact hbreaks ⟨c, (execute_eq_crash_iff hwell).1 hexecute⟩
      rw [run, hread]
      simp only [hexecute]

/-- Only a command that succeeds ends in another way. -/
theorem succeeds_of_run (hread : read arguments = .ok command) (hwell : command.WellFormed)
    (hbroken : ∀ c, run env arguments ≠ .crashed c none)
    (hreported : ∀ message, run env arguments ≠ .finished 1 [] message none) : command.Succeeds env := by
  by_contra hfails
  obtain ⟨c, -, hrun⟩ | ⟨-, message, hrun⟩ := run_of_not_succeeds hread hwell hfails
  · exact hbroken c hrun
  · exact hreported _ hrun

/-- Only a layout breaks a run off before anything is written. -/
theorem breaksOff_of_run (hread : read arguments = .ok command) (hwell : command.WellFormed)
    (htakes : ∀ t : Text, t.Encodable → env.takes t = true) (hrun : run env arguments = .crashed c none) :
    BreaksOff env command.layouts c := by
  by_cases hsucceeds : command.Succeeds env
  · obtain ⟨p, hfits, hp⟩ := run_of_succeeds hread hwell hsucceeds
    rw [hrun] at hp
    split at hp
    · cases hp
    · next huntaken =>
      -- what is not taken is the name of a file, and the file has been written
      refine absurd (hfits.takes htakes fun name houtput => ?_) huntaken
      obtain ⟨content, -, hwritten⟩ := hfits.exists_written houtput
      rw [hwritten] at hp
      cases hp
  · obtain ⟨c', hbreaks, hp⟩ | ⟨-, message, hp⟩ := run_of_not_succeeds hread hwell hsucceeds
    · rw [hrun] at hp
      cases hp
      exact hbreaks
    · rw [hrun] at hp
      cases hp

end Run

/-- **A run reports what is wrong, unless a layout breaks it off.** Take any well-formed command and whatever is
found at any path, an output that takes every text with a UTF-8 form, and a reader of JSON that takes containers of
any depth.

The run breaks off before anything is written exactly if there is a layout that is not UTF-8 or asks more of the
reader of JSON than it takes on, and all layouts before it load. No moderate layout does so.

It ends with exit code 0 exactly if all layouts load and the output can be written, where the output takes the name
of the file that is written. Then it prints no message, writes the file and nothing else, and what it writes has a
UTF-8 form. Where the name is not taken, the run breaks off in the same cases, and the file has been written.

In all other cases it ends with exit code 1 and one message, and prints and writes nothing else. -/
theorem run_reports_unless_layout_breaks {arguments : List Text} {command : Command}
    (hread : read arguments = .ok command) (hwell : command.WellFormed) (env : Environment)
    (htakes : ∀ t : Text, t.Encodable → env.takes t = true) :
    (∀ c, run env arguments = .crashed c none ↔ BreaksOff env command.layouts c) ∧
    ((∀ name ∈ command.layouts, ∀ bytes, env.find name = .file bytes → Moderate env.depth bytes) →
      ∀ c, ¬ BreaksOff env command.layouts c) ∧
    ((∀ name ∈ command.output?, env.takes (announcement name) = true) →
      (command.Succeeds env ↔
        ∃ p : Product, run env arguments = .finished 0 p.printed [] p.written ∧ p.Fits command)) ∧
    (∀ name ∈ command.output?, env.takes (announcement name) = false →
      (command.Succeeds env ↔
        ∃ content, content.Encodable ∧ run env arguments = .crashed .unprintable (some ⟨name, content⟩))) ∧
    ((∀ c, ¬ BreaksOff env command.layouts c) → ¬ command.Succeeds env →
      ∃ message, run env arguments = .finished 1 [] (printedLines ["ERROR: " ++ message]) none) := by
  refine ⟨fun c => ⟨breaksOff_of_run hread hwell htakes, run_of_breaksOff hread hwell⟩, fun hmoderate c => ?_,
    fun hname => ⟨fun hsucceeds => ?_, ?_⟩, fun name houtput huntaken => ⟨fun hsucceeds => ?_, ?_⟩,
    fun hsafe hfails => ?_⟩
  · exact not_breaksOff fun name hname c => not_breaks_of_moderate (hmoderate name hname)
  · obtain ⟨p, hfits, hp⟩ := run_of_succeeds hread hwell hsucceeds
    rw [if_pos (hfits.takes htakes hname)] at hp
    exact ⟨p, hp, hfits⟩
  · rintro ⟨p, hrun, -⟩
    refine succeeds_of_run hread hwell ?_ ?_ <;>
    · rw [hrun]
      exact nofun
  · obtain ⟨p, hfits, hp⟩ := run_of_succeeds hread hwell hsucceeds
    obtain ⟨content, hcontent, hwritten⟩ := hfits.exists_written houtput
    rw [hfits.announced name houtput, huntaken, if_neg Bool.false_ne_true, hwritten] at hp
    exact ⟨content, hcontent, hp⟩
  · rintro ⟨content, -, hrun⟩
    refine succeeds_of_run hread hwell ?_ ?_ <;>
    · rw [hrun]
      exact nofun
  · obtain ⟨c, hbreaks, -⟩ | ⟨-, hreported⟩ := run_of_not_succeeds hread hwell hfails
    · exact absurd hbreaks (hsafe c)
    · exact hreported

/-- An environment with an output in UTF-8, in which some files are found. -/
def plainEnvironment (find : Text → Found) : Environment where
  find := find
  depth := 991
  takes t := decide t.Encodable

/-- Layouts that are not there are reported. -/
theorem run_reports_unless_layout_breaks_missing :
    (∀ t : Text, t.Encodable → (plainEnvironment fun _ => .absent).takes t = true) ∧
    ∃ message, run (plainEnvironment fun _ => .absent) ["diff", "a.json", "b.json"] =
      .finished 1 [] (printedLines ["ERROR: " ++ message]) none := by
  have htakes : ∀ t : Text, t.Encodable → (plainEnvironment fun _ => .absent).takes t = true :=
    fun t ht => decide_eq_true ht
  have hread : read ["diff", "a.json", "b.json"] = .ok (.diff "a.json" (some "b.json")) := by decide
  have hwell : Command.WellFormed (.diff "a.json" (some "b.json")) := ⟨by decide, nofun, nofun⟩
  obtain ⟨-, hmoderate, -, -, hfails⟩ := run_reports_unless_layout_breaks hread hwell _ htakes
  refine ⟨htakes, hfails (hmoderate fun _ _ _ => nofun) ?_⟩
  rintro ⟨hloads, -⟩
  obtain ⟨w, bytes, t, v, hfound, -⟩ := hloads "a.json" List.mem_cons_self
  cases hfound

/-- A layout of one byte that is not UTF-8 is not reported. -/
theorem run_breaks_on_undecodable :
    run (plainEnvironment fun _ => .file ⟨#[0xFF]⟩) ["check", "a.json"] = .crashed .undecodable none := by
  decide

end CommandLine

end GuiBuilder
