import GuiBuilder.Proofs.Session.Deletion
import GuiBuilder.Workbench

/-!
# Reports are applied once, in order, as ordinary edits

Between the start of a task and the processing of its report the host goes on editing, and the worker takes
the tasks whenever it likes (`Workbench.Event`). Tasks and reports wait in two lines, each a first in, first
out one, so that no report is lost, repeated or overtaken: the reports that wait and those still to come of
the tasks that wait are always those of all tasks, in order (`Workbench.reports_after`).

What processing one report makes of a session is said by `Session.Processes`: a window that is proposed for
an open file is pushed (`Report.applyTo`), and one for a file that has been closed meanwhile is not; the chat
gains what the assistant says, the console one entry at most, and the session is no longer busy. No report of
a task stops the processing, so that a whole queue is processed by the same law
(`Session.processAll_reports`).
-/

namespace GuiBuilder

/-! ### What a report asks for -/

namespace Report

/-- It is the report in which some task ends. -/
def OfTask (r : Report) : Prop := ∃ t : Task, t.report = r

/-- The edit that a report asks for. -/
def edit? : Report → Option Command
  | proposal file w _ => some (.applyWindow (.text file) w)
  | reply _ | saved _ | failed _ | data _ => none

/-- What the assistant says in a report. -/
def message? : Report → Option ChatMessage
  | proposal _ _ text | reply text => some ⟨assistantRole, .text text⟩
  | saved _ | failed _ | data _ => none

/-- What is logged of a report where these files are open. -/
def logged? (tabs : Tabs) : Report → Option LogEntry
  | proposal file _ text =>
    some (if (Tabs.file? tabs file).isSome then ⟨.success, text⟩ else ⟨.error, "File not found."⟩)
  | saved message => some ⟨.success, message⟩
  | failed message => some ⟨.error, "ERROR: " ++ message⟩
  | reply _ | data _ => none

/-- The tabs with a window in the files of an id. -/
def put (tabs : Tabs) (id : Text) (w : Window) : Tabs :=
  Tabs.change tabs id fun file => { file with content := .window w }

/-- The history after a report: a window that is proposed for an open file is pushed. -/
def applyTo (h : History Tabs) : Report → History Tabs
  | proposal file w _ => if (Tabs.file? h.current file).isSome then h.push (put h.current file w) else h
  | reply _ | saved _ | failed _ | data _ => h

theorem isSome_file?_put (tabs : Tabs) (id : Text) (w : Window) (t : Text) :
    (Tabs.file? (put tabs id w) t).isSome = (Tabs.file? tabs t).isSome := by
  rw [put, Tabs.file?_change]
  · rw [Option.isSome_map]
  · intro file
    rfl

theorem capacity_applyTo (h : History Tabs) (r : Report) : (r.applyTo h).capacity = h.capacity := by
  cases r with
  | proposal file w text =>
    rw [applyTo]
    split <;> rfl
  | reply _ | saved _ | failed _ | data _ => rfl

/-- A report opens and closes no file. -/
theorem isSome_file?_applyTo (h : History Tabs) (r : Report) (t : Text) :
    (Tabs.file? (r.applyTo h).current t).isSome = (Tabs.file? h.current t).isSome := by
  cases r with
  | proposal file w text =>
    rw [applyTo]
    split
    · rw [History.current_push, isSome_file?_put]
    · rfl
  | reply _ | saved _ | failed _ | data _ => rfl

theorem capacity_foldl_applyTo (reports : List Report) (h : History Tabs) :
    (reports.foldl applyTo h).capacity = h.capacity := by
  induction reports generalizing h with
  | nil => rfl
  | cons r rest ih => rw [List.foldl_cons, ih, capacity_applyTo]

theorem isSome_file?_foldl_applyTo (reports : List Report) (h : History Tabs) (t : Text) :
    (Tabs.file? (reports.foldl applyTo h).current t).isSome = (Tabs.file? h.current t).isSome := by
  induction reports generalizing h with
  | nil => rfl
  | cons r rest ih => rw [List.foldl_cons, ih, isSome_file?_applyTo]

/-- What is logged depends on nothing but which files are open. -/
theorem logged?_congr {tabs tabs' : Tabs}
    (h : ∀ t, (Tabs.file? tabs t).isSome = (Tabs.file? tabs' t).isSome) : logged? tabs = logged? tabs' := by
  funext r
  cases r with
  | proposal file w text => rw [logged?, logged?, h]
  | reply _ | saved _ | failed _ | data _ => rfl

/-- No task ends in data. -/
theorem not_ofTask_data (v : Value) : ¬ (data v).OfTask := by
  rintro ⟨t, ht⟩
  cases t with
  | propose engine file request =>
    cases engine with
    | none => cases ht
    | some engine =>
      simp only [Task.report] at ht
      split at ht
      · cases ht
      · split at ht <;> cases ht
  | save store name content =>
    cases store with
    | none => cases ht
    | some store =>
      simp only [Task.report] at ht
      split at ht <;> cases ht
  | failing name message => cases ht

end Report

/-! ### Processing -/

namespace Session

variable {s t u : Session} {r : Report} {reports : List Report}

/-- What processing some reports of tasks makes of a session. -/
structure Processes (s : Session) (reports : List Report) (t : Session) : Prop where
  history : t.history = reports.foldl Report.applyTo s.history
  chat : t.chat = s.chat ++ reports.filterMap Report.message?
  entries : t.console.entries = s.console.entries ++ reports.filterMap (Report.logged? s.files)
  busy : t.busy = (s.busy && reports.isEmpty)

theorem Processes.nil (s : Session) : s.Processes [] s where
  history := rfl
  chat := by simp
  entries := by simp
  busy := by simp

/-- Reports that are processed after others are processed together with them. -/
theorem Processes.trans {reports' : List Report} (h : s.Processes reports t) (h' : t.Processes reports' u) :
    s.Processes (reports ++ reports') u where
  history := by rw [h'.history, h.history, List.foldl_append]
  chat := by rw [h'.chat, h.chat, List.filterMap_append, List.append_assoc]
  entries := by
    have hopen : Report.logged? t.files = Report.logged? s.files := by
      apply Report.logged?_congr
      intro id
      rw [files, h.history, Report.isSome_file?_foldl_applyTo]
      rfl
    rw [h'.entries, h.entries, hopen, List.filterMap_append, List.append_assoc]
  busy := by
    have hempty : (reports ++ reports').isEmpty = (reports.isEmpty && reports'.isEmpty) := by
      cases reports <;> rfl
    rw [h'.busy, h.busy, hempty, Bool.and_assoc]

/-- A window is put into an open file, and for any other there is an entry in the log. -/
theorem applyWindow_text (hstalls : s.history.stalls = false) (id : Text) (w : Window) :
    s.applyWindow (.text id) w = if (Tabs.file? s.files id).isSome then (s.withWindowPushed id w).answer true
      else (s.log .error "File not found.").answer false := by
  have hnamed : s.fileNamed? (.text id) = Tabs.file? s.files id := rfl
  rw [applyWindow, applyContent, hnamed]
  cases hfile : Tabs.file? s.files id with
  | none => rfl
  | some file =>
    have hid : file.id = id := by simpa using List.find?_some hfile
    simp only [replaceContent, commit, hstalls, hid]
    rfl

/-- **Processing a report of a task** answers, and does what the report asks for. -/
theorem processes_report (hr : r.OfTask) (hstalls : s.history.stalls = false) :
    ∃ t, s.process r = t.answer () ∧ s.Processes [r] t := by
  cases r with
  | proposal file w text =>
    set entries := [Report.proposal file w text].filterMap (Report.logged? s.files) with hentries
    rw [process, applyWindow_text hstalls]
    by_cases hopen : (Tabs.file? s.files file).isSome = true
    · have hentry : entries = [⟨.success, text⟩] := by simp [hentries, Report.logged?, hopen]
      rw [if_pos hopen, answer_andThen, if_pos rfl]
      exact ⟨_, rfl, (if_pos hopen).symm, rfl, congrArg _ hentry.symm, (Bool.and_false _).symm⟩
    · have hentry : entries = [⟨.error, "File not found."⟩] := by simp [hentries, Report.logged?, hopen]
      rw [if_neg hopen, answer_andThen, if_neg Bool.false_ne_true]
      exact ⟨_, rfl, (if_neg hopen).symm, rfl, congrArg _ hentry.symm, (Bool.and_false _).symm⟩
  | reply text => exact ⟨_, rfl, rfl, rfl, (List.append_nil _).symm, (Bool.and_false _).symm⟩
  | saved message => exact ⟨_, rfl, rfl, (List.append_nil _).symm, rfl, (Bool.and_false _).symm⟩
  | failed message => exact ⟨_, rfl, rfl, (List.append_nil _).symm, rfl, (Bool.and_false _).symm⟩
  | data v => exact absurd hr (Report.not_ofTask_data v)

/-- No processing changes the capacity. -/
theorem Processes.capacity (h : s.Processes reports t) : t.history.capacity = s.history.capacity := by
  rw [h.history, Report.capacity_foldl_applyTo]

/-- **A whole queue is processed in order, to its end.** -/
theorem processAll_reports (hreports : ∀ r ∈ reports, r.OfTask)
    (hcapacity : ∀ k, s.history.capacity ≠ .bound k) :
    ∃ t, s.processAll reports = (t.answer (), []) ∧ s.Processes reports t := by
  induction reports generalizing s with
  | nil => exact ⟨s, rfl, .nil s⟩
  | cons r rest ih =>
    rw [List.forall_mem_cons] at hreports
    obtain ⟨t, ht, hone⟩ := processes_report hreports.1 (History.stalls_eq_false hcapacity)
    rw [← hone.capacity] at hcapacity
    obtain ⟨u, hu, hothers⟩ := ih hreports.2 hcapacity
    refine ⟨u, ?_, hone.trans hothers⟩
    rw [processAll, ht, answer]
    exact hu

/-- A proposed window is one push of its own if the file is open, and none otherwise. -/
theorem history_proposal {before : List Report} {file text : Text} {w : Window}
    (hreports : ∀ r ∈ before ++ [.proposal file w text], r.OfTask)
    (hcapacity : ∀ k, s.history.capacity ≠ .bound k) :
    let t := (s.processAll before).1.session
    let u := (s.processAll (before ++ [.proposal file w text])).1.session
    t.history.capacity = s.history.capacity ∧
    (Tabs.file? s.files file = none → u.history = t.history) ∧
    (Tabs.file? s.files file ≠ none →
      u.history = t.history.push u.files ∧ u.files = Report.put t.files file w) := by
  obtain ⟨t, ht, hbefore⟩ := processAll_reports (List.forall_mem_append.1 hreports).1 hcapacity
  obtain ⟨u, hu, hall⟩ := processAll_reports hreports hcapacity
  rw [ht, hu]
  show t.history.capacity = _ ∧ (_ → u.history = t.history) ∧ (_ → u.history = t.history.push u.files ∧ _)
  have hstep : u.history = (Report.proposal file w text).applyTo t.history := by
    rw [hall.history, List.foldl_append, hbefore.history]
    rfl
  -- which files are open has been the same since the processing began
  have hopen : (Tabs.file? t.history.current file).isSome = (Tabs.file? s.files file).isSome := by
    rw [hbefore.history, Report.isSome_file?_foldl_applyTo]
    rfl
  rw [Report.applyTo, hopen] at hstep
  refine ⟨hbefore.capacity, fun hclosed => ?_, fun hfound => ?_⟩
  · rw [hstep, if_neg (by simp [hclosed])]
  · rw [if_pos (Option.isSome_iff_ne_none.2 hfound)] at hstep
    have hfiles : u.files = Report.put t.files file w := by
      rw [files, hstep, History.current_push]
      rfl
    refine ⟨?_, hfiles⟩
    rw [hstep, hfiles]
    rfl

/-- What a report makes of the history, the edit that it asks for makes of it. -/
theorem history_run_edit {c : Command} (hr : r.edit? = some c) (hstalls : s.history.stalls = false) :
    (s.run c).session.history = r.applyTo s.history := by
  cases r with
  | proposal file w text =>
    cases hr
    show ((s.applyWindow (.text file) w).map Reply.truth).session.history = _
    rw [applyWindow_text hstalls, Outcome.session_map, Report.applyTo]
    split
    · next hopen => exact (if_pos hopen).symm
    · next hopen => exact (if_neg hopen).symm
  | reply _ | saved _ | failed _ | data _ => cases hr

/-- **Reports make of a history what the edits make of it that they ask for**, one after the other. -/
theorem history_after_edits (reports : List Report) (hcapacity : ∀ k, s.history.capacity ≠ .bound k) :
    (s.after (reports.filterMap Report.edit?)).history = reports.foldl Report.applyTo s.history := by
  induction reports generalizing s with
  | nil => rfl
  | cons r rest ih =>
    cases hr : r.edit? with
    | none =>
      have hsame : r.applyTo s.history = s.history := by
        cases r with
        | proposal _ _ _ => cases hr
        | reply _ | saved _ | failed _ | data _ => rfl
      rw [List.filterMap_cons_none hr, List.foldl_cons, hsame, ih hcapacity]
    | some c =>
      have hone := history_run_edit hr (History.stalls_eq_false hcapacity)
      rw [List.filterMap_cons_some hr, List.foldl_cons, ← hone]
      apply ih
      rwa [hone, Report.capacity_applyTo]

end Session

/-! ### Waiting -/

namespace Workbench

/-- What can happen before reports are processed. -/
inductive Event where
  /-- The host makes a call. -/
  | edit (c : Call)
  /-- A task is added. -/
  | task (t : Task)
  /-- The worker takes the oldest task to its end. -/
  | work

/-- The tasks that are added. -/
def Event.task? : Event → Option Task
  | task t => some t
  | edit _ | work => none

/-- The workbench after an event. -/
def on (b : Workbench) : Event → Workbench
  | .edit c => b.withSession (b.session.call c).session
  | .task t => b.addTask t
  | .work => b.work

/-- The workbench after some events. -/
def after (b : Workbench) (events : List Event) : Workbench := events.foldl on b

/-- The reports of all tasks: those that wait, and those still to come. -/
def reports (b : Workbench) : List Report := b.queue ++ b.waiting.map Task.report

variable {b : Workbench}

/-- An event adds the report of its task behind all others, and changes nothing else about them. -/
theorem reports_on (b : Workbench) (e : Event) :
    (b.on e).reports = b.reports ++ e.task?.toList.map Task.report := by
  cases e with
  | edit c => exact (List.append_nil _).symm
  | task t => simp [on, addTask, reports, Event.task?]
  | work =>
    obtain ⟨session, waiting, queue, shelf⟩ := b
    cases waiting with
    | nil => simp [on, work, reports, Event.task?]
    | cons t rest => simp [on, work, reports, Event.task?]

/-- **Each task has one report, in the order in which the tasks were added.** -/
theorem reports_after (b : Workbench) (events : List Event) :
    (b.after events).reports = b.reports ++ (events.filterMap Event.task?).map Task.report := by
  induction events generalizing b with
  | nil => simp [after]
  | cons e events ih =>
    have hstep : (b.after (e :: events)).reports
        = (b.on e).reports ++ (events.filterMap Event.task?).map Task.report := ih (b.on e)
    rw [hstep, reports_on, List.append_assoc]
    cases he : e.task? with
    | none => simp [he]
    | some t => simp [he]

/-- A worker that goes on working leaves no task waiting. -/
theorem waiting_after_work (b : Workbench) :
    (b.after (List.replicate b.waiting.length .work)).waiting = [] := by
  obtain ⟨session, waiting, queue, shelf⟩ := b
  induction waiting generalizing queue with
  | nil => rfl
  | cons t rest ih => exact ih (queue ++ [t.report])

/-- The reports in the queue are those of tasks, if they were so before. -/
theorem ofTask_after (hqueue : ∀ r ∈ b.queue, r.OfTask) (events : List Event) :
    ∀ r ∈ (b.after events).queue, r.OfTask := by
  intro r hr
  have hmem : r ∈ (b.after events).reports := List.mem_append_left _ hr
  rw [reports_after, reports, List.append_assoc, ← List.map_append, List.mem_append, List.mem_map] at hmem
  rcases hmem with hold | ⟨t, -, rfl⟩
  · exact hqueue r hold
  · exact ⟨t, rfl⟩

theorem capacity_after (b : Workbench) (events : List Event) :
    (b.after events).session.history.capacity = b.session.history.capacity := by
  induction events generalizing b with
  | nil => rfl
  | cons e events ih =>
    have hstep : (b.on e).session.history.capacity = b.session.history.capacity := by
      cases e with
      | edit c => exact (Session.call_becomes b.session c).capacity_eq
      | task t => rfl
      | work =>
        rw [on, work]
        split <;> rfl
    exact (ih (b.on e)).trans hstep

/-- **Background results are applied once, in order, and as ordinary edits.** Take any session whose capacity
is no bound, and let the host make any calls while tasks are added and the worker takes them to their ends,
in whatever order this happens. Then the reports that wait, with those still to come, are one for each task,
in order. Processing answers, and leaves none waiting. The history is then what applying the proposed windows
one after the other makes of it; the chat has gained one message for each proposal and each answer, and the
log one entry for each report but an answer; and the session is not busy if there was a report. A proposal for
a file that is no longer open pushes nothing, and any other is a push of its own, which with a capacity of at
least two can be undone and redone. -/
theorem reports_are_edits (hqueue : ∀ r ∈ b.queue, r.OfTask)
    (hcapacity : ∀ k, b.session.history.capacity ≠ .bound k) (events : List Event) :
    let c := b.after events
    let s := c.session
    let done := c.processReports
    c.queue ++ c.waiting.map Task.report
      = b.queue ++ (b.waiting ++ events.filterMap Event.task?).map Task.report ∧
    (c.after (List.replicate c.waiting.length .work)).waiting = [] ∧
    (done.2 = .ok () ∧ done.1.queue = [] ∧ done.1.waiting = c.waiting) ∧
    done.1.session.history = (s.after (c.queue.filterMap Report.edit?)).history ∧
    done.1.session.chat = s.chat ++ c.queue.filterMap Report.message? ∧
    done.1.session.console.entries = s.console.entries ++ c.queue.filterMap (Report.logged? s.files) ∧
    (c.queue ≠ [] → done.1.session.busy = false) ∧
    ∀ before file w text rest, c.queue = before ++ .proposal file w text :: rest →
      let t := (s.processAll before).1.session
      let u := (s.processAll (before ++ [.proposal file w text])).1.session
      (Tabs.file? s.files file = none → u.history = t.history) ∧
      (Tabs.file? s.files file ≠ none →
        (u.history = t.history.push u.files ∧ u.files = Report.put t.files file w) ∧
        ∀ n pos, s.history.capacity = .count n pos → 2 ≤ n →
          u.undo.2 = some t.files ∧ u.undo.1.redo.2 = some u.files) := by
  intro c s done
  have hreports : ∀ r ∈ c.queue, r.OfTask := ofTask_after hqueue events
  have hbound : ∀ k, s.history.capacity ≠ .bound k := by
    rw [capacity_after]
    exact hcapacity
  obtain ⟨t, ht, hprocesses⟩ := Session.processAll_reports hreports hbound
  have hdone : done = ({ c with session := t, queue := [] }, .ok ()) := by
    show c.processReports = _
    rw [processReports, ht]
    rfl
  rw [hdone]
  refine ⟨?_, waiting_after_work c, ⟨rfl, rfl, rfl⟩, ?_, hprocesses.chat, hprocesses.entries,
    fun hne => ?_, ?_⟩
  · have hlines := reports_after b events
    rwa [reports, reports, List.append_assoc, ← List.map_append] at hlines
  · rw [Session.history_after_edits c.queue hbound]
    exact hprocesses.history
  · show t.busy = false
    rw [hprocesses.busy, List.isEmpty_eq_false_iff.2 hne, Bool.and_false]
  · intro before file w text rest hsplit
    have hsome : ∀ r ∈ before ++ [.proposal file w text], r.OfTask := by
      intro r hr
      apply hreports
      rw [hsplit, List.append_cons]
      exact List.mem_append_left rest hr
    obtain ⟨hsame, hclosed, hopened⟩ := Session.history_proposal hsome hbound
    refine ⟨hclosed, fun hopen => ⟨hopened hopen, fun n pos hn htwo => ?_⟩⟩
    exact Session.undo_redo_of_push (hsame.trans hn) htwo (hopened hopen).1

/-- An engine that proposes an empty window for every file. -/
def clearing (_ : File) (_ : Value) : Except Text Proposal := .ok ⟨"Cleared.", some ⟨"Clear", []⟩, true⟩

/-- A change of a file is asked for without an engine and with one, and again for a proposal that comes after
the file has been closed; a script is to be saved without a store. -/
def closingEvents : List Event :=
  [.task (.propose none Session.exampleFile .null), .edit (.command .newFile), .work,
    .task (.propose (some clearing) ⟨"000000001", "two.lua", Session.exampleFile.content⟩ .null),
    .task (.propose (some clearing) Session.exampleFile .null), .work,
    .edit (.command (.closeFile (.text "f"))), .task (.save none .null Session.exampleFile.content),
    .work, .work]

theorem reports_are_edits_closing :
    ∃ first, Session.begin (some Session.exampleFile) (.int (3 : ℕ)) .initial .defaults = .ok first ∧
      (∀ r ∈ (start first).queue, r.OfTask) ∧ (∀ k, (start first).session.history.capacity ≠ .bound k) ∧
      let done := ((start first).after closingEvents).processReports
      done.2 = .ok () ∧ done.1.queue = [] ∧
      done.1.session.console.entries.map LogEntry.level = [.info, .error, .success, .error, .error] := by
  refine ⟨_, rfl, nofun, nofun, ?_, ?_, ?_⟩
  · exact (reports_are_edits (by nofun) (by nofun) closingEvents).2.2.1.1
  · exact (reports_are_edits (by nofun) (by nofun) closingEvents).2.2.1.2.1
  · refine (congrArg _ (reports_are_edits (by nofun) (by nofun) closingEvents).2.2.2.2.2.1).trans ?_
    decide

end Workbench

end GuiBuilder
