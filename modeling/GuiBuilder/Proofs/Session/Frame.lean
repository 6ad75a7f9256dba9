import GuiBuilder.Session.Command
import Mathlib.Tactic.Common

/-!
# What calls leave alone

The small operations of a session change one part of it each: a log entry the console, a drawn id the
supply, a selection what is selected. What they leave alone is said here once (`Session.Kept`), beside the
laws of `Outcome.andThen` and `Outcome.map`, so that the proofs about edits need to look into none of
them. Of the calls that do not edit, only those that generate the script change more than the console and
what is selected: they fill the cache.
-/

namespace GuiBuilder

namespace Outcome

variable {α β : Type}

@[simp] theorem session_map (o : Outcome α) (f : α → β) : (o.map f).session = o.session := rfl

@[simp] theorem result_map (o : Outcome α) (f : α → β) : (o.map f).result = o.result.map f := rfl

/-- What a call and the next one both keep of a session, they keep together. -/
theorem session_andThen_induction {P : Session → Prop} {o : Outcome α} {next : Session → α → Outcome β}
    (ho : P o.session) (hnext : ∀ s a, P s → P (next s a).session) : P (o.andThen next).session := by
  obtain ⟨s, a | a⟩ := o
  · exact ho
  · exact hnext s a ho

end Outcome

namespace Session

variable {α : Type}

@[simp] theorem session_answer (s : Session) (a : α) : (s.answer a).session = s := rfl

@[simp] theorem session_fault (s : Session) (f : Fault) : (s.fault f : Outcome α).session = s := rfl

@[simp] theorem result_answer (s : Session) (a : α) : (s.answer a).result = .ok a := rfl

@[simp] theorem result_fault (s : Session) (f : Fault) : (s.fault f : Outcome α).result = .error f := rfl

/-- The history, the cache and the supply of ids are still the same. -/
structure Kept (s t : Session) : Prop where
  history : t.history = s.history
  cache : t.cache = s.cache
  ids : t.ids = s.ids

theorem Kept.refl (s : Session) : s.Kept s := ⟨rfl, rfl, rfl⟩

theorem Kept.trans {s t u : Session} (h : s.Kept t) (h' : t.Kept u) : s.Kept u :=
  ⟨h'.history.trans h.history, h'.cache.trans h.cache, h'.ids.trans h.ids⟩

@[simp] theorem history_log (s : Session) (level : Level) (message : Text) :
    (s.log level message).history = s.history := rfl

theorem kept_log (s : Session) (level : Level) (message : Text) : s.Kept (s.log level message) :=
  ⟨rfl, rfl, rfl⟩

theorem kept_selectFolder (s : Session) (id : Value) : s.Kept (s.selectFolder id) := ⟨rfl, rfl, rfl⟩

theorem kept_markElement (s : Session) (id : Option Text) : s.Kept (s.markElement id) := ⟨rfl, rfl, rfl⟩

theorem kept_activate (s : Session) (file : File) : s.Kept (s.activate file).session := by
  unfold activate
  split <;> exact ⟨rfl, rfl, rfl⟩

theorem kept_selectFile (s : Session) (id : Value) : s.Kept (s.selectFile id).session := by
  unfold selectFile
  split
  · exact kept_activate s _
  · exact kept_log s _ _

/-- What a call does with the active file, it does with the session as it stands, or not at all. -/
theorem withActive_induction {s : Session} {next : File → Outcome α} {P : Outcome α → Prop}
    (hnone : P (s.fault .noFile)) (hnext : ∀ file, s.activeFile? = some file → P (next file)) :
    P (s.withActive next) := by
  unfold withActive
  split
  · next file hfile => exact hnext file hfile
  · exact hnone

theorem withWindow_induction {s : Session} {next : File → Window → Outcome α} {P : Outcome α → Prop}
    (hnone : P (s.fault .noFile)) (hdata : P (s.fault .noWindow))
    (hnext : ∀ file w, s.activeFile? = some file → file.content = .window w → P (next file w)) :
    P (s.withWindow next) := by
  refine withActive_induction hnone fun file hfile => ?_
  split
  · next w hw => exact hnext file w hfile hw
  · exact hdata

/-- Where the active file holds a window, that is what a call goes on with. -/
theorem withWindow_of_activeFile? {s : Session} {file : File} {w : Window} (hfile : s.activeFile? = some file)
    (hw : file.content = .window w) (next : File → Window → Outcome α) : s.withWindow next = next file w := by
  simp only [withWindow, withActive, hfile, hw]

/-! ### Calls that read, select or log -/

theorem kept_selected (s : Session) : s.Kept s.selected.session := by
  unfold selected
  refine withActive_induction (P := fun o => s.Kept o.session) (.refl s) fun file _ => ?_
  split
  · exact .refl s
  · split <;> exact .refl s

theorem kept_selectElement (s : Session) (id : Value) : s.Kept (s.selectElement id).session := by
  unfold selectElement
  refine withWindow_induction (P := fun o => s.Kept o.session) (.refl s) (.refl s) fun file w _ _ => ?_
  split <;> exact ⟨rfl, rfl, rfl⟩

theorem kept_logAll (issues : List Issue) (s : Session) :
    s.Kept (issues.foldl (fun s issue => s.log .warn issue.finding.message) s) := by
  induction issues generalizing s with
  | nil => exact .refl s
  | cons issue issues ih => exact (kept_log s _ _).trans (ih _)

theorem kept_analyze (s : Session) : s.Kept s.analyze.session := by
  unfold analyze
  refine withActive_induction (P := fun o => s.Kept o.session) (.refl s) fun file _ => ?_
  dsimp only
  split
  · exact kept_log s _ _
  · exact ((kept_log s _ _).trans (kept_logAll _ _)).trans (kept_log _ _ _)

theorem kept_versionDiff (s : Session) (id index : Value) : s.Kept (s.versionDiff id index).session := by
  unfold versionDiff
  dsimp only
  split
  · exact .refl s
  · exact kept_log s _ _
  · split
    · exact .refl s
    · split
      · exact .refl s
      · split <;> exact .refl s

theorem kept_logValues (s : Session) (message level : Value) :
    s.Kept (s.logValues message level).session := by
  unfold logValues
  split
  · exact .refl s
  · exact kept_log s _ _

/-! ### Calls that generate the script -/

theorem code_frame (s : Session) :
    s.code.session.history = s.history ∧ s.code.session.ids = s.ids := by
  unfold code
  refine withWindow_induction (P := fun o => o.session.history = s.history ∧ o.session.ids = s.ids)
    ⟨rfl, rfl⟩ ⟨rfl, rfl⟩ fun file w _ _ => ?_
  split
  · split
    · exact ⟨rfl, rfl⟩
    · split <;> exact ⟨rfl, rfl⟩
  · exact ⟨rfl, rfl⟩

/-- An export generates the script first, and logs at most after that. -/
theorem kept_exportTo (s : Session) (provide : Text → Except Fault (Text → Found)) (directory : Text)
    (extension : Value) : s.code.session.Kept (s.exportTo provide directory extension).session := by
  unfold exportTo
  refine Outcome.session_andThen_induction (P := s.code.session.Kept) (.refl _) fun u content hu => ?_
  refine withActive_induction (P := fun o => s.code.session.Kept o.session) hu fun file _ => ?_
  dsimp only
  split
  · exact hu
  · split
    · exact hu
    · split
      · exact hu
      · exact hu.trans (kept_log u _ _)

end Session

end GuiBuilder
