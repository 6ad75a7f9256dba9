import GuiBuilder.Proofs.Session.Commits

/-!
# Every edit is one step of the history

A call that edits pushes one snapshot where it reports success, and changes neither the history nor the
selection where it reports failure (`Outcome.Edits`). What is pushed can be undone and redone again
(`undo_redo_of_push`), so in every session with a capacity of at least two an edit is one undo step.
-/

namespace GuiBuilder

namespace History

variable {α : Type}

/-- Where the capacity is no bound, the next push does not stall. -/
theorem stalls_eq_false {h : History α} (hcapacity : ∀ k, h.capacity ≠ .bound k) : h.stalls = false := by
  unfold stalls
  split
  · next k hk => exact absurd hk (hcapacity k)
  · rfl
  · rfl

/-- What is undone is redone. -/
theorem redo?_of_undo? {h h' : History α} (hu : h.undo? = some h') : h'.redo? = some h := by
  simp only [undo?, Option.ite_none_right_eq_some, Option.some.injEq] at hu
  obtain ⟨hpos, rfl⟩ := hu
  obtain ⟨capacity, moments, pointer, pushes, hlt⟩ := h
  simp only at hpos hlt
  simp only [redo?, Nat.sub_add_cancel hpos, hlt, dif_pos]

/-- A push onto a history that holds at least two snapshots can be undone. -/
theorem exists_undo?_push {h : History α} {n : ℕ} {pos : 0 < n} (hc : h.capacity = .count n pos)
    (hn : 2 ≤ n) (x : α) : ∃ h', (h.push x).undo? = some h' ∧ h'.current = h.current := by
  have hz : (h.push x).undo?.map zipper = (h.zipper.push n x).undo? := by
    rw [zipper_undo?, zipper_push hc]
  obtain ⟨k, rfl⟩ : ∃ k, n = k + 2 := ⟨n - 2, by omega⟩
  have hlast : (h.zipper.push (k + 2) x).undo?.map Zipper.present = some h.current := by
    simp [Zipper.undo?, Zipper.push, List.rtake_concat_succ, zipper]
  rw [← hz, Option.map_map, Option.map_eq_some_iff] at hlast
  obtain ⟨h', hu, hcur⟩ := hlast
  exact ⟨h', hu, hcur⟩

end History

namespace Session

/-- What a push has made the files is undone and redone. -/
theorem undo_redo_of_push {s t : Session} {n : ℕ} {pos : 0 < n} (hc : s.history.capacity = .count n pos)
    (hn : 2 ≤ n) (h : t.history = s.history.push t.files) :
    t.undo.2 = some s.files ∧ t.undo.1.redo.2 = some t.files := by
  obtain ⟨h', hu, hcur⟩ := History.exists_undo?_push hc hn t.files
  rw [← h] at hu
  have hr := History.redo?_of_undo? hu
  constructor
  · simp only [undo, hu]
    rw [hcur, files]
  · simp only [undo, hu, redo, history_log, hr]
    rfl

/-! ### Runs -/

/-- No run changes the capacity. -/
theorem capacity_afterCalls (s : Session) (calls : List Call) :
    (s.afterCalls calls).history.capacity = s.history.capacity := by
  induction calls generalizing s with
  | nil => rfl
  | cons c calls ih =>
    rw [afterCalls, List.foldl_cons]
    exact (ih (s.call c).session).trans (call_becomes s c).capacity_eq

/-- A session that starts with a positive integer as its capacity has that capacity. -/
theorem capacity_start {file : File} {n : ℕ} (pos : 0 < n) {ids : IdSupply} {preferences : Preferences}
    {s : Session} (h : start file (.int n) ids preferences = .ok s) :
    s.history.capacity = .count n pos := by
  have hgiven : (Value.int n).isGiven = true := by simp [Value.isGiven]; omega
  have hcap : capacityOf (.int n) = .ok (.count n pos) := by
    simp [capacityOf, capacityOfInt, pos]
  obtain ⟨k, w, hk, -, rfl⟩ := exists_of_start h
  rw [if_pos hgiven, hcap] at hk
  exact (Except.ok.inj hk).symm

theorem capacity_begin {file : Option File} {n : ℕ} (pos : 0 < n) {ids : IdSupply}
    {preferences : Preferences} {s : Session} (h : begin file (.int n) ids preferences = .ok s) :
    s.history.capacity = .count n pos := by
  unfold begin at h
  split at h
  · exact capacity_start pos h
  · split at h
    · exact capacity_start pos h
    · cases h

/-- Where the capacity is no bound, no push stalls after any commands. -/
theorem stalls_after {s : Session} (h : ∀ k, s.history.capacity ≠ .bound k) (commands : List Command) :
    (s.after commands).history.stalls = false := by
  have hcap : (s.after commands).history.capacity = s.history.capacity := by
    rw [← afterCalls_map_command, capacity_afterCalls]
  apply History.stalls_eq_false
  rwa [hcap]

/-- **Every edit is one undo step, and every rejected edit is none.** In any session that was begun
with a capacity of at least one, on whatever file, and after any calls, an edit that answers with
success has pushed exactly one snapshot, that of the files as they are now; with a capacity of at
least two, undo then brings back the files from before and redo the files from after. An edit that
answers with failure has left the history and what is selected as they were. -/
theorem edit_is_one_step {n : ℕ} (pos : 0 < n) {file : Option File} {ids : IdSupply}
    {preferences : Preferences} {first : Session}
    (hbegin : begin file (.int n) ids preferences = .ok first) (before : List Call) {edit : Call}
    (hedit : edit.isEdit = true) {t : Session} {reply : Reply}
    (hcall : (first.afterCalls before).call edit = ⟨t, .ok reply⟩) :
    let s := first.afterCalls before
    (reply.isSuccess = true → t.history = s.history.push t.files ∧
      (2 ≤ n → t.undo.2 = some s.files ∧ t.undo.1.redo.2 = some t.files)) ∧
    (reply.isSuccess = false → t.history = s.history ∧ t.selection = s.selection) := by
  intro s
  have hcap : s.history.capacity = .count n pos := by
    rw [capacity_afterCalls]
    exact capacity_begin pos hbegin
  have hedits : (s.call edit).Edits s Reply.isSuccess := call_edits s hedit
  rw [hcall] at hedits
  refine ⟨fun hs => ?_, fun hf => hedits.refused reply rfl hf⟩
  have hpush := hedits.done reply rfl hs
  exact ⟨hpush, fun hn => undo_redo_of_push hcap hn hpush⟩

/-- A file whose window has one empty folder. -/
def exampleFile : File :=
  ⟨"f", "one.lua", .window ⟨"One", [⟨"a", "Main", []⟩]⟩⟩

/-- A second folder is added and deleted again, at capacity two. -/
theorem edit_is_one_step_deleting :
    ∃ first t : Session, 0 < 2 ∧ begin (some exampleFile) (.int (2 : ℕ)) .initial .defaults = .ok first ∧
      (first.afterCalls [.command .addFolder]).call (.command .deleteSelected) = ⟨t, .ok (.truth true)⟩ ∧
      t.undo.2 = some (first.afterCalls [.command .addFolder]).files := by
  refine ⟨_, _, by decide, rfl, rfl, ?_⟩
  exact ((@edit_is_one_step 2 (by decide) (some exampleFile) .initial .defaults _ rfl
    [.command .addFolder] (.command .deleteSelected) rfl _ _ rfl).1 rfl).2 (by decide) |>.1

end Session

end GuiBuilder
