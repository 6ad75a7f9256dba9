import GuiBuilder.Proofs.History.Zipper

/-!
# What every run of a history keeps

Besides being a zipper (`History.zipper_after`), a history on a whole number of snapshots holds at
least one and at most so many of them, and every snapshot carries the tick of the push that brought
it in: the initial one has tick zero and the `n`-th push has tick `n` (`Ticked`). The ticks increase
along the line, also after the oldest snapshots have gone and undone ones have been dropped.

A moment keeps a snapshot and its tick together. `Columns` keeps the snapshots and the ticks in two
lists, cut one beside the other; a run of the columns is the run of the history (`columns_after`),
so the two lists never get out of step.
-/

namespace GuiBuilder

namespace History

variable {α : Type} {c : ℕ} {pos : 0 < c}

/-! ### Bounds -/

theorem length_push_le {h : History α} (hc : h.capacity = .count c pos) (x : α) :
    (h.push x).length ≤ c := by
  simp only [length, push, pushed, kept, hc, List.length_drop]
  omega

theorem length_after_le {h : History α} (hc : h.capacity = .count c pos) (hlen : h.length ≤ c)
    (moves : List (Move α)) : (h.after moves).length ≤ c := by
  have hP := after_induction (P := fun h => h.capacity = .count c pos ∧ h.length ≤ c)
    (fun h x hP => ⟨hP.1, length_push_le hP.1 x⟩)
    (fun h h' hc hm _ hP => ⟨hc.trans hP.1, by rw [length, hm]; exact hP.2⟩) moves h ⟨hc, hlen⟩
  exact hP.2

/-! ### Ticks -/

/-- The snapshot that a move brings in. -/
def Move.pushed? : Move α → Option α
  | push x => some x
  | undo | redo => none

/-- Every snapshot of the history carries the tick of its own push, where `arrivals` are the initial
snapshot and all that were pushed since, kept or not; and the ticks increase. -/
structure Ticked (arrivals : List α) (h : History α) : Prop where
  pushes : h.pushes + 1 = arrivals.length
  paired : ∀ m ∈ h.moments, arrivals[m.tick]? = some m.snapshot
  increasing : h.ticks.Pairwise (· < ·)

theorem Ticked.start (capacity : Capacity) (x : α) : Ticked [x] (start capacity x) := by
  refine ⟨rfl, fun m hm => ?_, by simp [ticks, History.start]⟩
  simp only [History.start, List.mem_singleton] at hm
  subst hm
  rfl

/-- Ticks of the past are ticks of pushes that have been made. -/
theorem Ticked.tick_le {arrivals : List α} {h : History α} (ht : Ticked arrivals h) {m : Moment α}
    (hm : m ∈ h.moments) : m.tick ≤ h.pushes := by
  obtain ⟨hlt, -⟩ := List.getElem?_eq_some_iff.1 (ht.paired m hm)
  have := ht.pushes
  omega

/-- Whatever a capacity keeps was on the line. -/
theorem kept_sublist (capacity : Capacity) (line : List (Moment α)) :
    (kept capacity line).Sublist line := by
  cases capacity with
  | count n pos => exact List.drop_sublist _ _
  | unbounded => exact List.Sublist.refl _
  | bound n => exact List.Sublist.refl _

/-- A snapshot that comes in at the end of the line takes the next tick, whatever of the line is kept. -/
theorem Ticked.extend {arrivals : List α} {h h' : History α} (ht : Ticked arrivals h) {x : α}
    (hsub : h'.moments.Sublist (h.extended x)) (hpushes : h'.pushes = h.pushes + 1) :
    Ticked (arrivals ++ [x]) h' := by
  have hnew : arrivals.length = h.pushes + 1 := ht.pushes.symm
  refine ⟨by simp [hpushes, hnew], fun m hm => ?_, ?_⟩
  · rcases List.mem_append.1 (hsub.subset hm) with hold | hx
    · have hm := List.mem_of_mem_take hold
      rw [List.getElem?_append_left (by have := ht.tick_le hm; omega)]
      exact ht.paired m hm
    · obtain rfl := List.mem_singleton.1 hx
      rw [← hnew, List.getElem?_concat_length]
  · refine List.Pairwise.sublist (hsub.map Moment.tick) ?_
    rw [extended, List.map_append, List.pairwise_append]
    refine ⟨ht.increasing.sublist ((List.take_sublist _ _).map Moment.tick), by simp, ?_⟩
    intro t hmem t' hnew'
    obtain ⟨m, hm, rfl⟩ := List.mem_map.1 hmem
    obtain rfl : t' = h.pushes + 1 := by simpa using hnew'
    have := ht.tick_le (List.mem_of_mem_take hm)
    omega

theorem Ticked.push {arrivals : List α} {h : History α} (ht : Ticked arrivals h) (x : α) :
    Ticked (arrivals ++ [x]) (h.push x) := ht.extend (kept_sublist _ _) rfl

theorem Ticked.stalled {arrivals : List α} {h : History α} (ht : Ticked arrivals h) (x : α) :
    Ticked (arrivals ++ [x]) (h.stalled x) := ht.extend (List.Sublist.refl _) rfl

/-- Standing elsewhere on the same line changes no tick. -/
theorem Ticked.of_line {arrivals : List α} {h h' : History α} (ht : Ticked arrivals h)
    (hm : h'.moments = h.moments) (hn : h'.pushes = h.pushes) : Ticked arrivals h' :=
  ⟨by rw [hn]; exact ht.pushes, by rw [hm]; exact ht.paired, by rw [ticks, hm]; exact ht.increasing⟩

theorem Ticked.step {arrivals : List α} {h : History α} (ht : Ticked arrivals h) (m : Move α) :
    Ticked (arrivals ++ m.pushed?.toList) (h.step m).1 := by
  cases m with
  | push x => exact ht.push x
  | undo =>
    rw [Move.pushed?, Option.toList_none, List.append_nil]
    cases hu : h.undo? with
    | none => simpa [History.step, hu] using ht
    | some h' => simpa [History.step, hu] using ht.of_line (undo?_eq_some hu).2.1 (undo?_eq_some hu).2.2
  | redo =>
    rw [Move.pushed?, Option.toList_none, List.append_nil]
    cases hr : h.redo? with
    | none => simpa [History.step, hr] using ht
    | some h' => simpa [History.step, hr] using ht.of_line (redo?_eq_some hr).2.1 (redo?_eq_some hr).2.2

theorem Ticked.after {arrivals : List α} {h : History α} (ht : Ticked arrivals h)
    (moves : List (Move α)) : Ticked (arrivals ++ moves.filterMap Move.pushed?) (h.after moves) := by
  induction moves generalizing arrivals h with
  | nil => simpa [History.after] using ht
  | cons m moves ih =>
    have hcons : (m :: moves).filterMap Move.pushed?
        = m.pushed?.toList ++ moves.filterMap Move.pushed? := by
      cases m <;> rfl
    rw [hcons, ← List.append_assoc]
    exact ih (ht.step m)

/-! ### Two columns -/

/-- A history whose snapshots and ticks stand in two lists. -/
structure Columns (α : Type) where
  snapshots : List α
  ticks : List ℕ
  pointer : ℕ
  pushes : ℕ

namespace Columns

/-- The columns of one snapshot. -/
def start (x : α) : Columns α := ⟨[x], [0], 0, 0⟩

/-- Drops what is ahead of the pointer from both columns, appends to both, and cuts what exceeds the
capacity off the front of both. -/
def push (capacity : ℕ) (s : Columns α) (x : α) : Columns α :=
  let snapshots := s.snapshots.take (s.pointer + 1) ++ [x]
  let ticks := s.ticks.take (s.pointer + 1) ++ [s.pushes + 1]
  let overflow := snapshots.length - capacity
  ⟨snapshots.drop overflow, ticks.drop overflow, (snapshots.drop overflow).length - 1, s.pushes + 1⟩

/-- The columns after a move. -/
def step (capacity : ℕ) (s : Columns α) : Move α → Columns α
  | .push x => s.push capacity x
  | .undo => if s.pointer = 0 then s else { s with pointer := s.pointer - 1 }
  | .redo => if s.snapshots.length - 1 ≤ s.pointer then s else { s with pointer := s.pointer + 1 }

/-- The columns after some moves. -/
def after (capacity : ℕ) (s : Columns α) (moves : List (Move α)) : Columns α :=
  moves.foldl (step capacity) s

end Columns

/-- The history in two columns. -/
def columns (h : History α) : Columns α := ⟨h.snapshots, h.ticks, h.pointer, h.pushes⟩

theorem columns_push {h : History α} (hc : h.capacity = .count c pos) (x : α) :
    (h.push x).columns = h.columns.push c x := by
  have hs : (h.extended x).map Moment.snapshot = h.snapshots.take (h.pointer + 1) ++ [x] := by
    simp [extended, snapshots, List.map_take]
  have ht : (h.extended x).map Moment.tick = h.ticks.take (h.pointer + 1) ++ [h.pushes + 1] := by
    simp [extended, ticks, List.map_take]
  simp only [columns, Columns.push, ← hs, ← ht]
  simp [snapshots, ticks, push, pushed, kept, hc, List.map_drop]

theorem columns_step {h : History α} (hc : h.capacity = .count c pos) (m : Move α) :
    (h.step m).1.columns = h.columns.step c m := by
  have hlt := h.pointer_lt
  cases m with
  | push x => exact columns_push hc x
  | undo =>
    by_cases h0 : h.pointer = 0
    · simp [step, undo?, Columns.step, columns, h0]
    · simp [step, undo?, Columns.step, columns, h0, Nat.pos_of_ne_zero h0, snapshots, ticks]
  | redo =>
    by_cases hend : h.pointer + 1 < h.moments.length
    · have : ¬ h.moments.length - 1 ≤ h.pointer := by omega
      simp [step, redo?, Columns.step, columns, hend, this, snapshots, ticks]
    · have : h.moments.length - 1 ≤ h.pointer := by omega
      simp [step, redo?, Columns.step, columns, hend, this]

/-- The columns are cut side by side along every run. -/
theorem columns_after {h : History α} (hc : h.capacity = .count c pos) (moves : List (Move α)) :
    (h.after moves).columns = h.columns.after c moves := by
  induction moves generalizing h with
  | nil => rfl
  | cons m moves ih =>
    have hc' : (h.step m).1.capacity = .count c pos := by
      rw [← hc]; exact capacity_after h [m]
    show ((h.step m).1.after moves).columns = (h.columns.step c m).after c moves
    rw [ih hc', columns_step hc]

/-! ### The refinement -/

/-- **A history is a bounded zipper.** After any moves from one snapshot, the history `h` is the
zipper `z` that the same moves make: the line is past, present and future, and the pointer stands
behind the past. Every further move, too, does what it does to the zipper and answers the same; undo
and redo answer nothing exactly when the past or the future is empty, and then change nothing. The
line has between one and `c` snapshots, as many ticks as snapshots also when the two are kept apart,
each snapshot has the tick of its own push, and the ticks increase. -/
theorem after_refines_zipper (pos : 0 < c) (initial : α) (moves : List (Move α)) :
    let h := (start (.count c pos) initial).after moves
    let z := (Zipper.start initial).after c moves
    (h.zipper = z ∧ h.snapshots = z.past ++ [z.present] ++ z.future ∧ h.pointer = z.past.length) ∧
    (∀ m, ((h.step m).1.zipper, (h.step m).2) = z.step c m) ∧
    (((h.step .undo).2 = none ↔ z.past = []) ∧ ((h.step .undo).2 = none → (h.step .undo).1 = h) ∧
      ((h.step .redo).2 = none ↔ z.future = []) ∧ ((h.step .redo).2 = none → (h.step .redo).1 = h)) ∧
    ((h.canUndo = true ↔ z.past ≠ []) ∧ (h.canRedo = true ↔ z.future ≠ [])) ∧
    (1 ≤ h.length ∧ h.length ≤ c ∧ h.pointer < h.length) ∧
    (h.columns = (Columns.start initial).after c moves ∧ h.ticks.length = h.snapshots.length) ∧
    (∀ m ∈ h.moments, (initial :: moves.filterMap Move.pushed?)[m.tick]? = some m.snapshot) ∧
    h.ticks.Pairwise (· < ·) := by
  intro h z
  have hcap : h.capacity = .count c pos := capacity_after _ moves
  have hz : h.zipper = z := zipper_after (h := start (.count c pos) initial) rfl moves
  have hundo : h.undo?.map zipper = z.undo? := hz ▸ zipper_undo? h
  have hredo : h.redo?.map zipper = z.redo? := hz ▸ zipper_redo? h
  have ht : Ticked ([initial] ++ moves.filterMap Move.pushed?) h := (Ticked.start _ _).after moves
  have hlt := h.pointer_lt
  refine ⟨⟨hz, ?_, ?_⟩, fun m => hz ▸ zipper_step hcap m, ⟨?_, ?_, ?_, ?_⟩, ⟨?_, ?_⟩, ⟨?_, ?_, hlt⟩,
    ⟨columns_after (h := start (.count c pos) initial) rfl moves, by simp [ticks]⟩, ht.paired, ht.increasing⟩
  · rw [← toList_zipper, hz, Zipper.toList]
  · rw [← hz, length_past]
  · rw [← Zipper.undo?_eq_none_iff, ← hundo, step, Option.map_eq_none_iff, Option.map_eq_none_iff]
  · intro hnone
    rw [step, Option.map_eq_none_iff] at hnone
    rw [step, hnone, Option.getD_none]
  · rw [← Zipper.redo?_eq_none_iff, ← hredo, step, Option.map_eq_none_iff, Option.map_eq_none_iff]
  · intro hnone
    rw [step, Option.map_eq_none_iff] at hnone
    rw [step, hnone, Option.getD_none]
  · rw [← hz, canUndo_iff]
  · rw [← hz, canRedo_iff]
  · exact Nat.lt_of_le_of_lt (Nat.zero_le _) hlt
  · exact length_after_le (h := start (.count c pos) initial) rfl pos moves

/-- At capacity two: undone, pushed over, and pushed past the capacity, the line has lost its oldest
snapshot and the one that was undone. -/
theorem after_refines_zipper_at_two :
    0 < 2 ∧ ((start (.count 2 (by decide)) 'a').after
      [.push 'b', .undo, .push 'c', .push 'd', .undo]).zipper = ⟨[], 'c', ['d']⟩ ∧
    ((start (.count 2 (by decide)) 'a').after
      [.push 'b', .undo, .push 'c', .push 'd', .undo]).ticks.Pairwise (· < ·) := by
  have h := after_refines_zipper (by decide : 0 < 2) 'a' [.push 'b', .undo, .push 'c', .push 'd', .undo]
  exact ⟨by decide, h.1.1, h.2.2.2.2.2.2.2⟩

end History

end GuiBuilder
