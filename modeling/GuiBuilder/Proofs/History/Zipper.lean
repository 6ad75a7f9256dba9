import GuiBuilder.History
import Mathlib.Data.List.DropRight

/-!
# A history is a bounded zipper

A zipper is a line with one item in focus: what lies behind it, the item, what lies ahead. It has no
pointer and no eviction to get wrong. A push puts the item in focus behind the new one, keeps the
newest `capacity - 1` of what is then behind, and forgets what lies ahead; undo and redo shift one
item across the focus.

`History.zipper` reads a history as a zipper. Each operation of a history that holds a whole number
of snapshots is the one of the zipper (`zipper_push`, `zipper_undo?`, `zipper_redo?`), so a run of
the history is a run of the zipper (`zipper_after`).

A moment keeps a snapshot and its tick together. `History.Columns` keeps the snapshots and the ticks
in two lists that are cut side by side; `columns_after` says that the two never get out of step.
What is true of the ticks of every run is `Ticked`.
-/

namespace GuiBuilder

/-- A line of items with one of them in focus. -/
structure Zipper (α : Type) where
  /-- What lies behind the focus, oldest first. -/
  past : List α
  /-- The item in focus. -/
  present : α
  /-- What lies ahead of the focus, nearest first. -/
  future : List α

/-- What can be asked of a history. -/
inductive History.Move (α : Type) where
  /-- Makes a snapshot the current one. -/
  | push (x : α)
  /-- Goes back by one snapshot. -/
  | undo
  /-- Goes ahead by one snapshot. -/
  | redo

namespace Zipper

variable {α : Type}

/-- A zipper of one item. -/
def start (x : α) : Zipper α := ⟨[], x, []⟩

/-- The items in order. -/
def toList (z : Zipper α) : List α := z.past ++ [z.present] ++ z.future

/-- A new item in focus; of those behind it, the newest `capacity - 1` are kept. -/
def push (capacity : ℕ) (x : α) (z : Zipper α) : Zipper α :=
  ⟨(z.past ++ [z.present]).rtake (capacity - 1), x, []⟩

/-- The nearest item behind the focus comes into focus, if there is one. -/
def undo? (z : Zipper α) : Option (Zipper α) :=
  z.past.getLast?.map fun x => ⟨z.past.dropLast, x, z.present :: z.future⟩

/-- The nearest item ahead of the focus comes into focus, if there is one. -/
def redo? (z : Zipper α) : Option (Zipper α) :=
  z.future.head?.map fun x => ⟨z.past ++ [z.present], x, z.future.tail⟩

/-- A move, and the item that it brings into focus. A move that is not possible brings nothing and
changes nothing. -/
def step (capacity : ℕ) (z : Zipper α) : History.Move α → Zipper α × Option α
  | .push x => (z.push capacity x, some x)
  | .undo => (z.undo?.getD z, z.undo?.map present)
  | .redo => (z.redo?.getD z, z.redo?.map present)

/-- The zipper after some moves. -/
def after (capacity : ℕ) (z : Zipper α) (moves : List (History.Move α)) : Zipper α :=
  moves.foldl (fun z m => (z.step capacity m).1) z

theorem undo?_eq_none_iff (z : Zipper α) : z.undo? = none ↔ z.past = [] := by
  simp [undo?]

theorem redo?_eq_none_iff (z : Zipper α) : z.redo? = none ↔ z.future = [] := by
  simp [redo?]

end Zipper

namespace History

variable {α : Type}

/-- The snapshots, oldest first. -/
def snapshots (h : History α) : List α := h.moments.map Moment.snapshot

/-- The tick of each snapshot. -/
def ticks (h : History α) : List ℕ := h.moments.map Moment.tick

/-- The history as a zipper. -/
def zipper (h : History α) : Zipper α :=
  ⟨h.snapshots.take h.pointer, h.current, h.snapshots.drop (h.pointer + 1)⟩

/-- A move, and the snapshot that it makes the current one. -/
def step (h : History α) : Move α → History α × Option α
  | .push x => (h.push x, some x)
  | .undo => (h.undo?.getD h, h.undo?.map current)
  | .redo => (h.redo?.getD h, h.redo?.map current)

/-- The history after some moves. -/
def after (h : History α) (moves : List (Move α)) : History α :=
  moves.foldl (fun h m => (h.step m).1) h

/-! ### The view -/

@[simp] theorem length_snapshots (h : History α) : h.snapshots.length = h.moments.length := by
  simp [snapshots]

theorem pointer_lt_length (h : History α) : h.pointer < h.snapshots.length := by
  rw [length_snapshots]
  exact h.pointer_lt

theorem current_eq_getElem (h : History α) (hlt : h.pointer < h.snapshots.length) :
    h.current = h.snapshots[h.pointer] := by
  simp [current, present, snapshots]

/-- The items of the zipper are the snapshots. -/
theorem toList_zipper (h : History α) : h.zipper.toList = h.snapshots := by
  have hlt := h.pointer_lt_length
  rw [Zipper.toList, zipper, current_eq_getElem h hlt, List.append_assoc, List.singleton_append,
    ← List.drop_eq_getElem_cons hlt, List.take_append_drop]

/-- The pointer stands behind the past. -/
theorem length_past (h : History α) : h.zipper.past.length = h.pointer := by
  have := h.pointer_lt
  simp only [zipper, List.length_take, length_snapshots]
  omega

/-- A history is the zipper that its line and its pointer describe. -/
theorem zipper_eq {h : History α} {z : Zipper α} (hs : h.snapshots = z.toList)
    (hp : h.pointer = z.past.length) : h.zipper = z := by
  obtain ⟨past, x, future⟩ := z
  simp only [Zipper.toList, List.append_assoc, List.singleton_append] at hs
  simp only at hp
  have hc : h.current = x := by
    rw [current_eq_getElem h h.pointer_lt_length]
    simp only [hs, hp, List.getElem_append_right (Nat.le_refl _), Nat.sub_self,
      List.getElem_cons_zero]
  simp [zipper, hs, hp, hc]

theorem canUndo_iff (h : History α) : h.canUndo = true ↔ h.zipper.past ≠ [] := by
  rw [← List.length_pos_iff, length_past, canUndo, decide_eq_true_iff]

theorem canRedo_iff (h : History α) : h.canRedo = true ↔ h.zipper.future ≠ [] := by
  simp [canRedo, zipper, List.drop_eq_nil_iff]

/-! ### The operations -/

variable {c : ℕ} {pos : 0 < c}

/-- What is behind a pushed snapshot: the newest of the past and the old present. -/
theorem snapshots_push {h : History α} (hc : h.capacity = .count c pos) (x : α) :
    (h.push x).snapshots = (h.zipper.past ++ [h.zipper.present]).rtake (c - 1) ++ [x] := by
  have hpast : h.zipper.past ++ [h.zipper.present] = h.snapshots.take (h.pointer + 1) := by
    rw [zipper, current_eq_getElem h h.pointer_lt_length, List.take_append_getElem]
  have hext : (h.extended x).map Moment.snapshot = h.snapshots.take (h.pointer + 1) ++ [x] := by
    simp [extended, snapshots, List.map_take]
  obtain ⟨n, rfl⟩ : ∃ n, c = n + 1 := ⟨c - 1, by omega⟩
  rw [hpast, Nat.add_sub_cancel, ← List.rtake_concat_succ, List.rtake, ← hext, List.length_map]
  simp [snapshots, push, pushed, kept, hc, List.map_drop]

theorem zipper_push {h : History α} (hc : h.capacity = .count c pos) (x : α) :
    (h.push x).zipper = h.zipper.push c x := by
  have hs := snapshots_push hc x
  refine zipper_eq (by rw [hs, Zipper.push, Zipper.toList, List.append_nil]) ?_
  have hp : (h.push x).pointer = (h.push x).snapshots.length - 1 := by simp [push]
  rw [hp, hs, List.length_append, List.length_singleton, Nat.add_sub_cancel, Zipper.push]

theorem zipper_undo? (h : History α) : h.undo?.map zipper = h.zipper.undo? := by
  rcases List.eq_nil_or_concat' h.zipper.past with hnil | ⟨past, x, hpast⟩
  · have hp : h.pointer = 0 := by rw [← length_past, hnil, List.length_nil]
    rw [(Zipper.undo?_eq_none_iff _).2 hnil, undo?, if_neg (by omega), Option.map_none]
  · have hp : h.pointer = past.length + 1 := by rw [← length_past, hpast]; simp
    have hs : h.snapshots = (past ++ [x]) ++ [h.zipper.present] ++ h.zipper.future := by
      rw [← toList_zipper, Zipper.toList, hpast]
    rw [undo?, if_pos (by omega), Option.map_some, Zipper.undo?, hpast, List.getLast?_concat,
      Option.map_some, List.dropLast_concat]
    refine congrArg some (zipper_eq ?_ (by simp [hp]))
    rw [Zipper.toList, ← List.singleton_append (x := h.zipper.present), ← List.append_assoc]
    exact hs

theorem zipper_redo? (h : History α) : h.redo?.map zipper = h.zipper.redo? := by
  cases hf : h.zipper.future with
  | nil =>
    have hlen : ¬ h.pointer + 1 < h.moments.length := by
      simpa [zipper, List.drop_eq_nil_iff] using hf
    rw [(Zipper.redo?_eq_none_iff _).2 hf, redo?, dif_neg hlen, Option.map_none]
  | cons x future =>
    have hs : h.snapshots = h.zipper.past ++ [h.zipper.present] ++ x :: future := by
      rw [← toList_zipper, Zipper.toList, hf]
    have hlen : h.pointer + 1 < h.moments.length := by
      rw [← length_snapshots, hs, ← length_past]; simp
    rw [redo?, dif_pos hlen, Option.map_some, Zipper.redo?, hf, List.head?_cons, Option.map_some,
      List.tail_cons]
    refine congrArg some (zipper_eq ?_ (by simp [length_past]))
    rw [Zipper.toList, List.append_assoc _ [x], List.singleton_append]
    exact hs

/-- Undo and redo keep the line, and what it may become. -/
theorem undo?_eq_some {h h' : History α} (hu : h.undo? = some h') :
    h'.capacity = h.capacity ∧ h'.moments = h.moments ∧ h'.pushes = h.pushes := by
  simp only [undo?, Option.ite_none_right_eq_some, Option.some.injEq] at hu
  obtain ⟨-, rfl⟩ := hu
  exact ⟨rfl, rfl, rfl⟩

theorem redo?_eq_some {h h' : History α} (hr : h.redo? = some h') :
    h'.capacity = h.capacity ∧ h'.moments = h.moments ∧ h'.pushes = h.pushes := by
  simp only [redo?, Option.dite_none_right_eq_some, Option.some.injEq] at hr
  obtain ⟨-, rfl⟩ := hr
  exact ⟨rfl, rfl, rfl⟩

/-! ### Runs -/

/-- What a property of histories needs to hold along a run: a push keeps it, and so does standing
elsewhere on the same line. -/
theorem after_induction {P : History α → Prop} (hpush : ∀ h x, P h → P (h.push x))
    (hmove : ∀ h h' : History α, h'.capacity = h.capacity → h'.moments = h.moments →
      h'.pushes = h.pushes → P h → P h') (moves : List (Move α)) :
    ∀ h : History α, P h → P (h.after moves) := by
  induction moves with
  | nil => exact fun _ hP => hP
  | cons m moves ih =>
    intro h hP
    refine ih _ ?_
    cases m with
    | push x => exact hpush h x hP
    | undo =>
      cases hu : h.undo? with
      | none => simpa [step, hu] using hP
      | some h' =>
        obtain ⟨hc, hm, hn⟩ := undo?_eq_some hu
        simpa [step, hu] using hmove h h' hc hm hn hP
    | redo =>
      cases hr : h.redo? with
      | none => simpa [step, hr] using hP
      | some h' =>
        obtain ⟨hc, hm, hn⟩ := redo?_eq_some hr
        simpa [step, hr] using hmove h h' hc hm hn hP

theorem capacity_after (h : History α) (moves : List (Move α)) :
    (h.after moves).capacity = h.capacity :=
  after_induction (P := fun h' => h'.capacity = h.capacity) (fun _ _ e => e)
    (fun _ _ hc _ _ e => hc.trans e) moves h rfl

/-- A move of the history is the move of the zipper. -/
theorem zipper_step {h : History α} (hc : h.capacity = .count c pos) (m : Move α) :
    ((h.step m).1.zipper, (h.step m).2) = h.zipper.step c m := by
  cases m with
  | push x => rw [step, Zipper.step, zipper_push hc]
  | undo =>
    rw [step, Zipper.step, ← zipper_undo?]
    cases h.undo? <;> rfl
  | redo =>
    rw [step, Zipper.step, ← zipper_redo?]
    cases h.redo? <;> rfl

/-- A run of the history is the run of the zipper. -/
theorem zipper_after {h : History α} (hc : h.capacity = .count c pos) (moves : List (Move α)) :
    (h.after moves).zipper = h.zipper.after c moves := by
  induction moves generalizing h with
  | nil => rfl
  | cons m moves ih =>
    have hstep : (h.step m).1.zipper = (h.zipper.step c m).1 := by rw [← zipper_step hc]
    have hc' : (h.step m).1.capacity = .count c pos := by
      rw [← hc]; exact capacity_after h [m]
    show ((h.step m).1.after moves).zipper = ((h.zipper.step c m).1).after c moves
    rw [ih hc', hstep]

end History

end GuiBuilder
