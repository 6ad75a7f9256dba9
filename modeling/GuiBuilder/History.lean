/-!
# Bounded history

A history is a line of snapshots with a pointer to the current one. Undo and redo move the
pointer. A push drops what is ahead of the pointer, appends the new snapshot and makes it the
current one; when there are then more snapshots than the capacity allows, the oldest ones go.

A capacity is usually a number of snapshots. It may also be a bound that is not given as a whole
number: then there is no saying how many snapshots have to go, and a push that exceeds the bound
stalls. It appends the snapshot, but takes none away and leaves the pointer where it was.

Each snapshot carries the number of the push that brought it in, its tick; the first one has tick
zero. The pointer always stands on a snapshot, so there is always a current one.
-/

namespace GuiBuilder

/-- A snapshot and the number of the push that brought it in. -/
structure Moment (α : Type) where
  snapshot : α
  tick : Nat

/-- How many snapshots a history keeps. -/
inductive Capacity where
  /-- The newest ones, so many of them. -/
  | count (n : Nat) (pos : 0 < n)
  /-- All of them. -/
  | unbounded
  /-- All of them up to a bound; a push beyond it stalls. -/
  | bound (n : Nat)
deriving DecidableEq

/-- A line of snapshots, oldest first, with a pointer to the current one. -/
structure History (α : Type) where
  /-- How many snapshots are kept. -/
  capacity : Capacity
  moments : List (Moment α)
  pointer : Nat
  /-- How many pushes there have been. -/
  pushes : Nat
  pointer_lt : pointer < moments.length

namespace History

variable {α : Type}

/-- The wording of the refusal of a capacity below one. -/
def badCapacity : String := "History capacity must be at least 1"

/-- A history with one snapshot. -/
def start (capacity : Capacity) (initial : α) : History α :=
  ⟨capacity, [⟨initial, 0⟩], 0, 0, by simp⟩

/-- The current moment. -/
def present (h : History α) : Moment α := h.moments.get ⟨h.pointer, h.pointer_lt⟩

/-- The current snapshot. -/
def current (h : History α) : α := h.present.snapshot

/-- How many snapshots there are. -/
def length (h : History α) : Nat := h.moments.length

/-- Whether there is a snapshot behind the current one. -/
def canUndo (h : History α) : Bool := decide (0 < h.pointer)

/-- Whether there is a snapshot ahead of the current one. -/
def canRedo (h : History α) : Bool := decide (h.pointer + 1 < h.moments.length)

/-- The line of snapshots after a push, before the oldest ones go. -/
def extended (h : History α) (snapshot : α) : List (Moment α) :=
  h.moments.take (h.pointer + 1) ++ [⟨snapshot, h.pushes + 1⟩]

/-- The snapshots of a line that a capacity keeps. -/
def kept (capacity : Capacity) (line : List (Moment α)) : List (Moment α) :=
  match capacity with
  | .count n _ => line.drop (line.length - n)
  | .unbounded | .bound _ => line

/-- The line of snapshots after a push. -/
def pushed (h : History α) (snapshot : α) : List (Moment α) :=
  kept h.capacity (h.extended snapshot)

theorem length_extended (h : History α) (snapshot : α) :
    (h.extended snapshot).length = h.pointer + 2 := by
  have := h.pointer_lt
  simp [extended]
  omega

theorem kept_length_pos {capacity : Capacity} {line : List (Moment α)} (h : 0 < line.length) :
    0 < (kept capacity line).length := by
  cases capacity with
  | count n pos => rw [kept, List.length_drop]; omega
  | unbounded => exact h
  | bound n => exact h

theorem pushed_length_pos (h : History α) (snapshot : α) : 0 < (h.pushed snapshot).length :=
  kept_length_pos (by rw [length_extended]; omega)

/-- The history after a push. -/
def push (h : History α) (snapshot : α) : History α where
  capacity := h.capacity
  moments := h.pushed snapshot
  pointer := (h.pushed snapshot).length - 1
  pushes := h.pushes + 1
  pointer_lt := by have := h.pushed_length_pos snapshot; omega

/-- Whether the next push stalls. -/
def stalls (h : History α) : Bool :=
  match h.capacity with
  | .bound n => decide (n < h.pointer + 2)
  | .count .. | .unbounded => false

/-- The history after a push that stalls: the snapshot stands ahead of the current one. -/
def stalled (h : History α) (snapshot : α) : History α where
  capacity := h.capacity
  moments := h.extended snapshot
  pointer := h.pointer
  pushes := h.pushes + 1
  pointer_lt := by rw [length_extended]; omega

/-- The history with the snapshot behind the current one as current, if there is one. -/
def undo? (h : History α) : Option (History α) :=
  if 0 < h.pointer then
    some { h with pointer := h.pointer - 1, pointer_lt := by have := h.pointer_lt; omega }
  else none

/-- The history with the snapshot ahead of the current one as current, if there is one. -/
def redo? (h : History α) : Option (History α) :=
  if hlt : h.pointer + 1 < h.moments.length then
    some { h with pointer := h.pointer + 1, pointer_lt := hlt }
  else none

end History

end GuiBuilder
