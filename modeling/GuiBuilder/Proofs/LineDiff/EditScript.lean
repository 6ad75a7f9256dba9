import GuiBuilder.Proofs.Text.Lines
import Mathlib.Data.List.GetD

/-!
# A difference is a faithful edit script

The entries that keep or remove a line are the old text, those that keep or add one the new text:
`oldSide` and `newSide` read the two off, and `between_faithful` says that nothing is lost, repeated
or put in another order.

The matcher can also be run as a loop: `Cursors` counts the lines passed in either text, and the loop
takes the first of four branches whose test holds. The last branch passes over a new line and
reports nothing. It is never taken (`branch_ne_passed`): where the old lines are used up, any new
line is one that does not occur among the rest of them. The loop reports the entries of
`betweenLines` for the lines that are left (`entries_run`).
-/

namespace GuiBuilder.LineDiff

/-- The lines of the old text in an edit script: those that are kept or removed. -/
def oldSide (entries : List Entry) : List Text :=
  (entries.filter fun e => decide (e.change ≠ .added)).map Entry.line

/-- The lines of the new text in an edit script: those that are kept or added. -/
def newSide (entries : List Entry) : List Text :=
  (entries.filter fun e => decide (e.change ≠ .removed)).map Entry.line

@[simp] theorem oldSide_nil : oldSide [] = [] := rfl

@[simp] theorem newSide_nil : newSide [] = [] := rfl

theorem oldSide_cons (e : Entry) (entries : List Entry) :
    oldSide (e :: entries) = if e.change = .added then oldSide entries else e.line :: oldSide entries := by
  by_cases h : e.change = .added <;> simp [oldSide, h]

theorem newSide_cons (e : Entry) (entries : List Entry) :
    newSide (e :: entries) = if e.change = .removed then newSide entries else e.line :: newSide entries := by
  by_cases h : e.change = .removed <;> simp [newSide, h]

/-- The old side of an edit script is the old lines. -/
theorem oldSide_betweenLines (old new : List Text) : oldSide (betweenLines old new) = old := by
  fun_induction betweenLines old new <;> simp_all [oldSide_cons]

/-- The new side of an edit script is the new lines. -/
theorem newSide_betweenLines (old new : List Text) : newSide (betweenLines old new) = new := by
  fun_induction betweenLines old new <;> simp_all [newSide_cons]

/-- The old side of a difference is the lines of the old text. -/
theorem oldSide_between (old new : Text) : oldSide (between old new) = lines old := oldSide_betweenLines _ _

/-- The new side of a difference is the lines of the new text. -/
theorem newSide_between (old new : Text) : newSide (between old new) = lines new := newSide_betweenLines _ _

/-- The lines of a difference are lines of either text. -/
theorem line_mem_of_mem_between {old new : Text} {e : Entry} (h : e ∈ between old new) :
    e.line ∈ lines old ∨ e.line ∈ lines new := by
  by_cases hadded : e.change = .added
  · right
    rw [← newSide_between old new]
    exact List.mem_map_of_mem (List.mem_filter.2 ⟨h, by rw [hadded]; rfl⟩)
  · left
    rw [← oldSide_between old new]
    exact List.mem_map_of_mem (List.mem_filter.2 ⟨h, decide_eq_true hadded⟩)

/-! ### What the matcher does with the first lines -/

theorem betweenLines_same (o : Text) (old new : List Text) :
    betweenLines (o :: old) (o :: new) = ⟨.same, o⟩ :: betweenLines old new := by
  rw [betweenLines, if_pos rfl]

theorem betweenLines_added {n : Text} {old : List Text} (h : n ∉ old) (new : List Text) :
    betweenLines old (n :: new) = ⟨.added, n⟩ :: betweenLines old new := by
  cases old with
  | nil => rw [betweenLines]
  | cons o old =>
    rw [List.mem_cons, not_or] at h
    rw [betweenLines, if_neg (Ne.symm h.1), if_neg h.2]

theorem betweenLines_removed {o : Text} {old new : List Text}
    (h : ∀ n ∈ new.head?, o ≠ n ∧ n ∈ o :: old) :
    betweenLines (o :: old) new = ⟨.removed, o⟩ :: betweenLines old new := by
  cases new with
  | nil => rw [betweenLines]
  | cons n new =>
    obtain ⟨hne, hmem⟩ := h n rfl
    rw [betweenLines, if_neg hne, if_pos ((List.mem_cons.1 hmem).resolve_left (Ne.symm hne))]

/-! ### The matcher as a loop -/

/-- How many lines of either text the loop has passed, and what it has reported. -/
structure Cursors where
  old : ℕ
  new : ℕ
  entries : List Entry

/-- The branches of the loop, in the order in which they are tried. -/
inductive Branch where
  /-- The lines at the cursors are equal. -/
  | same
  /-- The new line occurs nowhere in the rest of the old text. -/
  | added
  /-- There is an old line. -/
  | removed
  /-- None of these: a new line is passed over. -/
  | passed
deriving DecidableEq

namespace Cursors

variable (old new : List Text) (s : Cursors)

/-- The cursors at the first lines. -/
def start : Cursors := ⟨0, 0, []⟩

/-- The loop goes on while a cursor stands on a line. -/
def Running : Prop := s.old < old.length ∨ s.new < new.length

instance : Decidable (s.Running old new) := inferInstanceAs (Decidable (_ ∨ _))

/-- The old line at its cursor. -/
def oldLine : Text := old.getD s.old []

/-- The new line at its cursor. -/
def newLine : Text := new.getD s.new []

/-- The branch that a running loop takes. -/
def branch : Branch :=
  if s.old < old.length ∧ s.new < new.length ∧ s.oldLine old = s.newLine new then .same
  else if s.new < new.length ∧ s.newLine new ∉ old.drop s.old then .added
  else if s.old < old.length then .removed
  else .passed

/-- The cursors after a turn of the loop. -/
def turn : Cursors :=
  match s.branch old new with
  | .same => ⟨s.old + 1, s.new + 1, s.entries ++ [⟨.same, s.oldLine old⟩]⟩
  | .added => ⟨s.old, s.new + 1, s.entries ++ [⟨.added, s.newLine new⟩]⟩
  | .removed => ⟨s.old + 1, s.new, s.entries ++ [⟨.removed, s.oldLine old⟩]⟩
  | .passed => ⟨s.old, s.new + 1, s.entries⟩

/-- How many lines are left. -/
def left : ℕ := (old.length - s.old) + (new.length - s.new)

variable {old new s}

/-- **The branch that reports nothing is never taken**, wherever the cursors stand. -/
theorem branch_ne_passed (h : s.Running old new) : s.branch old new ≠ .passed := by
  unfold branch
  split_ifs with hsame hadded hold
  · exact Branch.noConfusion
  · exact Branch.noConfusion
  · exact Branch.noConfusion
  · -- the old lines are used up, so the test of the second branch held
    have hdrop : old.drop s.old = [] := List.drop_eq_nil_of_le (by omega)
    rw [hdrop] at hadded
    exact absurd ⟨h.resolve_left hold, List.not_mem_nil⟩ hadded

theorem drop_old (h : s.old < old.length) :
    old.drop s.old = s.oldLine old :: old.drop (s.old + 1) := by
  rw [oldLine, List.getD_eq_getElem _ _ h, List.drop_eq_getElem_cons h]

theorem drop_new (h : s.new < new.length) :
    new.drop s.new = s.newLine new :: new.drop (s.new + 1) := by
  rw [newLine, List.getD_eq_getElem _ _ h, List.drop_eq_getElem_cons h]

/-- A turn passes at least one line. -/
theorem left_turn_lt (h : s.Running old new) : (s.turn old new).left old new < s.left old new := by
  unfold Running at h
  unfold turn branch
  split_ifs with hsame hadded hold <;> simp only [left] <;> omega

/-- A turn reports what the matcher does next with the lines that are left. -/
theorem entries_turn (h : s.Running old new) :
    (s.turn old new).entries
        ++ betweenLines (old.drop (s.turn old new).old) (new.drop (s.turn old new).new)
      = s.entries ++ betweenLines (old.drop s.old) (new.drop s.new) := by
  have hb := branch_ne_passed h
  unfold turn
  unfold branch at hb ⊢
  split_ifs at hb ⊢ with hsame hadded hold
  · obtain ⟨hi, hj, heq⟩ := hsame
    rw [drop_old hi, drop_new hj, ← heq, betweenLines_same, List.append_assoc, List.singleton_append]
  · rw [drop_new hadded.1, betweenLines_added hadded.2, List.append_assoc, List.singleton_append]
  · have hfirst : ∀ n ∈ (new.drop s.new).head?,
        s.oldLine old ≠ n ∧ n ∈ s.oldLine old :: old.drop (s.old + 1) := by
      intro n hn
      have hj : s.new < new.length := by
        by_contra hj
        rw [List.drop_eq_nil_of_le (Nat.le_of_not_lt hj)] at hn
        cases hn
      rw [drop_new hj, List.head?_cons, Option.mem_some] at hn
      subst hn
      rw [← drop_old hold]
      exact ⟨fun e => hsame ⟨hold, hj, e⟩, by_contra fun e => hadded ⟨hj, e⟩⟩
    rw [drop_old hold, betweenLines_removed hfirst, List.append_assoc, List.singleton_append]
  · exact absurd rfl hb

variable (old new s)

/-- Turns of the loop, as long as it is running. -/
def run (s : Cursors) : Cursors :=
  if _h : s.Running old new then run (s.turn old new) else s
termination_by s.left old new
decreasing_by exact left_turn_lt _h

/-- The loop reports what the matcher does with the lines that are left. -/
theorem entries_run :
    (s.run old new).entries = s.entries ++ betweenLines (old.drop s.old) (new.drop s.new) := by
  fun_induction run old new s with
  | case1 s h ih => rw [ih, entries_turn h]
  | case2 s h =>
    simp only [Running, not_or, Nat.not_lt] at h
    rw [List.drop_eq_nil_of_le h.1, List.drop_eq_nil_of_le h.2, betweenLines, List.append_nil]

end Cursors

/-! ### The edit script -/

/-- **A difference is a faithful edit script.** The lines that it keeps or removes are the old text
and those that it keeps or adds the new text, line by line and joined by line feeds. It is what the
loop over two cursors reports, and wherever a running loop may stand, the branch that passes over a
new line without a report is not the one it takes. -/
theorem between_faithful (old new : Text) :
    (Text.join "\n" (oldSide (between old new)) = old ∧
      Text.join "\n" (newSide (between old new)) = new) ∧
    (oldSide (between old new) = lines old ∧ newSide (between old new) = lines new) ∧
    (Cursors.start.run (lines old) (lines new)).entries = between old new ∧
    ∀ s : Cursors, s.Running (lines old) (lines new) → s.branch (lines old) (lines new) ≠ .passed := by
  have hold : oldSide (between old new) = lines old := oldSide_betweenLines _ _
  have hnew : newSide (between old new) = lines new := newSide_betweenLines _ _
  refine ⟨⟨?_, ?_⟩, ⟨hold, hnew⟩, ?_, fun _ h => Cursors.branch_ne_passed h⟩
  · rw [hold, join_lines]
  · rw [hnew, join_lines]
  · rw [Cursors.entries_run]
    rfl

end GuiBuilder.LineDiff
