import GuiBuilder.Proofs.LineDiff.EditScript

/-!
# What the counts of a difference say

Each line of the old text is kept or removed and each line of the new text is kept or added, so the counts of
a difference add up to the numbers of lines. Two texts that are equal match line by line, however often a line
is repeated: the first lines left are equal at every step. Conversely, where nothing is added or removed, the
two texts are read off the same entries.

A line is kept exactly if the texts have one in common. An old line is passed by without a match only where
the first new line occurs later, and a new one only where it does not occur at all, so a first common line is
never passed by (`count_same_betweenLines_pos_iff`).
-/

namespace GuiBuilder.LineDiff

variable {entries : List Entry} {old new : List Text}

@[simp] theorem count_nil (change : Change) : count change [] = 0 := rfl

theorem count_cons (change : Change) (e : Entry) (entries : List Entry) :
    count change (e :: entries) = count change entries + if e.change = change then 1 else 0 := by
  simp [count, List.countP_cons]

theorem count_eq_zero_iff {change : Change} : count change entries = 0 ↔ ∀ e ∈ entries, e.change ≠ change := by
  simp [count]

theorem length_oldSide (entries : List Entry) :
    (oldSide entries).length = count .same entries + count .removed entries := by
  induction entries with
  | nil => rfl
  | cons e entries ih =>
    rw [oldSide_cons, count_cons, count_cons]
    cases e.change <;> simp [ih] <;> omega

theorem length_newSide (entries : List Entry) :
    (newSide entries).length = count .same entries + count .added entries := by
  induction entries with
  | nil => rfl
  | cons e entries ih =>
    rw [newSide_cons, count_cons, count_cons]
    cases e.change <;> simp [ih] <;> omega

/-! ### Texts without a difference -/

/-- Where all entries keep a line, both sides are the same lines. -/
theorem oldSide_eq_newSide (h : ∀ e ∈ entries, e.change = .same) : oldSide entries = newSide entries := by
  induction entries with
  | nil => rfl
  | cons e entries ih =>
    rw [List.forall_mem_cons] at h
    rw [oldSide_cons, newSide_cons, h.1, ih h.2, if_neg Change.noConfusion, if_neg Change.noConfusion]

theorem betweenLines_self (ls : List Text) : betweenLines ls ls = ls.map (Entry.mk .same) := by
  induction ls with
  | nil => rw [betweenLines, List.map_nil]
  | cons line ls ih => rw [betweenLines_same, ih, List.map_cons]

theorem all_same_betweenLines_iff : (∀ e ∈ betweenLines old new, e.change = .same) ↔ old = new := by
  constructor
  · intro h
    calc old
      _ = oldSide (betweenLines old new) := (oldSide_betweenLines old new).symm
      _ = newSide (betweenLines old new) := oldSide_eq_newSide h
      _ = new := newSide_betweenLines old new
  · rintro rfl
    rw [betweenLines_self]
    exact List.forall_mem_map.2 fun _ _ => rfl

theorem count_added_removed_eq_zero_iff :
    count .added entries = 0 ∧ count .removed entries = 0 ↔ ∀ e ∈ entries, e.change = .same := by
  rw [count_eq_zero_iff, count_eq_zero_iff]
  constructor
  · rintro ⟨hadded, hremoved⟩ e he
    cases hchange : e.change with
    | same => rfl
    | added => exact absurd hchange (hadded e he)
    | removed => exact absurd hchange (hremoved e he)
  · intro h
    exact ⟨fun e he => by simp [h e he], fun e he => by simp [h e he]⟩

/-! ### Texts with a common line -/

/-- **A line is kept exactly if there is a common one.** -/
theorem count_same_betweenLines_pos_iff (old new : List Text) :
    0 < count .same (betweenLines old new) ↔ ∃ line ∈ old, line ∈ new := by
  fun_induction betweenLines old new with
  | case1 => simp
  | case2 n new ih => simpa [count_cons] using ih
  | case3 o old ih => simpa [count_cons] using ih
  | case4 old o new ih => simp [count_cons]
  | case5 o old n new hne hmem ih =>
    -- the new line occurs among the old ones that are left, so they still have it in common
    have hlater : ∃ line ∈ old, line ∈ n :: new := ⟨n, hmem, List.mem_cons_self⟩
    have hcommon : ∃ line ∈ o :: old, line ∈ n :: new := ⟨n, List.mem_cons_of_mem o hmem, List.mem_cons_self⟩
    rw [count_cons, if_neg Change.noConfusion, Nat.add_zero]
    exact iff_of_true (ih.2 hlater) hcommon
  | case6 o old n new hne hmem ih =>
    -- the new line is none of the old ones, so it is no common one
    have hnot : n ∉ o :: old := by
      rw [List.mem_cons, not_or]
      exact ⟨Ne.symm hne, hmem⟩
    rw [count_cons, if_neg Change.noConfusion, Nat.add_zero, ih]
    constructor
    · rintro ⟨line, hold, hnew⟩
      exact ⟨line, hold, List.mem_cons_of_mem n hnew⟩
    · rintro ⟨line, hold, hnew⟩
      refine ⟨line, hold, (List.mem_cons.1 hnew).resolve_left ?_⟩
      rintro rfl
      exact hnot hold

/-! ### The counts of two texts -/

theorem lines_inj {t u : Text} : lines t = lines u ↔ t = u := by
  constructor
  · intro h
    rw [← join_lines t, h, join_lines]
  · rintro rfl
    rfl

/-- **Changes are detected and counted exactly.** Two texts have changes exactly if they differ, and then, and
only then, a line is added or removed. The lines that are kept or removed are as many as the old text has, and
those that are kept or added as many as the new text has; a line is kept exactly if the two have one in
common. -/
theorem changes_counted (old new : Text) :
    let entries := between old new
    (hasChanges old new = false ↔ old = new) ∧
    (count .added entries = 0 ∧ count .removed entries = 0 ↔ old = new) ∧
    count .same entries + count .removed entries = (lines old).length ∧
    count .same entries + count .added entries = (lines new).length ∧
    (0 < count .same entries ↔ ∃ line ∈ lines old, line ∈ lines new) := by
  intro entries
  have hsame : (∀ e ∈ entries, e.change = .same) ↔ old = new := all_same_betweenLines_iff.trans lines_inj
  refine ⟨?_, count_added_removed_eq_zero_iff.trans hsame, ?_, ?_, count_same_betweenLines_pos_iff _ _⟩
  · rw [← hsame, hasChanges, List.any_eq_false]
    simp [entries]
  · rw [← oldSide_between old new, length_oldSide]
  · rw [← newSide_between old new, length_newSide]

end GuiBuilder.LineDiff
