import GuiBuilder.LineDiff
import Mathlib.Data.List.Basic

/-!
# Texts and their lines

`Text.split` and `Text.join` at one separator are inverse to each other, as those of lists are: the
pieces of a text never hold the separator, and pieces that do not hold it are found again.
-/

namespace GuiBuilder

/-- What holds of all beginnings of a list. -/
theorem forall_prefix_cons {α : Type} {a : α} {l : List α} {P : List α → Prop} :
    (∀ u, u <+: a :: l → P u) ↔ P [] ∧ ∀ u, u <+: l → P (a :: u) := by
  simp only [List.prefix_cons_iff, forall_eq_or_imp, forall_exists_index, and_imp]
  constructor
  · exact fun h => ⟨h.1, fun u hu => h.2 _ u rfl hu⟩
  · rintro ⟨hnil, hcons⟩
    refine ⟨hnil, ?_⟩
    rintro _ u rfl hu
    exact hcons u hu

namespace Text

theorem ofString_inj {s t : String} : ofString s = ofString t ↔ s = t := by
  rw [ofString, ofString, List.map_inj_right fun _ _ => CodePoint.char.inj, String.toList_inj]

theorem join_eq_intercalate (separator : Text) (ts : List Text) :
    join separator ts = separator.intercalate ts := by
  fun_induction join separator ts with
  | case1 => rw [List.intercalate_nil]
  | case2 t => rw [List.intercalate_singleton]
  | case3 t u rest ih => rw [ih, List.intercalate_cons_cons]

theorem split_eq_splitOn (separator : CodePoint) (t : Text) :
    split separator t = t.splitOn separator := by
  induction t with
  | nil => rw [split, List.splitOn_nil]
  | cons p t ih =>
    rw [List.splitOn_cons_eq_if_modifyHead, split, ih]
    have hne := List.splitOn_ne_nil separator t
    by_cases hp : p = separator
    · simp [hp]
    · cases ht : t.splitOn separator with
      | nil => exact absurd ht hne
      | cons line lines => simp [hp]

theorem split_ne_nil (separator : CodePoint) (t : Text) : split separator t ≠ [] := by
  rw [split_eq_splitOn]
  exact List.splitOn_ne_nil _ _

/-- The pieces of a text, joined again, are the text. -/
theorem join_split (separator : CodePoint) (t : Text) : join [separator] (split separator t) = t := by
  rw [join_eq_intercalate, split_eq_splitOn, List.intercalate_splitOn]

/-- Pieces that do not hold the separator are the pieces of their join. -/
theorem split_join {separator : CodePoint} {ts : List Text} (h : ∀ t ∈ ts, separator ∉ t)
    (hne : ts ≠ []) : split separator (join [separator] ts) = ts := by
  rw [join_eq_intercalate, split_eq_splitOn, List.splitOn_intercalate _ h hne]

/-- A text that does not hold the separator is one piece. -/
theorem split_of_not_mem {separator : CodePoint} {t : Text} (h : separator ∉ t) :
    split separator t = [t] :=
  split_join (List.forall_mem_singleton.2 h) (List.cons_ne_nil _ _)

/-- No piece holds the separator. -/
theorem not_mem_of_mem_split {separator : CodePoint} {t piece : Text}
    (h : piece ∈ split separator t) : separator ∉ piece := by
  induction t generalizing piece with
  | nil => simp_all [split]
  | cons p t ih =>
    simp only [split] at h
    split at h
    · rcases List.mem_cons.1 h with rfl | h
      · exact List.not_mem_nil
      · exact ih h
    · next hp =>
      cases hs : split separator t with
      | nil => exact absurd hs (split_ne_nil separator t)
      | cons line lines =>
        rw [hs] at h
        rcases List.mem_cons.1 h with rfl | h
        · rw [List.mem_cons, not_or]
          exact ⟨Ne.symm hp, ih (hs ▸ List.mem_cons_self)⟩
        · exact ih (hs ▸ List.mem_cons_of_mem _ h)

/-- Texts with a separator between them have the pieces of both. -/
theorem split_append_cons (separator : CodePoint) (t u : Text) :
    split separator (t ++ separator :: u) = split separator t ++ split separator u := by
  rw [split_eq_splitOn, split_eq_splitOn, split_eq_splitOn, List.splitOn_append_cons_self]

/-- Joined texts have the pieces of all of them. -/
theorem split_join_eq_flatMap (separator : CodePoint) {ts : List Text} (hne : ts ≠ []) :
    split separator (join [separator] ts) = ts.flatMap (split separator) := by
  fun_induction join [separator] ts with
  | case1 => exact absurd rfl hne
  | case2 t => rw [List.flatMap_singleton]
  | case3 t u rest ih =>
    rw [List.flatMap_cons, List.append_assoc, List.singleton_append, split_append_cons,
      ih (List.cons_ne_nil _ _)]

/-- What is put at the end of a text belongs to its last piece, unless it is the separator. -/
theorem exists_split_concat {separator p : CodePoint} (hp : p ≠ separator) (t : Text) :
    ∃ front last, split separator (t ++ [p]) = front ++ [last ++ [p]] := by
  induction t with
  | nil => exact ⟨[], [], by simp [split, hp]⟩
  | cons q t ih =>
    obtain ⟨front, last, h⟩ := ih
    rw [List.cons_append, split, h]
    by_cases hq : q = separator
    · exact ⟨[] :: front, last, by simp [hq]⟩
    · cases front with
      | nil => exact ⟨[], q :: last, by simp [hq]⟩
      | cons piece front => exact ⟨(q :: piece) :: front, last, by simp [hq]⟩

theorem sublist_join {separator t : Text} {ts : List Text} (h : t ∈ ts) : t.Sublist (join separator ts) := by
  fun_induction join separator ts with
  | case1 => cases h
  | case2 u => rw [List.mem_singleton.1 h]
  | case3 u v rest ih =>
    rcases List.mem_cons.1 h with rfl | h
    · exact (List.sublist_append_left t separator).trans (List.sublist_append_left _ _)
    · exact (ih h).trans (List.sublist_append_right _ _)

theorem sublist_of_mem_split {separator : CodePoint} {t piece : Text} (h : piece ∈ split separator t) :
    piece.Sublist t := by
  have hjoin : piece.Sublist (join [separator] (split separator t)) := sublist_join h
  rwa [join_split] at hjoin

/-- A join holds nothing that is neither in the separator nor in a piece. -/
theorem not_mem_join {p : CodePoint} {separator : Text} {ts : List Text} (hs : p ∉ separator)
    (h : ∀ t ∈ ts, p ∉ t) : p ∉ join separator ts := by
  fun_induction join separator ts with
  | case1 => exact List.not_mem_nil
  | case2 t => exact h t List.mem_cons_self
  | case3 t u rest ih =>
    rw [List.forall_mem_cons] at h
    rw [List.mem_append, List.mem_append, not_or, not_or]
    exact ⟨⟨h.1, hs⟩, ih h.2⟩

/-- An empty piece at the end adds a separator. -/
theorem join_append_nil (separator : Text) {ts : List Text} (hne : ts ≠ []) :
    join separator (ts ++ [[]]) = join separator ts ++ separator := by
  fun_induction join separator ts with
  | case1 => exact absurd rfl hne
  | case2 t => simp [join]
  | case3 t u rest ih =>
    rw [List.cons_append, List.cons_append, join, ← List.cons_append, ih (List.cons_ne_nil _ _),
      List.append_assoc, List.append_assoc, List.append_assoc]

end Text

namespace LineDiff

/-- The lines of a text, joined by line feeds, are the text. -/
theorem join_lines (t : Text) : Text.join "\n" (lines t) = t := Text.join_split _ t

/-- Lines without line feeds are the lines of the text that they make. -/
theorem lines_join {ls : List Text} (h : ∀ l ∈ ls, .char '\n' ∉ l) (hne : ls ≠ []) :
    lines (Text.join "\n" ls) = ls := Text.split_join h hne

/-- Joined by line feeds, texts make the lines of all of them. -/
theorem lines_join_eq_flatMap {ts : List Text} (hne : ts ≠ []) :
    lines (Text.join "\n" ts) = ts.flatMap lines := Text.split_join_eq_flatMap _ hne

/-- Texts without line feeds are lines. -/
theorem flatMap_lines {ls : List Text} (h : ∀ l ∈ ls, .char '\n' ∉ l) : ls.flatMap lines = ls := by
  by_cases hne : ls = []
  · rw [hne, List.flatMap_nil]
  · rw [← lines_join_eq_flatMap hne, lines_join h hne]

end LineDiff

end GuiBuilder
