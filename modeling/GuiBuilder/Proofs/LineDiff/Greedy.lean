import GuiBuilder.Proofs.LineDiff.EditScript
import Mathlib.Data.List.Induction
import Mathlib.Data.List.TakeWhile

/-!
# The greedy edit script

Two texts have many edit scripts. The one that the matcher gives is the only one with three properties
(`Greedy`): the two texts can be read off it; a line that is added occurs in no later entry that keeps or
removes a line; and each run of removed lines goes on to the end, or to a line that is kept and differs from
all that were removed in the run.

It can also be said by the new lines alone (`FirstMatches`): each of them, in order, is matched with its
first occurrence among the old lines that are left, what stands before that occurrence is removed, and a
line that does not occur is added.

Both descriptions fix what the first entry is and leave the same to be said of the others, with one lemma
for each kind of entry, and that is what the matcher does with the first lines.
-/

namespace GuiBuilder.LineDiff

/-! ### Runs of removed lines -/

/-- A maximal run of removed lines in an edit script, and what comes after it. -/
structure RemovedRun (entries run after : List Entry) : Prop where
  ne_nil : run ≠ []
  removed : ∀ e ∈ run, e.change = .removed
  /-- It cannot be longer at its start. -/
  start : ∃ before, entries = before ++ run ++ after ∧ ∀ e ∈ before.getLast?, e.change ≠ .removed
  /-- Nor at its end. -/
  stop : ∀ e ∈ after.head?, e.change ≠ .removed

/-- After a run of removed lines comes nothing, or a line that is kept and is none of them. -/
def Settles (run after : List Entry) : Prop :=
  after = [] ∨ ∃ line rest, after = ⟨.same, line⟩ :: rest ∧ ∀ e ∈ run, e.line ≠ line

/-- All runs of removed lines are settled, also those that could be longer at their start. -/
def AllSettled (entries : List Entry) : Prop :=
  ∀ before run after, entries = before ++ run ++ after → run ≠ [] → (∀ e ∈ run, e.change = .removed) →
    (∀ e ∈ after.head?, e.change ≠ .removed) → Settles run after

theorem Settles.tail {e : Entry} {run after : List Entry} (h : Settles (e :: run) after) :
    Settles run after := by
  rcases h with hnil | ⟨line, rest, hafter, hne⟩
  · exact .inl hnil
  · exact .inr ⟨line, rest, hafter, (List.forall_mem_cons.1 hne).2⟩

/-- It is enough to settle the maximal runs. -/
theorem allSettled_iff {entries : List Entry} :
    AllSettled entries ↔ ∀ run after, RemovedRun entries run after → Settles run after := by
  constructor
  · intro h run after hrun
    obtain ⟨before, hentries, -⟩ := hrun.start
    exact h before run after hentries hrun.ne_nil hrun.removed hrun.stop
  · intro h before
    -- a removed line just before the run belongs to it
    induction before using List.reverseRecOn with
    | nil =>
      intro run after hentries hne hremoved hstop
      exact h run after ⟨hne, hremoved, ⟨[], hentries, by simp⟩, hstop⟩
    | append_singleton before e ih =>
      intro run after hentries hne hremoved hstop
      by_cases he : e.change = .removed
      · have hlonger : entries = before ++ (e :: run) ++ after := by simpa using hentries
        have hall : ∀ x ∈ e :: run, x.change = .removed := List.forall_mem_cons.2 ⟨he, hremoved⟩
        exact (ih (e :: run) after hlonger (List.cons_ne_nil _ _) hall hstop).tail
      · exact h run after ⟨hne, hremoved, ⟨before ++ [e], hentries, by simpa using he⟩, hstop⟩

theorem allSettled_nil : AllSettled [] := by
  intro before run after hentries hne
  simp [hne] at hentries

/-- An entry that removes nothing is in no run. -/
theorem allSettled_cons_of_ne {e : Entry} {entries : List Entry} (he : e.change ≠ .removed) :
    AllSettled (e :: entries) ↔ AllSettled entries := by
  constructor
  · intro h before run after hentries
    exact h (e :: before) run after (by simp [hentries])
  · intro h before run after hentries hne hremoved hstop
    cases before with
    | nil =>
      obtain ⟨first, run, rfl⟩ := List.exists_cons_of_ne_nil hne
      obtain ⟨rfl, -⟩ := List.cons.inj hentries
      exact absurd (hremoved e List.mem_cons_self) he
    | cons b before =>
      obtain ⟨-, htail⟩ := List.cons.inj hentries
      exact h before run after htail hne hremoved hstop

/-- One that removes a line makes the run longer that starts after it, if there is one. -/
theorem allSettled_cons_removed {line : Text} {entries : List Entry} :
    AllSettled (⟨.removed, line⟩ :: entries) ↔ AllSettled entries ∧
      ∀ run after, entries = run ++ after → (∀ e ∈ run, e.change = .removed) →
        (∀ e ∈ after.head?, e.change ≠ .removed) → Settles (⟨.removed, line⟩ :: run) after := by
  constructor
  · intro h
    refine ⟨fun before run after hentries => h (⟨.removed, line⟩ :: before) run after (by simp [hentries]), ?_⟩
    intro run after hentries hremoved hstop
    exact h [] (⟨.removed, line⟩ :: run) after (by simp [hentries]) (List.cons_ne_nil _ _)
      (List.forall_mem_cons.2 ⟨rfl, hremoved⟩) hstop
  · rintro ⟨h, hfirst⟩ before run after hentries hne hremoved hstop
    cases before with
    | nil =>
      obtain ⟨first, run, rfl⟩ := List.exists_cons_of_ne_nil hne
      obtain ⟨rfl, htail⟩ := List.cons.inj hentries
      exact hfirst run after htail (List.forall_mem_cons.1 hremoved).2 hstop
    | cons b before =>
      obtain ⟨-, htail⟩ := List.cons.inj hentries
      exact h before run after htail hne hremoved hstop

/-! ### Greedy edit scripts -/

/-- An edit script from old to new lines that adds no line that it keeps or removes later, and settles each
run of removed lines. -/
structure Greedy (old new : List Text) (entries : List Entry) : Prop where
  oldSide_eq : oldSide entries = old
  newSide_eq : newSide entries = new
  added : entries.Pairwise fun e later => e.change = .added → later.change ≠ .added → later.line ≠ e.line
  removed : ∀ run after, RemovedRun entries run after → Settles run after

/-- The old lines are those of the entries that do not add one. -/
theorem mem_oldSide {line : Text} {entries : List Entry} :
    line ∈ oldSide entries ↔ ∃ e ∈ entries, e.change ≠ .added ∧ e.line = line := by
  simp [oldSide, and_assoc]

/-- Where nothing is added later that is kept or removed, an added line is none of the old ones. -/
theorem forall_later_iff {line : Text} {entries : List Entry} :
    (∀ later ∈ entries, Change.added = .added → later.change ≠ .added → later.line ≠ line) ↔
      line ∉ oldSide entries := by
  simp only [mem_oldSide, not_exists, not_and, forall_const]

theorem newSide_append (before after : List Entry) :
    newSide (before ++ after) = newSide before ++ newSide after := by
  simp [newSide]

/-- A run of removed lines brings in no new line. -/
theorem newSide_removed {run : List Entry} (h : ∀ e ∈ run, e.change = .removed) : newSide run = [] := by
  simpa [newSide] using h

variable {old new : List Text} {line : Text} {entries : List Entry}

theorem greedy_nil_iff : Greedy old new [] ↔ old = [] ∧ new = [] := by
  constructor
  · intro h
    exact ⟨h.oldSide_eq.symm, h.newSide_eq.symm⟩
  · rintro ⟨rfl, rfl⟩
    exact ⟨rfl, rfl, .nil, allSettled_iff.1 allSettled_nil⟩

/-- A line is kept first: it is the first one of both texts. -/
theorem greedy_same_iff : Greedy old new (⟨.same, line⟩ :: entries) ↔
    ∃ old' new', old = line :: old' ∧ new = line :: new' ∧ Greedy old' new' entries := by
  constructor
  · rintro ⟨hold, hnew, hadded, hremoved⟩
    refine ⟨oldSide entries, newSide entries, ?_, ?_, rfl, rfl, (List.pairwise_cons.1 hadded).2, ?_⟩
    · rw [← hold, oldSide_cons, if_neg (by simp)]
    · rw [← hnew, newSide_cons, if_neg (by simp)]
    · rw [← allSettled_iff] at hremoved ⊢
      exact (allSettled_cons_of_ne (by simp)).1 hremoved
  · rintro ⟨old', new', rfl, rfl, h⟩
    refine ⟨?_, ?_, List.pairwise_cons.2 ⟨by simp, h.added⟩, ?_⟩
    · rw [oldSide_cons, if_neg (by simp), h.oldSide_eq]
    · rw [newSide_cons, if_neg (by simp), h.newSide_eq]
    · rw [← allSettled_iff, allSettled_cons_of_ne (by simp), allSettled_iff]
      exact h.removed

/-- A line is added first: it is the first new one, and none of the old ones. -/
theorem greedy_added_iff : Greedy old new (⟨.added, line⟩ :: entries) ↔
    ∃ new', new = line :: new' ∧ line ∉ old ∧ Greedy old new' entries := by
  constructor
  · rintro ⟨hold, hnew, hadded, hremoved⟩
    rw [List.pairwise_cons] at hadded
    rw [oldSide_cons, if_pos rfl] at hold
    refine ⟨newSide entries, ?_, ?_, hold, rfl, hadded.2, ?_⟩
    · rw [← hnew, newSide_cons, if_neg (by simp)]
    · rw [← hold]
      exact forall_later_iff.1 hadded.1
    · rw [← allSettled_iff] at hremoved ⊢
      exact (allSettled_cons_of_ne (by simp)).1 hremoved
  · rintro ⟨new', rfl, hmem, h⟩
    refine ⟨?_, ?_, List.pairwise_cons.2 ⟨?_, h.added⟩, ?_⟩
    · rw [oldSide_cons, if_pos rfl, h.oldSide_eq]
    · rw [newSide_cons, if_neg (by simp), h.newSide_eq]
    · rw [forall_later_iff, h.oldSide_eq]
      exact hmem
    · rw [← allSettled_iff, allSettled_cons_of_ne (by simp), allSettled_iff]
      exact h.removed

/-- What comes after a run of removed lines settles the line before it too, if that is not the first new
line and the first new line is among the old ones. -/
theorem Greedy.settles_cons (h : Greedy old new entries) (hfirst : ∀ n ∈ new.head?, line ≠ n ∧ n ∈ old)
    {run after : List Entry} (hentries : entries = run ++ after) (hremoved : ∀ e ∈ run, e.change = .removed)
    (hstop : ∀ e ∈ after.head?, e.change ≠ .removed) : Settles (⟨.removed, line⟩ :: run) after := by
  have hnew : new = newSide after := by
    rw [← h.newSide_eq, hentries, newSide_append, newSide_removed hremoved, List.nil_append]
  have hsettled : run ≠ [] → Settles run after := fun hne =>
    allSettled_iff.2 h.removed [] run after hentries hne hremoved hstop
  match after with
  | [] => exact .inl rfl
  | ⟨.removed, n⟩ :: after => exact absurd rfl (hstop _ rfl)
  | ⟨.same, n⟩ :: after =>
    have hne : line ≠ n := (hfirst n (by simp [hnew, newSide_cons])).1
    refine .inr ⟨n, after, rfl, List.forall_mem_cons.2 ⟨hne, ?_⟩⟩
    intro e he
    rcases hsettled (List.ne_nil_of_mem he) with hnil | ⟨line', rest, hafter, hall⟩
    · cases hnil
    · cases hafter
      exact hall e he
  | ⟨.added, n⟩ :: after =>
    -- nothing has been removed in between, so the line would be added although it is an old one
    have hmem : n ∈ old := (hfirst n (by simp [hnew, newSide_cons])).2
    have hrun : run = [] := by
      by_contra hne
      rcases hsettled hne with hnil | ⟨line', rest, hafter, -⟩
      · cases hnil
      · cases hafter
    rw [hrun, List.nil_append] at hentries
    rw [hentries, greedy_added_iff] at h
    obtain ⟨new', -, hnot, -⟩ := h
    exact absurd hmem hnot

/-- A line is removed first: it is the first old one, and the first new line, if there is one, is another
one and occurs later among the old lines. -/
theorem greedy_removed_iff : Greedy old new (⟨.removed, line⟩ :: entries) ↔
    ∃ old', old = line :: old' ∧ (∀ n ∈ new.head?, line ≠ n ∧ n ∈ old') ∧ Greedy old' new entries := by
  constructor
  · rintro ⟨hold, hnew, hadded, hremoved⟩
    rw [← allSettled_iff, allSettled_cons_removed, allSettled_iff] at hremoved
    rw [newSide_cons, if_pos rfl] at hnew
    refine ⟨oldSide entries, ?_, ?_, rfl, hnew, (List.pairwise_cons.1 hadded).2, hremoved.1⟩
    · rw [← hold, oldSide_cons, if_neg (by simp)]
    · -- the first new line is kept behind the run that the removed line starts
      intro n hn
      set p : Entry → Bool := fun e => decide (e.change = .removed) with hp
      have hrun : ∀ e ∈ entries.takeWhile p, e.change = .removed := fun e he => by
        simpa [hp] using List.mem_takeWhile_imp he
      have hsplit : entries = entries.takeWhile p ++ entries.dropWhile p := List.takeWhile_append_dropWhile.symm
      have hstop : ∀ e ∈ (entries.dropWhile p).head?, e.change ≠ .removed := by
        intro e he
        have hnot := List.head?_dropWhile_not p entries
        rw [Option.mem_def.1 he] at hnot
        simpa [hp] using hnot
      have hlast : newSide (entries.dropWhile p) = new := by
        rw [← hnew]
        conv_rhs => rw [hsplit, newSide_append, newSide_removed hrun, List.nil_append]
      rcases hremoved.2 _ _ hsplit hrun hstop with hnil | ⟨kept, rest, hafter, hall⟩
      · rw [← hlast, hnil] at hn
        cases hn
      · rw [← hlast, hafter, newSide_cons, if_neg (by simp)] at hn
        cases hn
        refine ⟨hall _ List.mem_cons_self, mem_oldSide.2 ⟨⟨.same, kept⟩, ?_, by simp, rfl⟩⟩
        rw [hsplit, hafter]
        simp
  · rintro ⟨old', rfl, hfirst, h⟩
    refine ⟨?_, ?_, List.pairwise_cons.2 ⟨by simp, h.added⟩, ?_⟩
    · rw [oldSide_cons, if_neg (by simp), h.oldSide_eq]
    · rw [newSide_cons, if_pos rfl, h.newSide_eq]
    · rw [← allSettled_iff, allSettled_cons_removed, allSettled_iff]
      exact ⟨h.removed, fun run after hentries hremoved hstop => h.settles_cons hfirst hentries hremoved hstop⟩

/-- What the matcher gives is greedy. -/
theorem greedy_betweenLines (old new : List Text) : Greedy old new (betweenLines old new) := by
  fun_induction betweenLines old new with
  | case1 => exact greedy_nil_iff.2 ⟨rfl, rfl⟩
  | case2 n new ih => exact greedy_added_iff.2 ⟨new, rfl, List.not_mem_nil, ih⟩
  | case3 o old ih => exact greedy_removed_iff.2 ⟨old, rfl, by simp, ih⟩
  | case4 old o new ih => exact greedy_same_iff.2 ⟨old, new, rfl, rfl, ih⟩
  | case5 o old n new hne hmem ih =>
    refine greedy_removed_iff.2 ⟨old, rfl, ?_, ih⟩
    rintro _ ⟨⟩
    exact ⟨hne, hmem⟩
  | case6 o old n new hne hmem ih =>
    have hnot : n ∉ o :: old := by
      rw [List.mem_cons, not_or]
      exact ⟨Ne.symm hne, hmem⟩
    exact greedy_added_iff.2 ⟨new, rfl, hnot, ih⟩

/-- Nothing else is. -/
theorem Greedy.eq_betweenLines (h : Greedy old new entries) : entries = betweenLines old new := by
  induction entries generalizing old new with
  | nil =>
    obtain ⟨rfl, rfl⟩ := greedy_nil_iff.1 h
    rw [betweenLines]
  | cons e entries ih =>
    obtain ⟨change, line⟩ := e
    cases change with
    | same =>
      obtain ⟨old', new', rfl, rfl, hrest⟩ := greedy_same_iff.1 h
      rw [betweenLines_same, ih hrest]
    | added =>
      obtain ⟨new', rfl, hmem, hrest⟩ := greedy_added_iff.1 h
      rw [betweenLines_added hmem, ih hrest]
    | removed =>
      obtain ⟨old', rfl, hfirst, hrest⟩ := greedy_removed_iff.1 h
      have hlater : ∀ n ∈ new.head?, line ≠ n ∧ n ∈ line :: old' := fun n hn =>
        ⟨(hfirst n hn).1, List.mem_cons_of_mem line (hfirst n hn).2⟩
      rw [betweenLines_removed hlater, ih hrest]

/-! ### First occurrences -/

/-- Each new line is matched with its first occurrence among the old lines that are left. -/
inductive FirstMatches : List Text → List Text → List Entry → Prop where
  /-- There is no new line: the old ones that are left are removed. -/
  | rest (old : List Text) : FirstMatches old [] (old.map (Entry.mk .removed))
  /-- The first new line occurs: what stands before its first occurrence is removed. -/
  | found {before after new : List Text} {n : Text} {entries : List Entry} (hfirst : n ∉ before)
      (h : FirstMatches after new entries) :
      FirstMatches (before ++ n :: after) (n :: new) (before.map (Entry.mk .removed) ++ ⟨.same, n⟩ :: entries)
  /-- It does not occur. -/
  | missing {old new : List Text} {n : Text} {entries : List Entry} (hnone : n ∉ old)
      (h : FirstMatches old new entries) : FirstMatches old (n :: new) (⟨.added, n⟩ :: entries)

theorem betweenLines_nil (old : List Text) : betweenLines old [] = old.map (Entry.mk .removed) := by
  induction old with
  | nil => rw [betweenLines, List.map_nil]
  | cons o old ih => rw [betweenLines, ih, List.map_cons]

theorem betweenLines_found {before : List Text} {n : Text} (hfirst : n ∉ before) (after new : List Text) :
    betweenLines (before ++ n :: after) (n :: new)
      = before.map (Entry.mk .removed) ++ ⟨.same, n⟩ :: betweenLines after new := by
  induction before with
  | nil => rw [List.nil_append, betweenLines_same, List.map_nil, List.nil_append]
  | cons o before ih =>
    rw [List.mem_cons, not_or] at hfirst
    have hlater : ∀ m ∈ (n :: new).head?, o ≠ m ∧ m ∈ o :: (before ++ n :: after) := by
      rintro _ ⟨⟩
      exact ⟨Ne.symm hfirst.1, by simp⟩
    rw [List.cons_append, betweenLines_removed hlater, ih hfirst.2, List.map_cons, List.cons_append]

/-- The matcher matches each new line with its first occurrence. -/
theorem firstMatches_betweenLines (old new : List Text) : FirstMatches old new (betweenLines old new) := by
  induction new generalizing old with
  | nil =>
    rw [betweenLines_nil]
    exact .rest old
  | cons n new ih =>
    by_cases hmem : n ∈ old
    · obtain ⟨before, after, rfl, hfirst⟩ := List.eq_append_cons_of_mem hmem
      rw [betweenLines_found hfirst]
      exact .found hfirst (ih after)
    · rw [betweenLines_added hmem]
      exact .missing hmem (ih old)

theorem FirstMatches.eq_betweenLines (h : FirstMatches old new entries) : entries = betweenLines old new := by
  induction h with
  | rest old => rw [betweenLines_nil]
  | found hfirst h ih => rw [betweenLines_found hfirst, ih]
  | missing hnone h ih => rw [betweenLines_added hnone, ih]

/-! ### The edit script of two texts -/

/-- **A difference is the greedy edit script and nothing else.** Of all lists of entries it is the only one
from which the lines of both texts can be read off, in which no added line occurs in a later entry that keeps
or removes a line, and in which each maximal run of removed lines goes on to the end or to a line that is kept
and is none of them; so no line is added just after one has been removed. It is also the only one in which
each new line, in order, is matched with its first occurrence among the old lines that are left, and is added
exactly if there is none. -/
theorem between_eq_iff_greedy (old new : Text) (entries : List Entry) :
    (entries = between old new ↔ Greedy (lines old) (lines new) entries) ∧
    (entries = between old new ↔ FirstMatches (lines old) (lines new) entries) ∧
    ∀ before removed added after,
      between old new ≠ before ++ ⟨.removed, removed⟩ :: ⟨.added, added⟩ :: after := by
  refine ⟨⟨?_, Greedy.eq_betweenLines⟩, ⟨?_, FirstMatches.eq_betweenLines⟩, ?_⟩
  · rintro rfl
    exact greedy_betweenLines _ _
  · rintro rfl
    exact firstMatches_betweenLines _ _
  · intro before removed added after heq
    have hgreedy : Greedy (lines old) (lines new) (between old new) := greedy_betweenLines _ _
    have hsettled := allSettled_iff.2 hgreedy.removed before [⟨.removed, removed⟩] (⟨.added, added⟩ :: after)
      (by simpa using heq) (List.cons_ne_nil _ _) (by simp) (by simp)
    rcases hsettled with hnil | ⟨kept, rest, hkept, -⟩
    · cases hnil
    · cases hkept

end GuiBuilder.LineDiff
