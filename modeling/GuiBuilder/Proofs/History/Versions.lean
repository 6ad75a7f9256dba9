import GuiBuilder.Lineage
import GuiBuilder.Proofs.History.Refinement
import Mathlib.Data.List.Enum

/-!
# The versions of a file are its changes

A file occurs in every snapshot that holds it (`History.occurrences`), and it changes where its content
differs from that of the occurrence just before, if there is one (`Occurrence.changes`). The versions
of a file are its changes, newest first.

A version is made by comparing with the one that was kept last, which may lie several occurrences back. That
comes to the same because sameness of windows is an equivalence, also where the two zeros count as one: what
was passed over since is the same as what was kept (`Version.map_occurrence_distinctAfter`).

The runs are those at any capacity, also one at which a push stalls (`History.run`).
-/

namespace GuiBuilder

/-! ### Runs at any capacity -/

namespace History

variable {α : Type}

/-- The history after a snapshot has come in, by a push or by what a push that stalls leaves behind. -/
def accept (h : History α) (x : α) : History α := if h.stalls then h.stalled x else h.push x

/-- The history after a move. -/
def move (h : History α) : Move α → History α
  | .push x => h.accept x
  | .undo => h.undo?.getD h
  | .redo => h.redo?.getD h

/-- The history after some moves, at any capacity. -/
def run (h : History α) (moves : List (Move α)) : History α := moves.foldl move h

theorem Ticked.accept {arrivals : List α} {h : History α} (ht : Ticked arrivals h) (x : α) :
    Ticked (arrivals ++ [x]) (h.accept x) := by
  unfold History.accept
  split
  · exact ht.stalled x
  · exact ht.push x

theorem Ticked.move {arrivals : List α} {h : History α} (ht : Ticked arrivals h) (m : Move α) :
    Ticked (arrivals ++ m.pushed?.toList) (h.move m) := by
  cases m with
  | push x => exact ht.accept x
  | undo => exact ht.step .undo
  | redo => exact ht.step .redo

/-- Every snapshot carries the tick of its own push, whatever the capacity. -/
theorem Ticked.run {arrivals : List α} {h : History α} (ht : Ticked arrivals h) (moves : List (Move α)) :
    Ticked (arrivals ++ moves.filterMap Move.pushed?) (h.run moves) := by
  induction moves generalizing arrivals h with
  | nil => simpa [History.run] using ht
  | cons m moves ih =>
    have hcons : (m :: moves).filterMap Move.pushed?
        = m.pushed?.toList ++ moves.filterMap Move.pushed? := by
      cases m <;> rfl
    rw [hcons, ← List.append_assoc]
    exact ih (ht.move m)

end History

/-! ### Occurrences and changes -/

/-- A file as it is in a snapshot. -/
structure Occurrence where
  /-- The index of the snapshot in the history. -/
  ordinal : ℕ
  /-- The tick of the snapshot. -/
  tick : ℕ
  file : File
deriving DecidableEq

/-- The first file of an id in a snapshot, if there is one. -/
def Moment.occurrence? (id : Text) (m : Moment Tabs) (ordinal : ℕ) : Option Occurrence :=
  (Tabs.file? m.snapshot id).map fun file => ⟨ordinal, m.tick, file⟩

theorem Moment.occurrence?_eq_none_iff {id : Text} {m : Moment Tabs} {ordinal : ℕ} :
    m.occurrence? id ordinal = none ↔ ∀ file ∈ m.snapshot, file.id ≠ id := by
  simp [occurrence?, Tabs.file?]

/-- The occurrences of the file with an id, oldest first. -/
def History.occurrences (h : History Tabs) (id : Text) : List Occurrence :=
  h.moments.zipIdx.filterMap fun (m, ordinal) => m.occurrence? id ordinal

namespace Occurrence

/-- The content differs from that of the occurrence before, if there is one. -/
def Changed (o : Occurrence) (previous : Option Occurrence) : Prop :=
  ∀ p ∈ previous, ¬ o.file.content.Same p.file.content

instance (o : Occurrence) (previous : Option Occurrence) : Decidable (o.Changed previous) :=
  inferInstanceAs (Decidable (∀ p ∈ previous, ¬ o.file.content.Same p.file.content))

/-- Each occurrence with the one just before it. -/
def withPrevious (previous : Option Occurrence) (os : List Occurrence) :
    List (Occurrence × Option Occurrence) := os.zip (previous :: os.map some)

/-- The occurrences that differ from the one just before them, and the first one. -/
def changes (os : List Occurrence) : List Occurrence :=
  ((withPrevious none os).filter fun (o, previous) => decide (o.Changed previous)).map Prod.fst

theorem withPrevious_cons (previous : Option Occurrence) (o : Occurrence) (os : List Occurrence) :
    withPrevious previous (o :: os) = (o, previous) :: withPrevious (some o) os := rfl

end Occurrence

namespace Content

variable {b c d : Content}

/-- Sameness of windows is an equivalence: what is the same as one of two windows that are the same is the
same as the other. -/
theorem same_congr_right (hb : ∃ w, b = .window w) (hc : ∃ w, c = .window w) (hd : ∃ w, d = .window w)
    (h : c.Same d) : b.Same c ↔ b.Same d := by
  obtain ⟨u, rfl⟩ := hb
  obtain ⟨v, rfl⟩ := hc
  obtain ⟨w, rfl⟩ := hd
  rw [same_window] at h
  rw [same_window, same_window]
  constructor
  · intro huv
    exact huv.trans h
  · intro huw
    exact huw.trans h.symm

end Content

namespace Version

variable {id : Text}

/-- A version as an occurrence of its file. -/
def occurrence (v : Version) : Occurrence := ⟨v.ordinal, v.tick, v.file⟩

theorem map_occurrence_sightings (id : Text) (ordinal : ℕ) (moments : List (Moment Tabs)) :
    (sightings id ordinal moments).map occurrence
      = (moments.zipIdx ordinal).filterMap fun (m, ordinal) => m.occurrence? id ordinal := by
  induction moments generalizing ordinal with
  | nil => rfl
  | cons m moments ih =>
    rw [List.zipIdx_cons, List.filterMap_cons]
    cases hfile : Tabs.file? m.snapshot id with
    | none => simp [sightings, Moment.occurrence?, hfile, ih]
    | some file => simp [sightings, Moment.occurrence?, hfile, ih, occurrence]

/-- What differs from the version that was kept last differs from the occurrence just before, and the other
way around, as long as nothing but windows occur: those that have been passed over since are the same as
what was kept. -/
theorem map_occurrence_distinctAfter {vs : List Version} (hvs : ∀ v ∈ vs, ∃ w, v.file.content = .window w)
    {last : Content} {previous : Occurrence} (hlast : ∃ w, last = .window w)
    (hprevious : ∃ w, previous.file.content = .window w) (hsame : previous.file.content.Same last) :
    (distinctAfter last vs).map occurrence
      = ((Occurrence.withPrevious (some previous) (vs.map occurrence)).filter
          fun (o, previous) => decide (o.Changed previous)).map Prod.fst := by
  induction vs generalizing last previous with
  | nil => rfl
  | cons v vs ih =>
    rw [List.forall_mem_cons] at hvs
    obtain ⟨hv, hvs⟩ := hvs
    have hcongr : v.file.content.Same previous.file.content ↔ v.file.content.Same last :=
      Content.same_congr_right hv hprevious hlast hsame
    have hchanged : v.occurrence.Changed (some previous) ↔ ¬ v.file.content.Same last := by
      rw [← hcongr]
      simp [Occurrence.Changed, occurrence]
    rw [List.map_cons, Occurrence.withPrevious_cons, distinctAfter]
    by_cases h : v.file.content.Same last
    · have hnot : ¬ v.occurrence.Changed (some previous) := fun hc => hchanged.1 hc h
      rw [if_pos h, List.filter_cons_of_neg (by simpa using hnot)]
      exact ih hvs hlast hv h
    · obtain ⟨w, hw⟩ := hv
      have hself : v.file.content.Same v.file.content := by rw [hw]; exact Window.Same.refl w
      rw [if_neg h, List.filter_cons_of_pos (by simpa using hchanged.2 h), List.map_cons, List.map_cons]
      exact congrArg _ (ih hvs ⟨w, hw⟩ ⟨w, hw⟩ hself)

theorem map_occurrence_distinct {vs : List Version} (hvs : ∀ v ∈ vs, ∃ w, v.file.content = .window w) :
    (distinct vs).map occurrence = Occurrence.changes (vs.map occurrence) := by
  cases vs with
  | nil => rfl
  | cons v vs =>
    rw [List.forall_mem_cons] at hvs
    obtain ⟨⟨w, hw⟩, hvs⟩ := hvs
    have hself : v.file.content.Same v.file.content := by rw [hw]; exact Window.Same.refl w
    have hfirst : v.occurrence.Changed none := by simp [Occurrence.Changed]
    rw [distinct, List.map_cons, List.map_cons, Occurrence.changes, Occurrence.withPrevious_cons,
      List.filter_cons_of_pos (by simpa using hfirst), List.map_cons]
    exact congrArg _ (map_occurrence_distinctAfter hvs ⟨w, hw⟩ ⟨w, hw⟩ hself)

theorem distinctAfter_sublist (last : Content) (vs : List Version) : (distinctAfter last vs).Sublist vs := by
  induction vs generalizing last with
  | nil => exact List.Sublist.refl _
  | cons v vs ih =>
    simp only [distinctAfter]
    split
    · exact (ih last).cons v
    · exact (ih v.file.content).cons_cons v

theorem distinct_sublist (vs : List Version) : (distinct vs).Sublist vs := by
  cases vs with
  | nil => exact List.Sublist.refl _
  | cons v vs => exact (distinctAfter_sublist v.file.content vs).cons_cons v

theorem distinct_eq_nil_iff (vs : List Version) : distinct vs = [] ↔ vs = [] := by
  cases vs <;> simp [distinct]

/-- No sighting is marked as the newest version. -/
theorem isLatest_of_mem_sightings {ordinal : ℕ} {moments : List (Moment Tabs)} {v : Version}
    (hv : v ∈ sightings id ordinal moments) : v.isLatest = false := by
  induction moments generalizing ordinal with
  | nil => cases hv
  | cons m moments ih =>
    simp only [sightings] at hv
    split at hv
    · rcases List.mem_cons.1 hv with rfl | hv
      · rfl
      · exact ih hv
    · exact ih hv

@[simp] theorem map_occurrence_markLatest (vs : List Version) :
    (markLatest vs).map occurrence = vs.map occurrence := by
  cases vs <;> rfl

theorem markLatest_eq_nil_iff (vs : List Version) : markLatest vs = [] ↔ vs = [] := by
  cases vs <;> simp [markLatest]

/-- The first version is marked as the newest, and no other. -/
theorem isLatest_markLatest {vs : List Version} (hvs : ∀ v ∈ vs, v.isLatest = false) {i : ℕ} {v : Version}
    (hv : (markLatest vs)[i]? = some v) : v.isLatest = true ↔ i = 0 := by
  cases vs with
  | nil => cases hv
  | cons first vs =>
    cases i with
    | zero =>
      cases hv
      simp
    | succ i =>
      have hmem : v ∈ vs := List.mem_of_getElem? hv
      simp [hvs v (List.mem_cons_of_mem first hmem)]

end Version

/-! ### Where versions come from -/

namespace Occurrence

theorem map_fst_withPrevious (previous : Option Occurrence) (os : List Occurrence) :
    (withPrevious previous os).map Prod.fst = os := by
  rw [withPrevious]
  exact List.map_fst_zip (by simp)

theorem changes_sublist (os : List Occurrence) : (changes os).Sublist os := by
  have h : (changes os).Sublist ((withPrevious none os).map Prod.fst) := List.filter_sublist.map _
  rwa [map_fst_withPrevious] at h

end Occurrence

namespace History

variable {h : History Tabs} {id : Text}

theorem mem_occurrences {o : Occurrence} : o ∈ h.occurrences id ↔
    ∃ m, h.moments[o.ordinal]? = some m ∧ m.tick = o.tick ∧ Tabs.file? m.snapshot id = some o.file := by
  obtain ⟨ordinal, tick, file⟩ := o
  rw [occurrences, List.mem_filterMap]
  constructor
  · rintro ⟨⟨m, i⟩, hm, ho⟩
    obtain ⟨found, hfound, heq⟩ := Option.map_eq_some_iff.1 ho
    cases heq
    exact ⟨m, List.mk_mem_zipIdx_iff_getElem?.1 hm, rfl, hfound⟩
  · rintro ⟨m, hm, rfl, hfound⟩
    refine ⟨(m, ordinal), List.mk_mem_zipIdx_iff_getElem?.2 hm, ?_⟩
    exact Option.map_eq_some_iff.2 ⟨file, hfound, rfl⟩

/-- Occurrences stand in the order of their snapshots. -/
theorem pairwise_occurrences (h : History Tabs) (id : Text) :
    (h.occurrences id).Pairwise fun o p => o.ordinal < p.ordinal := by
  have hindices : h.moments.zipIdx.Pairwise fun p q => p.2 < q.2 := by
    rw [← List.pairwise_map (f := Prod.snd) (R := (· < ·)), List.zipIdx_map_snd]
    exact List.pairwise_lt_range'
  refine hindices.filterMap _ ?_
  rintro ⟨m, i⟩ ⟨n, j⟩ hij o ho p hp
  obtain ⟨file, -, rfl⟩ := Option.map_eq_some_iff.1 ho
  obtain ⟨file', -, rfl⟩ := Option.map_eq_some_iff.1 hp
  exact hij

theorem map_occurrence_sightings_moments (h : History Tabs) (id : Text) :
    (Version.sightings id 0 h.moments).map Version.occurrence = h.occurrences id :=
  Version.map_occurrence_sightings id 0 h.moments

/-- A version is an occurrence of its file. -/
theorem occurrence_mem_of_mem_versions {v : Version} (hv : v ∈ h.versions id) :
    v.occurrence ∈ h.occurrences id := by
  have hmem : v.occurrence ∈ (h.versions id).map Version.occurrence := List.mem_map_of_mem hv
  rw [versions, Version.map_occurrence_markLatest, List.map_reverse, List.mem_reverse] at hmem
  rw [← map_occurrence_sightings_moments]
  exact ((Version.distinct_sublist _).map Version.occurrence).subset hmem

/-- A version is the first file of its id in some snapshot. -/
theorem exists_moment_of_mem_versions {v : Version} (hv : v ∈ h.versions id) :
    ∃ m ∈ h.moments, Tabs.file? m.snapshot id = some v.file := by
  obtain ⟨m, hm, -, hfile⟩ := mem_occurrences.1 (occurrence_mem_of_mem_versions hv)
  exact ⟨m, List.mem_of_getElem? hm, hfile⟩

/-- The newest version, and no other, is marked. -/
theorem isLatest_versions {i : ℕ} {v : Version} (hv : (h.versions id)[i]? = some v) :
    v.isLatest = true ↔ i = 0 := by
  refine Version.isLatest_markLatest (fun v hv => ?_) hv
  have hsighted := (Version.distinct_sublist _).subset (List.mem_reverse.1 hv)
  exact Version.isLatest_of_mem_sightings hsighted

/-- There are no versions where no snapshot holds the file. -/
theorem versions_eq_nil_iff :
    h.versions id = [] ↔ ∀ tabs ∈ h.snapshots, ∀ file ∈ tabs, file.id ≠ id := by
  have hnil : h.versions id = [] ↔ h.occurrences id = [] := by
    rw [versions, Version.markLatest_eq_nil_iff, List.reverse_eq_nil_iff, Version.distinct_eq_nil_iff,
      ← map_occurrence_sightings_moments, List.map_eq_nil_iff]
  rw [hnil, occurrences, List.filterMap_eq_nil_iff]
  constructor
  · intro hnone tabs htabs file hfile
    obtain ⟨m, hm, rfl⟩ := List.mem_map.1 htabs
    obtain ⟨i, hi⟩ := List.getElem?_of_mem hm
    have hunseen : m.occurrence? id i = none := hnone (m, i) (List.mk_mem_zipIdx_iff_getElem?.2 hi)
    exact Moment.occurrence?_eq_none_iff.1 hunseen file hfile
  · rintro hother ⟨m, i⟩ hm
    have hmem : m ∈ h.moments := List.mem_of_getElem? (List.mk_mem_zipIdx_iff_getElem?.1 hm)
    exact Moment.occurrence?_eq_none_iff.2 (hother m.snapshot (List.mem_map_of_mem hmem))

/-- Where nothing but windows occur, the versions are the changes. -/
theorem map_occurrence_versions
    (hwindows : ∀ m ∈ h.moments, ∀ file ∈ m.snapshot, ∃ w, file.content = .window w) :
    (h.versions id).map Version.occurrence = (Occurrence.changes (h.occurrences id)).reverse := by
  have hsighted : ∀ v ∈ Version.sightings id 0 h.moments, ∃ w, v.file.content = .window w := by
    intro v hv
    have hmem : v.occurrence ∈ h.occurrences id := by
      rw [← map_occurrence_sightings_moments]
      exact List.mem_map_of_mem hv
    obtain ⟨m, hm, -, hfile⟩ := mem_occurrences.1 hmem
    exact hwindows m (List.mem_of_getElem? hm) v.file (List.mem_of_find?_eq_some hfile)
  rw [versions, Version.map_occurrence_markLatest, List.map_reverse, Version.map_occurrence_distinct hsighted,
    map_occurrence_sightings_moments]

/-- **The versions of a file are its changes, newest first.** Take any run from some tabs, at any capacity, in
which all files hold windows, and any id. The versions are the first occurrence of the file and those whose
window differs from that of the occurrence just before, in the opposite order. Each version is the file as
it was in the snapshot at its ordinal, and carries the tick of that snapshot, which is that of its own push.
The ordinals decrease, the first version alone is marked as the newest, and there is none exactly when no
snapshot holds the file. -/
theorem versions_are_changes (capacity : Capacity) (initial : Tabs) (moves : List (Move Tabs)) (id : Text)
    (hwindows : ∀ tabs ∈ initial :: moves.filterMap Move.pushed?, ∀ file ∈ tabs,
      ∃ w, file.content = .window w) :
    let h := (start capacity initial).run moves
    (h.versions id).map Version.occurrence = (Occurrence.changes (h.occurrences id)).reverse ∧
    (∀ v ∈ h.versions id, ∃ m, h.moments[v.ordinal]? = some m ∧ m.tick = v.tick ∧
      (initial :: moves.filterMap Move.pushed?)[v.tick]? = some m.snapshot ∧
      Tabs.file? m.snapshot id = some v.file) ∧
    ((h.versions id).map Version.ordinal).Pairwise (· > ·) ∧
    (∀ i v, (h.versions id)[i]? = some v → (v.isLatest = true ↔ i = 0)) ∧
    (h.versions id = [] ↔ ∀ tabs ∈ h.snapshots, ∀ file ∈ tabs, file.id ≠ id) := by
  intro h
  have hticked : Ticked ([initial] ++ moves.filterMap Move.pushed?) h := (Ticked.start _ _).run moves
  have hmoments : ∀ m ∈ h.moments, ∀ file ∈ m.snapshot, ∃ w, file.content = .window w := by
    intro m hm
    exact hwindows m.snapshot (List.mem_of_getElem? (hticked.paired m hm))
  have hchanges : (h.versions id).map Version.occurrence = (Occurrence.changes (h.occurrences id)).reverse :=
    map_occurrence_versions hmoments
  refine ⟨hchanges, fun v hv => ?_, ?_, fun i v => isLatest_versions, versions_eq_nil_iff⟩
  · obtain ⟨m, hm, htick, hfile⟩ := mem_occurrences.1 (occurrence_mem_of_mem_versions hv)
    have hpaired := hticked.paired m (List.mem_of_getElem? hm)
    rw [htick] at hpaired
    exact ⟨m, hm, htick, hpaired, hfile⟩
  · have hordinals : (h.versions id).map Version.ordinal
        = ((Occurrence.changes (h.occurrences id)).reverse).map Occurrence.ordinal := by
      rw [← hchanges, List.map_map]
      rfl
    rw [hordinals, List.map_reverse, List.pairwise_reverse, List.pairwise_map]
    exact (pairwise_occurrences h id).sublist (Occurrence.changes_sublist _)

/-- A file of some title, with a slider whose lower end is one of the two zeros. -/
def zeroFile (title : Text) (negative : Bool) : File :=
  ⟨"f", "zero.lua", .window ⟨title, [⟨"a", "Main",
    [⟨"e", "Level", none, .slider "level" ⟨⟨negative, .zero⟩, .zero, .zero, 0⟩⟩]⟩]⟩⟩

/-- The file is closed, opened again with the other zero, given a title, and that is undone. -/
def reopeningMoves : List (Move Tabs) :=
  [.push [], .push [zeroFile "A" true], .push [zeroFile "B" true], .undo]

/-- The other zero makes no version, though the file was closed in between; what was undone is one. -/
theorem versions_are_changes_reopening :
    (∀ tabs ∈ [zeroFile "A" false] :: reopeningMoves.filterMap Move.pushed?, ∀ file ∈ tabs,
      ∃ w, file.content = .window w) ∧
    (((start (.count 4 (by decide)) [zeroFile "A" false]).run reopeningMoves).versions "f").map
      Version.occurrence = [⟨3, 3, zeroFile "B" true⟩, ⟨0, 0, zeroFile "A" false⟩] := by
  have hwindows : ∀ tabs ∈ [zeroFile "A" false] :: reopeningMoves.filterMap Move.pushed?, ∀ file ∈ tabs,
      ∃ w, file.content = .window w := by
    simp [reopeningMoves, Move.pushed?, zeroFile]
  have h := versions_are_changes (.count 4 (by decide)) [zeroFile "A" false] reopeningMoves "f" hwindows
  exact ⟨hwindows, h.1.trans (by decide)⟩

end History

end GuiBuilder
