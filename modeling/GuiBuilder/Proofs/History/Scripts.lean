import GuiBuilder.Proofs.History.Versions
import GuiBuilder.Script.Generate

/-!
# Versions hide no change of the script

A snapshot makes no version of a file when its window is the same as the one kept before. Sameness does not
tell the two zeros apart, but neither does a script: a zero is written without its sign
(`Script.number_unsignedZero`), so a window and its normal form have one script, and so have windows that are
the same (`Window.scriptFrom_eq_of_same`).

Hence the newest version at or before a snapshot has the script that the file has in the snapshot itself.
What lies between the two are occurrences that each are the same as the one before
(`Occurrence.exists_change_le`).
-/

namespace GuiBuilder

/-! ### The script does not tell the two zeros apart -/

theorem Finite64.toInt?_zero (negative : Bool) : Finite64.toInt? ⟨negative, .zero⟩ = some 0 := by
  have hnumerator : Magnitude.zero.numerator = 0 := by
    rw [Magnitude.numerator, Magnitude.zero, Nat.zero_mul]
  unfold toInt? Magnitude.toNat?
  generalize Nat.pow 2 1074 = unit
  rw [hnumerator, Nat.zero_mod, if_pos rfl, Nat.zero_div]
  cases negative <;> rfl

/-- A zero is written without its sign. -/
theorem Script.number_unsignedZero (x : Finite64) : number x.unsignedZero = number x := by
  obtain ⟨negative, m⟩ := x
  by_cases hm : m = .zero
  · rw [Finite64.unsignedZero, if_pos hm, hm, Finite64.zero, number, number, Finite64.toInt?_zero,
      Finite64.toInt?_zero]
  · rw [Finite64.unsignedZero, if_neg hm]

open Script

theorem Control.settings_normal (c : Control) : c.normal.settings = c.settings := by
  cases c with
  | slider flag range => simp only [normal, settings, number_unsignedZero]
  | _ => rfl

theorem Control.kind_normal (c : Control) : c.normal.kind = c.kind := by
  cases c <;> rfl

theorem Element.scriptLines_normal (owner : Text) (e : Element) :
    e.normal.scriptLines owner = e.scriptLines owner := by
  have hkind : e.normal.kind = e.kind := Control.kind_normal e.control
  have hplaceholder : e.normal.placeholder = e.placeholder := by
    unfold placeholder
    rw [hkind]
    rfl
  have hblock : e.normal.block owner = e.block owner := by
    funext settings
    unfold block
    rw [hkind, hplaceholder]
    rfl
  have hsettings : e.normal.control.settings = e.control.settings := Control.settings_normal e.control
  rw [scriptLines, scriptLines, hblock, hsettings]

theorem Folder.scriptLines_normal (f : Folder) : f.normal.scriptLines = f.scriptLines := by
  have helements (owner : Text) : f.normal.elements.mapM (Element.scriptLines owner)
      = f.elements.mapM (Element.scriptLines owner) := by
    rw [normal, List.mapM_map]
    exact congrArg (f.elements.mapM ·) (funext (Element.scriptLines_normal owner))
  unfold scriptLines
  rw [helements]
  rfl

namespace Window

variable {v w : Window}

theorem headLines_normal (url : Text) (w : Window) : w.normal.headLines url = w.headLines url := by
  have hfolders : w.normal.folders.length = w.folders.length := List.length_map _
  have helements : w.normal.elements.length = w.elements.length := by
    simp [elements, normal, Folder.normal, List.length_flatMap, Function.comp_def]
  unfold headLines
  rw [hfolders, helements]
  rfl

/-- A window has the script of its normal form. -/
theorem scriptFrom_normal (url : Text) (w : Window) : w.normal.scriptFrom url = w.scriptFrom url := by
  have hblocks : w.normal.folders.mapM Folder.scriptLines = w.folders.mapM Folder.scriptLines := by
    rw [normal, List.mapM_map]
    exact congrArg (w.folders.mapM ·) (funext Folder.scriptLines_normal)
  rw [scriptFrom, scriptFrom, scriptLines, scriptLines, headLines_normal, hblocks]

/-- **Windows that are the same have one script.** -/
theorem scriptFrom_eq_of_same (h : v.Same w) (url : Text) : v.scriptFrom url = w.scriptFrom url := by
  calc v.scriptFrom url
    _ = v.normal.scriptFrom url := (scriptFrom_normal url v).symm
    _ = w.normal.scriptFrom url := congrArg (scriptFrom url) h
    _ = w.scriptFrom url := scriptFrom_normal url w

end Window

/-! ### The newest change at or before an occurrence -/

namespace Occurrence

/-- The occurrences that differ from the one just before them, if anything is before the first one. -/
def changesAfter (previous : Option Occurrence) (os : List Occurrence) : List Occurrence :=
  ((withPrevious previous os).filter fun (o, previous) => decide (o.Changed previous)).map Prod.fst

variable {previous : Option Occurrence} {o p : Occurrence} {os : List Occurrence}

theorem changesAfter_none (os : List Occurrence) : changesAfter none os = changes os := rfl

theorem changesAfter_of_changed (h : o.Changed previous) :
    changesAfter previous (o :: os) = o :: changesAfter (some o) os := by
  rw [changesAfter, withPrevious_cons, List.filter_cons_of_pos (by simpa using h)]
  rfl

theorem changesAfter_of_unchanged (h : ¬ o.Changed previous) :
    changesAfter previous (o :: os) = changesAfter (some o) os := by
  rw [changesAfter, withPrevious_cons, List.filter_cons_of_neg (by simpa using h)]
  rfl

theorem changesAfter_subset (previous : Option Occurrence) (os : List Occurrence) :
    changesAfter previous os ⊆ os := by
  intro o ho
  obtain ⟨⟨o', previous'⟩, hmem, rfl⟩ := List.mem_map.1 ho
  have hos : o' ∈ (withPrevious previous os).map Prod.fst :=
    List.mem_map_of_mem (List.mem_of_mem_filter hmem)
  rwa [map_fst_withPrevious] at hos

/-- An occurrence is the same as the newest change at or before it, or as what was before all of them when
there is no such change. -/
theorem exists_change_le_or (hos : os.Pairwise fun o p => o.ordinal < p.ordinal)
    (hwindows : ∀ o ∈ os, ∃ w, o.file.content = .window w)
    (hprevious : ∀ p ∈ previous, ∃ w, p.file.content = .window w) (ho : o ∈ os) :
    (∃ c ∈ changesAfter previous os, c.ordinal ≤ o.ordinal ∧
      (∀ d ∈ changesAfter previous os, d.ordinal ≤ o.ordinal → d.ordinal ≤ c.ordinal) ∧
      o.file.content.Same c.file.content) ∨
    ((∀ d ∈ changesAfter previous os, o.ordinal < d.ordinal) ∧
      ∃ p ∈ previous, o.file.content.Same p.file.content) := by
  induction os generalizing previous with
  | nil => cases ho
  | cons first os ih =>
    rw [List.pairwise_cons] at hos
    rw [List.forall_mem_cons] at hwindows
    obtain ⟨hlt, hos⟩ := hos
    obtain ⟨⟨w, hw⟩, hwindows⟩ := hwindows
    have hfirst : ∀ p ∈ some first, ∃ w, p.file.content = .window w := by
      rintro _ ⟨⟩
      exact ⟨w, hw⟩
    have hafter : ∀ d ∈ changesAfter (some first) os, first.ordinal < d.ordinal :=
      fun d hd => hlt d (changesAfter_subset _ _ hd)
    by_cases hchanged : first.Changed previous
    · rw [changesAfter_of_changed hchanged]
      refine .inl ?_
      rcases List.mem_cons.1 ho with rfl | ho
      · refine ⟨o, List.mem_cons_self, Nat.le_refl _, fun d _ hd => hd, ?_⟩
        rw [hw]
        exact Window.Same.refl w
      · rcases ih hos hwindows hfirst ho with ⟨c, hc, hle, hmax, hsame⟩ | ⟨hnone, p, hp, hsame⟩
        · refine ⟨c, List.mem_cons_of_mem _ hc, hle, ?_, hsame⟩
          rw [List.forall_mem_cons]
          exact ⟨fun _ => Nat.le_of_lt (hafter c hc), hmax⟩
        · cases hp
          refine ⟨first, List.mem_cons_self, Nat.le_of_lt (hlt o ho), ?_, hsame⟩
          rw [List.forall_mem_cons]
          exact ⟨fun _ => Nat.le_refl _, fun d hd hle => absurd (hnone d hd) (Nat.not_lt.2 hle)⟩
    · rw [changesAfter_of_unchanged hchanged]
      obtain ⟨p, hp, hfirstSame⟩ : ∃ p ∈ previous, first.file.content.Same p.file.content := by
        simpa [Changed] using hchanged
      rcases List.mem_cons.1 ho with rfl | ho
      · exact .inr ⟨hafter, p, hp, hfirstSame⟩
      · rcases ih hos hwindows hfirst ho with hfound | ⟨hnone, q, hq, hsame⟩
        · exact .inl hfound
        · cases hq
          refine .inr ⟨hnone, p, hp, ?_⟩
          exact (Content.same_congr_right (hwindows o ho) ⟨w, hw⟩ (hprevious p hp) hfirstSame).1 hsame

/-- **An occurrence is the same as the newest change at or before it.** -/
theorem exists_change_le (hos : os.Pairwise fun o p => o.ordinal < p.ordinal)
    (hwindows : ∀ o ∈ os, ∃ w, o.file.content = .window w) (ho : o ∈ os) :
    ∃ c ∈ changes os, c.ordinal ≤ o.ordinal ∧
      (∀ d ∈ changes os, d.ordinal ≤ o.ordinal → d.ordinal ≤ c.ordinal) ∧
      o.file.content.Same c.file.content := by
  have hprevious : ∀ p ∈ (none : Option Occurrence), ∃ w, p.file.content = .window w := nofun
  have h := exists_change_le_or hos hwindows hprevious ho
  rw [changesAfter_none] at h
  rcases h with hfound | ⟨-, p, hp, -⟩
  · exact hfound
  · cases hp

end Occurrence

namespace History

/-- **Versions hide no change of the script.** Take any run from some tabs, at any capacity, in which all files
hold windows, and any id. Where a snapshot holds the file, the newest version at or before it has the script
that the window of the snapshot has, wherever the library is loaded from, and has none if that window has none.
For windows that are the same have one script, and a number that is an integer is written as that integer is,
whichever zero or notation it came from. -/
theorem versions_hide_no_script (capacity : Capacity) (initial : Tabs) (moves : List (Move Tabs)) (id : Text)
    (hwindows : ∀ tabs ∈ initial :: moves.filterMap Move.pushed?, ∀ file ∈ tabs,
      ∃ w, file.content = .window w) :
    let h := (start capacity initial).run moves
    (∀ (i : ℕ) (m : Moment Tabs) (file : File), h.moments[i]? = some m →
      Tabs.file? m.snapshot id = some file →
      ∃ v ∈ h.versions id, v.ordinal ≤ i ∧
        (∀ v' ∈ h.versions id, v'.ordinal ≤ i → v'.ordinal ≤ v.ordinal) ∧
        ∃ w w', file.content = .window w ∧ v.file.content = .window w' ∧
          ∀ url, w'.scriptFrom url = w.scriptFrom url) ∧
    (∀ v w : Window, v.Same w → ∀ url, v.scriptFrom url = w.scriptFrom url) ∧
    ∀ (x : Finite64) (i : ℤ), x.toInt? = some i → Script.number x = Text.ofInt i := by
  intro h
  have hticked : Ticked ([initial] ++ moves.filterMap Move.pushed?) h := (Ticked.start _ _).run moves
  have hmoments : ∀ m ∈ h.moments, ∀ file ∈ m.snapshot, ∃ w, file.content = .window w := by
    intro m hm
    exact hwindows m.snapshot (List.mem_of_getElem? (hticked.paired m hm))
  have hchanges : (h.versions id).map Version.occurrence = (Occurrence.changes (h.occurrences id)).reverse :=
    map_occurrence_versions hmoments
  have hoccurrences : ∀ o ∈ h.occurrences id, ∃ w, o.file.content = .window w := by
    intro o ho
    obtain ⟨m, hm, -, hfile⟩ := mem_occurrences.1 ho
    exact hmoments m (List.mem_of_getElem? hm) o.file (List.mem_of_find?_eq_some hfile)
  refine ⟨fun i m file hm hfile => ?_, fun v w hsame url => Window.scriptFrom_eq_of_same hsame url,
    fun x i hx => ?_⟩
  · have ho : (⟨i, m.tick, file⟩ : Occurrence) ∈ h.occurrences id :=
      mem_occurrences.2 ⟨m, hm, rfl, hfile⟩
    obtain ⟨c, hc, hle, hmax, hsame⟩ :=
      Occurrence.exists_change_le (pairwise_occurrences h id) hoccurrences ho
    have hversion : c ∈ (h.versions id).map Version.occurrence := by
      rw [hchanges]
      exact List.mem_reverse.2 hc
    obtain ⟨v, hv, rfl⟩ := List.mem_map.1 hversion
    refine ⟨v, hv, hle, fun v' hv' hle' => ?_, ?_⟩
    · have hv'' : v'.occurrence ∈ Occurrence.changes (h.occurrences id) := by
        rw [← List.mem_reverse, ← hchanges]
        exact List.mem_map_of_mem hv'
      exact hmax v'.occurrence hv'' hle'
    · obtain ⟨w, hw⟩ := hoccurrences _ ho
      obtain ⟨w', hw'⟩ := hoccurrences _ ((Occurrence.changes_sublist _).subset hc)
      refine ⟨w, w', hw, hw', fun url => ?_⟩
      rw [hw, hw', Content.same_window] at hsame
      exact (Window.scriptFrom_eq_of_same hsame url).symm
  · rw [Script.number, hx]

/-- Of the moves that close a file and open it again with the other zero, the second snapshot that holds it
has the script of the version at the start. -/
theorem versions_hide_no_script_reopening :
    (∀ tabs ∈ [zeroFile "A" false] :: reopeningMoves.filterMap Move.pushed?, ∀ file ∈ tabs,
      ∃ w, file.content = .window w) ∧
    ∃ v ∈ ((start (.count 4 (by decide)) [zeroFile "A" false]).run reopeningMoves).versions "f",
      v.ordinal ≤ 2 ∧
      ∃ w w', (zeroFile "A" true).content = .window w ∧ v.file.content = .window w' ∧
        ∀ url, w'.scriptFrom url = w.scriptFrom url := by
  have hwindows : ∀ tabs ∈ [zeroFile "A" false] :: reopeningMoves.filterMap Move.pushed?, ∀ file ∈ tabs,
      ∃ w, file.content = .window w := by
    simp [reopeningMoves, Move.pushed?, zeroFile]
  have hmoment : ((start (.count 4 (by decide)) [zeroFile "A" false]).run reopeningMoves).moments[2]?
      = some ⟨[zeroFile "A" true], 2⟩ := rfl
  have hfile : Tabs.file? [zeroFile "A" true] "f" = some (zeroFile "A" true) := rfl
  obtain ⟨v, hv, hle, -, hscripts⟩ :=
    (versions_hide_no_script (.count 4 (by decide)) [zeroFile "A" false] reopeningMoves "f" hwindows).1
      2 ⟨[zeroFile "A" true], 2⟩ (zeroFile "A" true) hmoment hfile
  exact ⟨hwindows, v, hv, hle, hscripts⟩

end History

end GuiBuilder
