import GuiBuilder.Proofs.LineDiff.Counts
import GuiBuilder.Proofs.Script.Complete
import GuiBuilder.Proofs.Session.Contents
import GuiBuilder.Proofs.Session.OneStep

/-!
# Comparing versions

A version of a file is compared with the next older one, and the oldest one with itself. What is compared are
the scripts of their windows, so the comparisons of a file are a chain: from one version to the next newer one,
each goes on from the script that the one before it ends with, and the oldest version starts it without a
change (`Session.versionDiffs_chain`). Nothing is compared where one of the two has no script.
-/

namespace GuiBuilder

namespace Version

variable {versions : List Version} {i : ℕ} {v : Version}

theorem atIndex?_natCast {α : Type} (items : List α) (i : ℕ) : atIndex? items i = items[i]? := by
  rw [atIndex?, if_pos (Int.natCast_nonneg i), Int.toNat_natCast]

/-- A version is compared with the next older one, or with itself if there is none. -/
theorem pair?_natCast (hv : versions[i]? = some v) :
    pair? versions i = some (v, (versions[i + 1]?).getD v) := by
  have hnext : atIndex? versions ((i : ℤ) + 1) = versions[i + 1]? := atIndex?_natCast versions (i + 1)
  rw [pair?, atIndex?_natCast, hv]
  dsimp only
  rw [hnext]
  split
  · next hlt =>
    have hlt' : i + 1 < versions.length := by omega
    rw [List.getElem?_eq_getElem hlt', Option.map_some, Option.getD_some]
  · next hge =>
    have hge' : versions.length ≤ i + 1 := by omega
    rw [List.getElem?_eq_none hge', Option.getD_none]

end Version

open LineDiff

/-- The edit script that a comparison of the version at an index with the next older one gives. -/
structure Compared (versions : List Version) (i : ℕ) (entries : List Entry) : Prop where
  /-- Its new side is the script of the version, line by line. -/
  new_eq : ∃ v script, versions[i]? = some v ∧ v.script = .ok script ∧ newSide entries = lines script
  /-- Its old side is the script of the next older one. -/
  old_eq : ∀ v ∈ versions[i + 1]?, ∃ script, v.script = .ok script ∧ oldSide entries = lines script
  /-- The oldest version is compared with itself. -/
  all_same : versions.length = i + 1 → ∀ e ∈ entries, e.change = .same

namespace Session

variable {s : Session} {id : Text} {i : ℕ}

/-- The windows of two versions, of which the second is the one that the first is compared with. -/
structure ComparesWith (versions : List Version) (i : ℕ) (v previous : Version) (w u : Window) : Prop where
  selected : versions[i]? = some v
  previous_eq : previous = (versions[i + 1]?).getD v
  window : v.file.content = .window w
  previousWindow : previous.file.content = .window u

/-- What is compared are the scripts of the two windows. -/
theorem versionDiff_eq {v previous : Version} {w u : Window}
    (h : ComparesWith (s.versions (.text id)) i v previous w u) :
    s.versionDiff (.text id) (.int i) = match previous.script with
      | .error f => s.fault f
      | .ok old =>
        match v.script with
        | .error f => s.fault f
        | .ok new => s.answer (between old new) := by
  obtain ⟨hv, rfl, -, -⟩ := h
  have hlt : i < (s.versions (.text id)).length := (List.getElem?_eq_some_iff.1 hv).1
  have hindex : indexIn (s.versions (.text id)).length (.int i) = .ok (some i) := by
    simp [indexIn, hlt]
  have hpair := Version.pair?_natCast hv
  cases hold : ((s.versions (.text id))[i + 1]?.getD v).script with
  | error f => simp only [versionDiff, hindex, hpair, hold]
  | ok old => cases hnew : v.script <;> simp only [versionDiff, hindex, hpair, hold, hnew]

theorem versionDiff_of_not_mem {index : ℤ} (h : ¬ (0 ≤ index ∧ index < (s.versions (.text id)).length)) :
    s.versionDiff (.text id) (.int index) = (s.log .error "Version not found.").answer [] := by
  simp only [versionDiff, indexIn, if_neg h]

theorem selection_versionDiff (s : Session) (id index : Value) :
    (s.versionDiff id index).session.selection = s.selection := by
  unfold versionDiff
  dsimp only
  split
  · rfl
  · rfl
  · split
    · rfl
    · split
      · rfl
      · split <;> rfl

/-- Where nothing but windows occur, there are windows to compare at every index. -/
theorem exists_comparesWith (hall : s.AllContents fun content => ∃ w, content = .window w)
    (hi : i < (s.versions (.text id)).length) :
    ∃ v previous w u, ComparesWith (s.versions (.text id)) i v previous w u := by
  have hwindow : ∀ v ∈ s.versions (.text id), ∃ w, v.file.content = .window w := by
    intro v hv
    obtain ⟨m, hm, hmem⟩ := exists_moment_of_mem_versions hv
    exact hall m hm v.file hmem
  obtain ⟨v, hv⟩ : ∃ v, (s.versions (.text id))[i]? = some v := ⟨_, List.getElem?_eq_getElem hi⟩
  obtain ⟨w, hw⟩ := hwindow v (List.mem_of_getElem? hv)
  cases holder : (s.versions (.text id))[i + 1]? with
  | none => exact ⟨v, v, w, w, hv, by rw [holder, Option.getD_none], hw, hw⟩
  | some older =>
    obtain ⟨u, hu⟩ := hwindow older (List.mem_of_getElem? holder)
    exact ⟨v, older, w, u, hv, by rw [holder, Option.getD_some], hw, hu⟩

theorem compared_between {versions : List Version} {v previous : Version} {w u : Window} {old new : Text}
    (h : ComparesWith versions i v previous w u) (hold : previous.script = .ok old) (hnew : v.script = .ok new) :
    Compared versions i (between old new) where
  new_eq := ⟨v, new, h.selected, hnew, newSide_between _ _⟩
  old_eq older holder := by
    have hprevious : previous = older := by
      rw [h.previous_eq, Option.mem_def.1 holder, Option.getD_some]
    exact ⟨old, hprevious ▸ hold, oldSide_between _ _⟩
  all_same hlast := by
    have hself : previous = v := by
      rw [h.previous_eq, List.getElem?_eq_none (by omega), Option.getD_none]
    obtain rfl : old = new := by
      rw [hself, hnew] at hold
      exact (Except.ok.inj hold).symm
    exact all_same_betweenLines_iff.2 rfl

/-- A comparison answers an edit script if both scripts are there, and fails otherwise. -/
theorem versionDiff_cases {v previous : Version} {w u : Window}
    (h : ComparesWith (s.versions (.text id)) i v previous w u) :
    (∃ old new, previous.script = .ok old ∧ v.script = .ok new ∧
      s.versionDiff (.text id) (.int i) = s.answer (between old new)) ∨
    ((¬ u.Writable ∨ ¬ w.Writable) ∧ s.versionDiff (.text id) (.int i) = s.fault .unwritableInteger) := by
  have hscripts : previous.script = u.script ∧ v.script = w.script := by
    simp only [Version.script, File.window?, h.window, h.previousWindow, Content.window?, and_self]
  rw [versionDiff_eq h, hscripts.1, hscripts.2]
  cases hold : u.script with
  | error f =>
    obtain ⟨hlong, rfl⟩ := Window.scriptFrom_eq_error.1 hold
    exact .inr ⟨.inl hlong, rfl⟩
  | ok old =>
    cases hnew : w.script with
    | error f =>
      obtain ⟨hlong, rfl⟩ := Window.scriptFrom_eq_error.1 hnew
      exact .inr ⟨.inr hlong, rfl⟩
    | ok new => exact .inl ⟨old, new, rfl, rfl, rfl⟩

/-- At the index of a version, comparing answers an edit script, or fails for the decimals of one of the windows. -/
theorem versionDiff_inside (hall : s.AllContents fun content => ∃ w, content = .window w)
    (hi : i < (s.versions (.text id)).length) :
    (∃ entries, s.versionDiff (.text id) (.int i) = s.answer entries ∧ Compared (s.versions (.text id)) i entries) ∨
    (s.versionDiff (.text id) (.int i) = s.fault .unwritableInteger ∧
      ∃ v w, (v ∈ (s.versions (.text id))[i]? ∨ v ∈ (s.versions (.text id))[i + 1]?) ∧
        v.file.content = .window w ∧ ¬ w.Writable) := by
  obtain ⟨v, previous, w, u, h⟩ := exists_comparesWith hall hi
  rcases versionDiff_cases h with ⟨old, new, hold, hnew, hdiff⟩ | ⟨hlong | hlong, hdiff⟩
  · exact .inl ⟨_, hdiff, compared_between h hold hnew⟩
  · refine .inr ⟨hdiff, previous, u, ?_, h.previousWindow, hlong⟩
    have hprevious := h.previous_eq
    cases holder : (s.versions (.text id))[i + 1]? with
    | none =>
      rw [holder, Option.getD_none] at hprevious
      exact .inl (hprevious ▸ h.selected)
    | some older =>
      rw [holder, Option.getD_some] at hprevious
      exact .inr (hprevious ▸ rfl)
  · exact .inr ⟨hdiff, v, w, .inl h.selected, h.window, hlong⟩

theorem compared_of_result (hall : s.AllContents fun content => ∃ w, content = .window w)
    (hi : i < (s.versions (.text id)).length) {entries : List Entry}
    (h : (s.versionDiff (.text id) (.int i)).result = .ok entries) :
    Compared (s.versions (.text id)) i entries := by
  rcases versionDiff_inside hall hi with ⟨entries', hanswer, hcompared⟩ | ⟨hfault, -⟩
  · rw [hanswer] at h
    exact Except.ok.inj h ▸ hcompared
  · rw [hfault] at h
    cases h

/-- **Comparisons of versions are a chain.** Begin a session on any file, at any capacity, and carry out any
commands. At the index of a version of any file, comparing answers an edit script: its new side is the lines of
that version's script and its old side those of the next older one, and for the oldest version nothing is added
or removed. It fails only if the decimals of one of the two windows cannot be written, and changes nothing then. So
the comparison at an index ends where the one at the index before it starts. At every other index, also a negative
one, the answer is empty and one error is logged. Comparing changes neither the history nor the selection. -/
theorem versionDiffs_chain {given : Option File} {capacity : Value} {ids : IdSupply}
    {preferences : Preferences} {first : Session} (hbegin : begin given capacity ids preferences = .ok first)
    (commands : List Command) (id : Text) :
    let s := first.after commands
    let versions := s.versions (.text id)
    let diff := fun index : ℤ => s.versionDiff (.text id) (.int index)
    (∀ i : ℕ, i < versions.length →
      (∃ entries, diff i = s.answer entries ∧ Compared versions i entries) ∨
      (diff i = s.fault .unwritableInteger ∧ ∃ v w, (v ∈ versions[i]? ∨ v ∈ versions[i + 1]?) ∧
        v.file.content = .window w ∧ ¬ w.Writable)) ∧
    (∀ (i : ℕ) (older newer : List Entry), i + 1 < versions.length → (diff (i + 1)).result = .ok older →
      (diff i).result = .ok newer → newSide older = oldSide newer) ∧
    (∀ index : ℤ, ¬ (0 ≤ index ∧ index < versions.length) → (diff index).result = .ok [] ∧
      (diff index).session.console.entries = s.console.entries ++ [⟨.error, "Version not found."⟩]) ∧
    ∀ index : ℤ, (diff index).session.history = s.history ∧ (diff index).session.selection = s.selection := by
  intro s versions diff
  have hall : s.AllContents fun content => ∃ w, content = .window w := window_after hbegin commands
  refine ⟨fun i hi => versionDiff_inside hall hi, fun i older newer hi holder hnewer => ?_, fun index hindex => ?_,
    fun index => ?_⟩
  · -- the version that the newer one is compared with is the one that the older comparison is about
    obtain ⟨v, script, hv, hscript, hnew⟩ := (compared_of_result hall hi holder).new_eq
    obtain ⟨script', hscript', hold⟩ := (compared_of_result hall (Nat.lt_of_succ_lt hi) hnewer).old_eq v hv
    obtain rfl : script = script' := Except.ok.inj (hscript.symm.trans hscript')
    rw [hnew, hold]
  · have hnone : diff index = (s.log .error "Version not found.").answer [] := versionDiff_of_not_mem hindex
    rw [hnone]
    exact ⟨rfl, rfl⟩
  · exact ⟨(kept_versionDiff s (.text id) (.int index)).history, selection_versionDiff s (.text id) (.int index)⟩

/-- A folder is added and a button put into it, at capacity two, so that the oldest snapshot goes. There are two
versions then. -/
theorem versionDiffs_chain_two :
    ∃ first, begin (some exampleFile) (.int (2 : ℕ)) .initial .defaults = .ok first ∧
      let s := first.after [.addFolder, .addElement (.text "Button")]
      (s.versions (.text "f")).map Version.ordinal = [1, 0] ∧
      (∃ older newer, (s.versionDiff (.text "f") (.int 1)).result = .ok older ∧
        (s.versionDiff (.text "f") (.int 0)).result = .ok newer ∧ newSide older = oldSide newer ∧
        Compared (s.versions (.text "f")) 1 older) ∧
      (s.versionDiff (.text "f") (.int (-1))).result = .ok [] := by
  refine ⟨_, rfl, by decide, ?_, ?_⟩
  · obtain ⟨hcompared, hchain, -⟩ := @versionDiffs_chain (some exampleFile) (.int (2 : ℕ)) .initial .defaults _ rfl
      [.addFolder, .addElement (.text "Button")] "f"
    have hnewer := hcompared 0 (by decide)
    have holder := hcompared 1 (by decide)
    -- no version has a slider
    rcases hnewer with ⟨newer, hnewer, -⟩ | ⟨hfault, -⟩
    · rcases holder with ⟨older, holder, hcomparison⟩ | ⟨hfault, -⟩
      · have hsides := hchain 0 older newer (by decide) (congrArg Outcome.result holder)
          (congrArg Outcome.result hnewer)
        exact ⟨older, newer, congrArg Outcome.result holder, congrArg Outcome.result hnewer, hsides, hcomparison⟩
      · exact absurd (congrArg (fun o => o.result.toBool) hfault) (by decide +kernel)
    · exact absurd (congrArg (fun o => o.result.toBool) hfault) (by decide +kernel)
  · obtain ⟨-, -, hnone, -⟩ := @versionDiffs_chain (some exampleFile) (.int (2 : ℕ)) .initial .defaults _ rfl
      [.addFolder, .addElement (.text "Button")] "f"
    exact (hnone (-1) (by decide)).1

end Session

end GuiBuilder
