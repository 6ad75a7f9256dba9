import GuiBuilder.Proofs.Script.Blocks

/-!
# Scripts can be read back

The script of a window, read line by line, is the outline of the window (`scripts_read_back`). The
reader takes the folders one by one: a folder is opened under its variable, and the blocks behind it
go into the folder that was opened last, so that folders may share a variable. No line of a script
holds a line feed, whatever the texts of the window are, and so the lines of the script are the ones
that it was put together from.
-/

namespace GuiBuilder

namespace Script

variable {p : Progress}

/-! ### Folders -/

theorem attach_cons (owner : Text) (element : ElementOutline) (f : FolderOutline)
    (folders : List (Text × FolderOutline)) :
    attach owner element ((owner, f) :: folders)
      = some ((owner, { f with elements := f.elements ++ [element] }) :: folders) := by
  rw [attach, if_pos rfl]

/-- The blocks of a folder go into the folder that was opened last, even where an earlier one had
the same variable. -/
theorem foldlM_blocks {es : List Element} (h : ∀ e ∈ es, e.Unbracketed) (id text : Text)
    (read : List ElementOutline) (folders : List (Text × FolderOutline)) (hp : p.place = .outside)
    (hfolders : p.folders = (folderVariable id, ⟨text, read⟩) :: folders) :
    (es.flatMap fun e => [] :: e.fullLines (folderVariable id)).foldlM Progress.step p
      = some { p with
          folders := (folderVariable id, ⟨text, read ++ es.map Element.outline⟩) :: folders } := by
  induction es generalizing p read with
  | nil =>
    rw [List.map_nil, List.append_nil, ← hfolders]
    rfl
  | cons e es ih =>
    rw [List.forall_mem_cons] at h
    have hempty := step_nothing hp readStatement_nil
    have hblock := foldlM_block h.1 id hp
    rw [hfolders, attach_cons] at hblock
    rw [List.flatMap_cons, List.cons_append, foldlM_cons hempty, foldlM_append hblock]
    refine (ih (p := { p with folders := (folderVariable id, ⟨text, read ++ [e.outline]⟩) :: folders })
      h.2 (read ++ [e.outline]) hp rfl).trans ?_
    rw [List.append_assoc, List.singleton_append, List.map_cons]

/-- The variable and the outline of a folder. -/
def folderEntry (f : Folder) : Text × FolderOutline := (folderVariable f.id, f.outline)

theorem foldlM_folder {f : Folder} (h : ∀ e ∈ f.elements, e.Unbracketed)
    (hp : p.place = .outside) :
    f.fullLines.foldlM Progress.step p = some { p with folders := folderEntry f :: p.folders } := by
  have hcomment : p.step ("-- Folder: " ++ quoted f.text) = some p :=
    step_nothing hp (readStatement_comment (by simp [Text.ofString, List.dropPrefix?]))
  have hfolder := step_statement hp (readStatement_folder f.id f.text)
  have hhead : f.heading.foldlM Progress.step p = some (p.run (.folder (folderVariable f.id) f.text)) := by
    rw [Folder.heading, foldlM_cons (step_nothing hp readStatement_nil), foldlM_cons hcomment,
      foldlM_cons hfolder]
    rfl
  rw [Folder.fullLines, foldlM_append hhead]
  exact foldlM_blocks h f.id f.text [] p.folders hp rfl

theorem foldlM_folders {fs : List Folder}
    (h : ∀ f ∈ fs, ∀ e ∈ f.elements, e.Unbracketed) (hp : p.place = .outside) :
    (fs.flatMap Folder.fullLines).foldlM Progress.step p
      = some { p with folders := (fs.map folderEntry).reverse ++ p.folders } := by
  induction fs generalizing p with
  | nil => rfl
  | cons f fs ih =>
    rw [List.forall_mem_cons] at h
    rw [List.flatMap_cons, foldlM_append (foldlM_folder h.1 hp)]
    refine (ih (p := { p with folders := folderEntry f :: p.folders }) h.2 hp).trans ?_
    rw [List.map_cons, List.reverse_cons, List.append_assoc, List.singleton_append]

/-! ### Windows -/

/-- The lines of a script, and the empty one behind the last line feed, say what the window holds. -/
theorem foldlM_fullLines {w : Window}
    (h : ∀ f ∈ w.folders, ∀ e ∈ f.elements, e.Unbracketed) (url : Text) :
    (w.fullLines url ++ [[]]).foldlM Progress.step .start
      = some ⟨.outside, some url, some w.title, (w.folders.map folderEntry).reverse⟩ := by
  have hcomment {p : Progress} {line : Text} (hp : p.place = .outside)
      (h : (line.dropPrefix? "--").isSome = true) : p.step line = some p :=
    step_nothing hp (readStatement_comment h)
  have hlibrary := step_statement (p := .start) rfl (readStatement_library url)
  have hwindow := step_statement (p := Progress.start.run (.library url)) rfl (readStatement_window w.title)
  have hhead : (w.headLines url).foldlM Progress.step .start
      = some ⟨.outside, some url, some w.title, []⟩ := by
    unfold Window.headLines
    rw [foldlM_cons (hcomment rfl (by simp [Text.ofString, List.dropPrefix?])),
      foldlM_cons (hcomment rfl (by simp [Text.ofString, List.dropPrefix?])),
      foldlM_cons (hcomment rfl (by simp [Text.ofString, List.dropPrefix?])),
      foldlM_cons (step_nothing rfl readStatement_nil)]
    refine (foldlM_cons hlibrary).trans ((foldlM_cons hwindow).trans ?_)
    rfl
  have hfolders := foldlM_folders (p := ⟨.outside, some url, some w.title, []⟩) h rfl
  rw [Window.fullLines, List.append_assoc, List.append_assoc, foldlM_append hhead, foldlM_append hfolders,
    List.append_nil]
  exact (foldlM_cons (step_nothing rfl readStatement_nil)).trans
    ((foldlM_cons (step_nothing rfl readStatement_init)).trans
      (foldlM_cons (step_nothing rfl readStatement_nil)))

/-! ### Lines stay lines -/

theorem lineFeed_not_mem_folderVariable (id : Text) : .char '\n' ∉ folderVariable id :=
  fun h => absurd (isVariablePoint_of_mem_folderVariable id _ h) (by decide)

theorem lineFeed_not_mem_settingLine (e : Element) :
    ∀ s ∈ (Text.ofString "text", quoted e.text) :: e.control.fullSettings, .char '\n' ∉ settingLine s := by
  cases e.control with
  | button => simp [Control.fullSettings, settingLine, indent, Text.ofString, lineFeed_not_mem_quoted]
  | toggle flag initially =>
    cases initially <;>
      simp [Control.fullSettings, settingLine, indent, boolean, Text.ofString, lineFeed_not_mem_quoted]
  | slider flag r =>
    simp [Control.fullSettings, settingLine, indent, Text.ofString, lineFeed_not_mem_quoted,
      lineFeed_not_mem_number, lineFeed_not_mem_ofNat]
  | dropdown flag options =>
    have hvalues : .char '\n' ∉ Text.join [.char ',', .char ' '] (options.map quoted) :=
      lineFeed_not_mem_texts options
    simp [Control.fullSettings, settingLine, indent, Text.ofString, lineFeed_not_mem_quoted, hvalues]

theorem lineFeed_not_mem_indentedLine {l : Text} (h : .char '\n' ∉ l) : .char '\n' ∉ indentedLine l := by
  unfold indentedLine
  split <;> simp [indent, h]

theorem lineFeed_not_mem_block {e : Element} (h : e.Unbracketed) (id : Text) :
    ∀ l ∈ e.fullLines (folderVariable id), .char '\n' ∉ l := by
  have howner := lineFeed_not_mem_folderVariable id
  rw [fullLines_eq h]
  simp only [List.forall_mem_cons, List.forall_mem_append, List.forall_mem_map]
  refine ⟨?_, List.forall_mem_cons.1 (lineFeed_not_mem_settingLine e), ?_, fun l hl => ?_, ?_⟩
  · simp [Text.ofString, howner, lineFeed_not_mem_name]
  · simp [callbackLine, indent, Text.ofString, lineFeed_not_mem_parameter]
  · exact lineFeed_not_mem_indentedLine (Text.not_mem_of_mem_split hl)
  · simp [endLine, indent, Text.ofString]

theorem lineFeed_not_mem_heading (f : Folder) : ∀ l ∈ f.heading, .char '\n' ∉ l := by
  simp [Folder.heading, Text.ofString, lineFeed_not_mem_quoted, lineFeed_not_mem_folderVariable]

theorem lineFeed_not_mem_folder {f : Folder} (h : ∀ e ∈ f.elements, e.Unbracketed) :
    ∀ l ∈ f.fullLines, .char '\n' ∉ l := by
  simp only [Folder.fullLines, List.forall_mem_append, List.forall_mem_flatMap, List.forall_mem_cons]
  exact ⟨lineFeed_not_mem_heading f, fun e he => ⟨List.not_mem_nil, lineFeed_not_mem_block (h e he) f.id⟩⟩

theorem lineFeed_not_mem_headLines (url : Text) (w : Window) :
    ∀ l ∈ w.headLines url, .char '\n' ∉ l := by
  simp [Window.headLines, builderName, Text.ofString, lineFeed_not_mem_quoted, lineFeed_not_mem_ofNat]

theorem lineFeed_not_mem_fullLines {w : Window}
    (h : ∀ f ∈ w.folders, ∀ e ∈ f.elements, e.Unbracketed) (url : Text) :
    ∀ l ∈ w.fullLines url, .char '\n' ∉ l := by
  unfold Window.fullLines
  simp only [List.forall_mem_append, List.forall_mem_flatMap]
  refine ⟨⟨lineFeed_not_mem_headLines url w, fun f hf => lineFeed_not_mem_folder (h f hf)⟩, ?_⟩
  simp [Text.ofString]

/-- The lines of a script are the lines that it is made of, and an empty one. -/
theorem lines_fullText {w : Window}
    (h : ∀ f ∈ w.folders, ∀ e ∈ f.elements, e.Unbracketed) (url : Text) :
    LineDiff.lines (w.fullText url) = w.fullLines url ++ [[]] := by
  have hne : w.fullLines url ≠ [] := by
    simp [Window.fullLines]
  have hfeeds : ∀ l ∈ w.fullLines url ++ [[]], .char '\n' ∉ l := by
    rw [List.forall_mem_append]
    exact ⟨lineFeed_not_mem_fullLines h url, by simp⟩
  rw [Window.fullText, ← Text.join_append_nil _ hne]
  exact LineDiff.lines_join hfeeds (by simp)

/-- What the reader makes of a script is the outline of its window. -/
theorem read_fullText {w : Window} (h : ∀ e ∈ w.elements, e.Unbracketed) (url : Text) :
    read (w.fullText url) = some (w.outline url) := by
  have hfolders : ∀ f ∈ w.folders, ∀ e ∈ f.elements, e.Unbracketed :=
    fun f hf e he => h e (List.mem_flatMap.2 ⟨f, hf, he⟩)
  rw [read, lines_fullText hfolders, foldlM_fullLines hfolders, Option.bind_some, Progress.outline?]
  dsimp only
  rw [← List.map_reverse, List.reverse_reverse, List.map_map]
  rfl

/-- **Scripts can be read back.** Whatever the texts, the logic and the ids of a window are, as long
as no long bracket opens in its logic, it has a script if its decimals can be written, and the script
says the place of the library, the title, and the folders and elements in order, each under the folder
that holds it. So windows with the same script differ in ids and in blank logic at most. A window with
decimals that cannot be written has no script. -/
theorem scripts_read_back (w : Window) (url : Text)
    (h : ∀ e ∈ w.elements, e.Unbracketed) :
    (w.Writable → ∃ t, w.scriptFrom url = .ok t ∧ read t = some (w.outline url) ∧
      ∀ (v : Window) (url' : Text), (∀ e ∈ v.elements, e.Unbracketed) → v.scriptFrom url' = .ok t →
        url' = url ∧ v.title = w.title ∧ v.folders.map Folder.outline = w.folders.map Folder.outline) ∧
    (¬ w.Writable → w.scriptFrom url = .error .unwritableInteger) := by
  refine ⟨fun hwritable => ?_, fun hlong => Window.scriptFrom_of_not_writable hlong url⟩
  refine ⟨w.fullText url, Window.scriptFrom_of_writable hwritable url, read_fullText h url, ?_⟩
  intro v url' hv hsame
  obtain ⟨-, htext⟩ := Window.scriptFrom_eq_ok.1 hsame
  have hread := read_fullText hv url'
  rw [← htext, read_fullText h url, Option.some.injEq] at hread
  exact ⟨congrArg Outline.libraryUrl hread.symm, congrArg Outline.title hread.symm,
    congrArg Outline.folders hread.symm⟩

/-- Two folders whose ids make one variable, and logic that looks like the end of its block. -/
def collidingWindow : Window :=
  ⟨"Two \"tabs\"",
    [⟨"a b", "One\nline", [⟨"1", "Go", some "print(1)\n    end\n\n\x7d)", .button⟩]⟩,
      ⟨"a_b", "Two", [⟨"2", "Pick", some "  ", .dropdown "f" ["x", "x"]⟩]⟩]⟩

theorem scripts_read_back_colliding :
    (∀ e ∈ collidingWindow.elements, e.Unbracketed) ∧ folderVariable "a b" = folderVariable "a_b" ∧
      ∃ t, collidingWindow.scriptFrom "url" = .ok t ∧ read t = some ⟨"url", "Two \"tabs\"",
        [⟨"One\nline", [⟨"Go", .button, "print(1)\n    end\n\n\x7d)"⟩]⟩,
          ⟨"Two", [⟨"Pick", .dropdown "f" ["x", "x"], "print(\"Pick:\", option)"⟩]⟩]⟩ := by
  have hplain : ∀ e ∈ collidingWindow.elements, ∀ t ∈ e.logic, hasLongBracket t = false := by
    decide
  have h : ∀ e ∈ collidingWindow.elements, e.Unbracketed := by
    intro e he t ht hbracket
    have hopens := (hasLongBracket_iff t).2 hbracket
    rw [hplain e he t ht] at hopens
    cases hopens
  obtain ⟨t, ht, hread, -⟩ := (scripts_read_back collidingWindow "url" h).1 (by decide)
  refine ⟨h, by decide, t, ht, hread.trans ?_⟩
  rfl

end Script

end GuiBuilder
