import GuiBuilder.Proofs.LineDiff.EditScript

/-!
# A printed difference is read back

An entry is printed on one line: its mark, which has two characters, and the line that it is about. No line
of a text holds a line feed and every difference has an entry, so the lines of the print are the printed
entries. Only the first two characters of each are a mark, whatever the line itself starts with.

`readPrinted?` reads the entries of a print, and accepts nothing but prints
(`readPrinted?_eq_some_iff`). With the entries the two texts are recovered.
-/

namespace GuiBuilder.LineDiff

/-- The change that a mark stands for. -/
def Change.ofMark? (mark : Text) : Option Change :=
  if mark = Change.same.mark then some .same
  else if mark = Change.added.mark then some .added
  else if mark = Change.removed.mark then some .removed
  else none

/-- The entry that a printed line stands for. -/
def Entry.ofPrinted? (line : Text) : Option Entry :=
  (Change.ofMark? (line.take 2)).map fun change => ⟨change, line.drop 2⟩

/-- The entries that some printed lines stand for. -/
def readLines? : List Text → Option (List Entry)
  | [] => some []
  | line :: rest =>
    match Entry.ofPrinted? line, readLines? rest with
    | some e, some entries => some (e :: entries)
    | _, _ => none

/-- The entries that a printed difference stands for. -/
def readPrinted? (t : Text) : Option (List Entry) := readLines? (lines t)

/-- The two texts that a printed difference stands for. -/
def textsOf? (t : Text) : Option (Text × Text) :=
  (readPrinted? t).map fun entries =>
    (Text.join "\n" (oldSide entries), Text.join "\n" (newSide entries))

variable {e : Entry} {entries : List Entry} {line t : Text} {ls : List Text} {change : Change}

/-! ### Marks -/

theorem length_mark (change : Change) : (Text.ofString change.mark).length = 2 := by
  cases change <;> rfl

theorem Change.ofMark?_eq_some_iff {mark : Text} :
    ofMark? mark = some change ↔ mark = change.mark := by
  constructor
  · intro h
    unfold ofMark? at h
    split_ifs at h with hsame hadded hremoved <;> cases h <;> assumption
  · rintro rfl
    cases change <;> decide

/-! ### Printed lines -/

theorem take_printed (e : Entry) : e.printed.take 2 = e.change.mark :=
  List.take_left' (length_mark e.change)

theorem drop_printed (e : Entry) : e.printed.drop 2 = e.line :=
  List.drop_left' (length_mark e.change)

/-- A printed line stands for the entry that was printed, and nothing else does. -/
theorem Entry.ofPrinted?_eq_some_iff : ofPrinted? line = some e ↔ line = e.printed := by
  constructor
  · intro h
    obtain ⟨change, hchange, rfl⟩ := Option.map_eq_some_iff.1 h
    have hmark : line.take 2 = change.mark := Change.ofMark?_eq_some_iff.1 hchange
    calc line
      _ = line.take 2 ++ line.drop 2 := (List.take_append_drop 2 line).symm
      _ = change.mark ++ line.drop 2 := by rw [hmark]
  · rintro rfl
    rw [ofPrinted?, take_printed, drop_printed, Change.ofMark?_eq_some_iff.2 rfl]
    rfl

theorem readLines?_eq_some_iff : readLines? ls = some entries ↔ ls = entries.map Entry.printed := by
  induction ls generalizing entries with
  | nil => cases entries <;> simp [readLines?]
  | cons line ls ih =>
    constructor
    · intro h
      rw [readLines?] at h
      split at h
      · next e rest he hrest =>
        cases h
        rw [List.map_cons, ← Entry.ofPrinted?_eq_some_iff.1 he, ← ih.1 hrest]
      · cases h
    · intro h
      cases entries with
      | nil => cases h
      | cons e entries =>
        obtain ⟨hline, hrest⟩ := List.cons.inj h
        rw [readLines?, Entry.ofPrinted?_eq_some_iff.2 hline, ih.2 hrest]

/-! ### Printed differences -/

theorem lineFeed_not_mem_mark (change : Change) : .char '\n' ∉ Text.ofString change.mark := by
  cases change <;> decide

theorem lineFeed_mem_printed_iff : .char '\n' ∈ e.printed ↔ .char '\n' ∈ e.line := by
  rw [Entry.printed, List.mem_append, or_iff_right (lineFeed_not_mem_mark e.change)]

/-- Each entry is a line of the print. -/
theorem lines_printed (hne : entries ≠ []) (hlines : ∀ e ∈ entries, .char '\n' ∉ e.line) :
    lines (printed entries) = entries.map Entry.printed := by
  refine lines_join (List.forall_mem_map.2 fun e he => ?_) (by simpa using hne)
  rw [lineFeed_mem_printed_iff]
  exact hlines e he

/-- **Reading accepts exactly what printing gives.** -/
theorem readPrinted?_eq_some_iff : readPrinted? t = some entries ↔
    (entries ≠ [] ∧ ∀ e ∈ entries, .char '\n' ∉ e.line) ∧ printed entries = t := by
  rw [readPrinted?, readLines?_eq_some_iff]
  constructor
  · intro h
    refine ⟨⟨?_, fun e he => ?_⟩, ?_⟩
    · rintro rfl
      exact Text.split_ne_nil _ t h
    · rw [← lineFeed_mem_printed_iff]
      have hmem : e.printed ∈ lines t := h ▸ List.mem_map_of_mem he
      exact Text.not_mem_of_mem_split hmem
    · rw [printed, ← h, join_lines]
  · rintro ⟨⟨hne, hlines⟩, rfl⟩
    exact lines_printed hne hlines

/-- A difference can be printed: it has an entry, and its lines are lines of a text. -/
theorem printable_between (old new : Text) :
    between old new ≠ [] ∧ ∀ e ∈ between old new, .char '\n' ∉ e.line := by
  constructor
  · intro hnil
    have hold := oldSide_between old new
    rw [hnil, oldSide_nil] at hold
    exact Text.split_ne_nil _ old hold.symm
  · intro e he
    rcases line_mem_of_mem_between he with hline | hline
    · exact Text.not_mem_of_mem_split hline
    · exact Text.not_mem_of_mem_split hline

/-- The two texts are recovered from the print of their difference. -/
theorem textsOf?_printed_between (old new : Text) :
    textsOf? (printed (between old new)) = some (old, new) := by
  have hread : readPrinted? (printed (between old new)) = some (between old new) :=
    readPrinted?_eq_some_iff.2 ⟨printable_between old new, rfl⟩
  rw [textsOf?, hread, Option.map_some, oldSide_between, newSide_between, join_lines, join_lines]

/-- **The print of a difference loses nothing.** It has one line for each entry, in order, of which the first
two characters are the mark of what became of the line, and so say what that was, and the rest is the line
itself. The entries are read off the print, and from them the two texts, so two pairs of texts with one print
are one pair. -/
theorem printed_between_lossless (old new : Text) :
    let entries := between old new
    (lines (printed entries)).map (fun line => (Change.ofMark? (line.take 2), line.drop 2))
        = entries.map (fun e => (some e.change, e.line)) ∧
      (lines (printed entries)).map (fun line => line.take 2) = entries.map (fun e => (e.change.mark : Text)) ∧
      readPrinted? (printed entries) = some entries ∧
      textsOf? (printed entries) = some (old, new) ∧
      ∀ old' new', printed (between old' new') = printed entries ↔ old' = old ∧ new' = new := by
  intro entries
  obtain ⟨hne, hlines⟩ := printable_between old new
  have hprinted : lines (printed entries) = entries.map Entry.printed := lines_printed hne hlines
  refine ⟨?_, ?_, readPrinted?_eq_some_iff.2 ⟨⟨hne, hlines⟩, rfl⟩, textsOf?_printed_between old new, ?_⟩
  · rw [hprinted, List.map_map]
    refine List.map_congr_left fun e _ => ?_
    rw [Function.comp_apply, take_printed, drop_printed, Change.ofMark?_eq_some_iff.2 rfl]
  · rw [hprinted, List.map_map]
    exact List.map_congr_left fun e _ => take_printed e
  · intro old' new'
    constructor
    · intro h
      have htexts := textsOf?_printed_between old' new'
      rw [h, textsOf?_printed_between] at htexts
      cases htexts
      exact ⟨rfl, rfl⟩
    · rintro ⟨rfl, rfl⟩
      rfl

end GuiBuilder.LineDiff
