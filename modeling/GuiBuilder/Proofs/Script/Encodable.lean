import GuiBuilder.Proofs.Script.Complete
import GuiBuilder.Proofs.Text.Lines

/-!
# Scripts of encodable windows

A script is made of fixed words, numbers and the texts of its window, and writing a text as a literal, as a
variable or line by line brings in characters only. So the script of a window whose texts are encodable is
encodable itself (`Window.encodable_of_script`): it can be written to a file in UTF-8, whatever the window.
-/

namespace GuiBuilder

namespace Text

theorem encodable_cons {p : CodePoint} {t : Text} :
    Text.Encodable (p :: t) ↔ p.isChar = true ∧ t.Encodable := List.forall_mem_cons

theorem encodable_flatMap {α : Type} {items : List α} {f : α → Text} (h : ∀ a ∈ items, (f a).Encodable) :
    Text.Encodable (items.flatMap f) := by
  intro q hq
  obtain ⟨a, ha, hq⟩ := List.mem_flatMap.1 hq
  exact h a ha q hq

theorem encodable_join {separator : Text} {ts : List Text} (hseparator : separator.Encodable)
    (h : ∀ t ∈ ts, t.Encodable) : (join separator ts).Encodable := by
  fun_induction join separator ts with
  | case1 => exact encodable_nil
  | case2 t => exact h t List.mem_cons_self
  | case3 t u rest ih =>
    rw [List.forall_mem_cons] at h
    exact encodable_append.2 ⟨encodable_append.2 ⟨h.1, hseparator⟩, ih h.2⟩

theorem encodable_of_mem_split {separator : CodePoint} {t piece : Text} (ht : t.Encodable)
    (hpiece : piece ∈ split separator t) : piece.Encodable :=
  fun p hp => ht p ((sublist_of_mem_split hpiece).subset hp)

theorem encodable_ofNat (n : ℕ) : (ofNat n).Encodable := encodable_map_char _

theorem encodable_ofInt (i : ℤ) : (ofInt i).Encodable := by
  unfold ofInt
  split
  · exact encodable_append.2 ⟨encodable_ofString _, encodable_ofNat _⟩
  · exact encodable_ofNat _

end Text

open Text

namespace Script

/-! ### Literals -/

theorem encodable_escaped {p : CodePoint} (hp : p.isChar = true) : (escaped p).Encodable := by
  unfold escaped
  split
  iterate 5 exact encodable_map_char ['\\', _]
  · split
    · exact encodable_map_char ('\\' :: _)
    · exact List.forall_mem_singleton.2 hp

theorem encodable_quoted {t : Text} (ht : t.Encodable) : (quoted t).Encodable := by
  have hinside : Text.Encodable (t.flatMap escaped) := encodable_flatMap fun p hp => encodable_escaped (ht p hp)
  exact encodable_cons.2 ⟨rfl, encodable_append.2 ⟨hinside, encodable_map_char ['"']⟩⟩

theorem encodable_number (x : Finite64) : (number x).Encodable := by
  unfold number
  split
  · exact encodable_ofInt _
  · exact encodable_map_char _

theorem encodable_texts {ts : List Text} (hts : ∀ t ∈ ts, t.Encodable) :
    Text.Encodable (.char '{' :: join ", " (ts.map quoted) ++ [.char '}']) := by
  have hitems : Text.Encodable (join ", " (ts.map quoted)) := by
    refine encodable_join (encodable_ofString _) ?_
    exact List.forall_mem_map.2 fun t ht => encodable_quoted (hts t ht)
  exact encodable_cons.2 ⟨rfl, encodable_append.2 ⟨hitems, encodable_map_char ['\x7d']⟩⟩

/-! ### Lines -/

theorem encodable_indent : indent.Encodable := by decide

theorem encodable_folderVariable (id : Text) : (folderVariable id).Encodable := by
  refine encodable_append.2 ⟨encodable_ofString _, List.forall_mem_map.2 fun p _ => ?_⟩
  -- a surrogate half may not stand in a variable
  cases p with
  | char c =>
    split <;> rfl
  | surrogate i => rfl

theorem encodable_indentedLine {line : Text} (hline : line.Encodable) : (indentedLine line).Encodable := by
  unfold indentedLine
  split
  · exact encodable_nil
  · exact encodable_append.2 ⟨encodable_append.2 ⟨encodable_indent, encodable_indent⟩, hline⟩

/-- The body of a callback is encodable, if the logic and the placeholder are. -/
theorem encodable_bodyLines {logic : Option Text} {placeholder : Text} (hlogic : ∀ t ∈ logic, t.Encodable)
    (hplaceholder : placeholder.Encodable) : ∀ line ∈ bodyLines logic placeholder, line.Encodable := by
  have hdefault : Text.Encodable (indent ++ indent ++ placeholder) :=
    encodable_append.2 ⟨encodable_append.2 ⟨encodable_indent, encodable_indent⟩, hplaceholder⟩
  cases logic with
  | none => exact List.forall_mem_singleton.2 hdefault
  | some t =>
    have ht : t.Encodable := hlogic t rfl
    simp only [bodyLines]
    split
    · exact List.forall_mem_singleton.2 hdefault
    · split
      · exact List.forall_mem_singleton.2 ht
      · exact List.forall_mem_map.2 fun line hline => encodable_indentedLine (encodable_of_mem_split ht hline)

theorem encodable_settingLine {setting : Text × Text} (hname : setting.1.Encodable)
    (hliteral : setting.2.Encodable) : (settingLine setting).Encodable := by
  simp only [settingLine, encodable_append]
  exact ⟨⟨⟨⟨encodable_indent, hname⟩, encodable_ofString _⟩, hliteral⟩, encodable_ofString _⟩

end Script

open Script

/-! ### Blocks -/

theorem Element.encodable_placeholder {e : Element} (ht : e.text.Encodable) : e.placeholder.Encodable := by
  have hword (s : String) := encodable_ofString s
  have hlabel (s : String) : (quoted (e.text ++ Text.ofString s)).Encodable :=
    encodable_quoted (encodable_append.2 ⟨ht, hword s⟩)
  unfold placeholder
  split
  · simp only [encodable_append]
    exact ⟨⟨hword _, hlabel _⟩, hword _⟩
  · simp only [encodable_append]
    exact ⟨⟨⟨⟨hword _, hlabel _⟩, hword _⟩, hword _⟩, hword _⟩

theorem Control.encodable_fullSettings {c : Control} (hc : c.Encodable) :
    ∀ setting ∈ c.fullSettings, setting.1.Encodable ∧ setting.2.Encodable := by
  have hword (s : String) := encodable_ofString s
  cases c with
  | button => exact List.forall_mem_nil _
  | toggle flag initially =>
    simp only [fullSettings, List.forall_mem_cons]
    exact ⟨⟨hword _, encodable_quoted hc⟩, ⟨hword _, hword _⟩, List.forall_mem_nil _⟩
  | slider flag range =>
    simp only [fullSettings, List.forall_mem_cons]
    exact ⟨⟨hword _, encodable_quoted hc⟩, ⟨hword _, encodable_number _⟩, ⟨hword _, encodable_number _⟩,
      ⟨hword _, encodable_number _⟩, ⟨hword _, encodable_ofNat _⟩, List.forall_mem_nil _⟩
  | dropdown flag options =>
    simp only [fullSettings, List.forall_mem_cons]
    exact ⟨⟨hword _, encodable_quoted hc.1⟩, ⟨hword _, encodable_texts hc.2⟩, List.forall_mem_nil _⟩

theorem Element.encodable_fullLines {e : Element} (he : e.Encodable) {owner : Text}
    (howner : owner.Encodable) : ∀ line ∈ e.fullLines owner, line.Encodable := by
  have hword (s : String) := encodable_ofString s
  have hsettings : ∀ setting ∈ (Text.ofString "text", quoted e.text) :: e.control.fullSettings,
      (settingLine setting).Encodable := by
    rw [List.forall_mem_cons]
    refine ⟨encodable_settingLine (hword _) (encodable_quoted he.text), fun setting hsetting => ?_⟩
    obtain ⟨hname, hliteral⟩ := Control.encodable_fullSettings he.control setting hsetting
    exact encodable_settingLine hname hliteral
  simp only [fullLines, block, List.cons_append, List.append_assoc, List.forall_mem_cons, List.forall_mem_append,
    List.forall_mem_map, encodable_append]
  rw [List.forall_mem_cons] at hsettings
  exact ⟨⟨howner, hword _, hword _, hword _⟩, hsettings, ⟨encodable_indent, hword _, hword _, hword _⟩,
    encodable_bodyLines he.logic (encodable_placeholder he.text), ⟨encodable_indent, hword _⟩, hword _,
    List.forall_mem_nil _⟩

theorem Folder.encodable_fullLines {f : Folder} (hf : f.Encodable) :
    ∀ line ∈ f.fullLines, line.Encodable := by
  have hword (s : String) := encodable_ofString s
  have howner := encodable_folderVariable f.id
  simp only [fullLines, heading, List.cons_append, List.nil_append, List.forall_mem_cons, List.forall_mem_flatMap,
    encodable_append]
  exact ⟨encodable_nil, ⟨hword _, encodable_quoted hf.text⟩,
    ⟨⟨⟨⟨hword _, howner⟩, hword _⟩, encodable_quoted hf.text⟩, hword _⟩,
    fun e he => ⟨encodable_nil, Element.encodable_fullLines (hf.elements e he) howner⟩⟩

namespace Window

variable {w : Window}

theorem encodable_headLines (hw : w.Encodable) {url : Text} (hurl : url.Encodable) :
    ∀ line ∈ w.headLines url, line.Encodable := by
  have hword (s : String) := encodable_ofString s
  simp only [headLines, List.forall_mem_cons, encodable_append]
  exact ⟨⟨hword _, hword _⟩, ⟨hword _, encodable_quoted hw.title⟩,
    ⟨⟨⟨hword _, encodable_ofNat _⟩, hword _⟩, encodable_ofNat _⟩, encodable_nil,
    ⟨⟨hword _, encodable_quoted hurl⟩, hword _⟩, ⟨⟨hword _, encodable_quoted hw.title⟩, hword _⟩,
    List.forall_mem_nil _⟩

theorem encodable_fullText (hw : w.Encodable) {url : Text} (hurl : url.Encodable) :
    (w.fullText url).Encodable := by
  have hlines : ∀ line ∈ w.fullLines url, line.Encodable := by
    simp only [fullLines, List.forall_mem_append, List.forall_mem_flatMap, List.forall_mem_cons]
    exact ⟨⟨encodable_headLines hw hurl, fun f hf => Folder.encodable_fullLines (hw.folders f hf)⟩,
      encodable_nil, encodable_ofString _, List.forall_mem_nil _⟩
  exact encodable_append.2 ⟨encodable_join (encodable_ofString _) hlines, encodable_ofString _⟩

/-- **The script of an encodable window is encodable.** -/
theorem encodable_of_script (hw : w.Encodable) {t : Text} (ht : w.script = .ok t) : t.Encodable := by
  obtain ⟨-, rfl⟩ := scriptFrom_eq_ok.1 ht
  exact encodable_fullText hw (encodable_ofString _)

theorem exists_encodable_script (hw : w.Encodable) (hwritable : w.Writable) :
    ∃ t, w.script = .ok t ∧ t.Encodable :=
  ⟨_, scriptFrom_of_writable hwritable _, encodable_fullText hw (encodable_ofString _)⟩

end Window

end GuiBuilder
