import GuiBuilder.Assistant
import GuiBuilder.Proofs.Widget.RoundTrip

/-!
# What a reply proposes

A reply may surround an object with words. The object is what spans its first opening and its last
closing brace (`Assistant.Spans`), and a window is proposed exactly if the object is read, has folders
that pass the check, and gives a title that passes or none (`Assistant.readReply_eq_window_iff`): what the
object does not say is taken from the current window, and nothing else of that window is.

The canonical JSON of a window starts and ends with a brace, so no brace inside it is mistaken for an end of
it, and it is read back. A reply that carries a window proposes that window.
-/

namespace GuiBuilder

namespace Assistant

/-! ### The outermost braces -/

/-- An object spans a text: it starts with the first opening brace and ends with the last closing one. -/
def Spans (t object : Text) : Prop :=
  ∃ before inside after, t = before ++ object ++ after ∧ object = .char '{' :: (inside ++ [.char '}']) ∧
    .char '{' ∉ before ∧ .char '}' ∉ after

variable {t object : Text}

/-- What comes before the first occurrence of a code point is dropped. -/
theorem dropWhile_ne {q : CodePoint} {before : Text} (h : q ∉ before) (rest : Text) :
    (before ++ rest).dropWhile (fun p => decide (p ≠ q)) = rest.dropWhile fun p => decide (p ≠ q) := by
  refine List.dropWhile_append_of_pos ?_
  intro p hp
  rw [decide_eq_true_eq]
  rintro rfl
  exact h hp

theorem dropWhile_ne_cons (q : CodePoint) (rest : Text) :
    (q :: rest).dropWhile (fun p => decide (p ≠ q)) = q :: rest :=
  List.dropWhile_cons_of_neg (by simp)

theorem dropWhile_ne_eq_nil {q : CodePoint} (h : q ∉ t) : t.dropWhile (fun p => decide (p ≠ q)) = [] := by
  have hall := dropWhile_ne h []
  rwa [List.append_nil] at hall

/-- What spans a text is what is taken from between its braces. -/
theorem Spans.braced_eq (h : Spans t object) : braced t = object := by
  obtain ⟨before, inside, after, rfl, rfl, hbefore, hafter⟩ := h
  have hback : (.char '{' :: (inside ++ [.char '}'] ++ after) : Text).reverse
      = after.reverse ++ .char '}' :: (.char '{' :: inside : Text).reverse := by
    simp
  have hclose : CodePoint.char '}' ∉ after.reverse := by
    rwa [List.mem_reverse]
  rw [braced, List.append_assoc, dropWhile_ne hbefore, List.cons_append, dropWhile_ne_cons, hback,
    dropWhile_ne hclose, dropWhile_ne_cons, List.reverse_cons, List.reverse_reverse, List.cons_append]

theorem Spans.ne_nil (h : Spans t object) : object ≠ [] := by
  obtain ⟨_, inside, _, -, rfl, -, -⟩ := h
  exact List.cons_ne_nil _ _

/-- Where something is taken from between the braces, an object spans the text. -/
theorem exists_spans (h : braced t ≠ []) : ∃ object, Spans t object := by
  by_cases hopen : CodePoint.char '{' ∈ t
  · obtain ⟨before, rest, rfl, hbefore⟩ := List.eq_append_cons_of_mem hopen
    rw [braced, dropWhile_ne hbefore, dropWhile_ne_cons] at h
    by_cases hclose : CodePoint.char '}' ∈ (CodePoint.char '{' :: rest).reverse
    · obtain ⟨after, back, hback, hafter⟩ := List.eq_append_cons_of_mem hclose
      have hrest : CodePoint.char '{' :: rest = back.reverse ++ .char '}' :: after.reverse := by
        rw [← List.reverse_reverse (_ :: rest), hback]
        simp
      -- the closing brace is not the opening one, so something comes before it
      cases hfront : back.reverse with
      | nil =>
        rw [hfront] at hrest
        simp at hrest
      | cons p inside =>
        rw [hfront, List.cons_append, List.cons.injEq] at hrest
        obtain ⟨rfl, rfl⟩ := hrest
        refine ⟨_, before, inside, after.reverse, ?_, rfl, hbefore, ?_⟩
        · simp
        · rwa [List.mem_reverse]
    · rw [dropWhile_ne_eq_nil hclose] at h
      exact absurd rfl h
  · rw [braced, dropWhile_ne_eq_nil hopen] at h
    exact absurd rfl h

/-- **An object spans a text exactly if it is taken from between the braces of the text.** -/
theorem spans_iff : Spans t object ↔ braced t = object ∧ object ≠ [] := by
  constructor
  · intro h
    exact ⟨h.braced_eq, h.ne_nil⟩
  · rintro ⟨rfl, h⟩
    obtain ⟨object, hobject⟩ := exists_spans h
    rwa [hobject.braced_eq]

/-! ### What an object says of a window -/

/-- A window is what an object makes of the current one: its folders are those of the object, and so is its
title if the object has one. -/
structure Completes (fields : Fields) (current w : Window) : Prop where
  folders : ∃ items, Fields.get? (Field.folders.spelled .json) fields = some (.array items) ∧
    Schema.readArray Folder.ofValue (.array items) = .ok w.folders
  title : match Fields.get? (Field.title.spelled .json) fields with
    | some v => v = .text w.title ∧ w.title.Encodable
    | none => w.title = current.title

/-- The windows that a text proposes in the place of the current one, where containers may be nested `depth` deep. -/
def Proposes (depth : ℕ) (t : Text) (current w : Window) : Prop :=
  ∃ object fields, Spans t object ∧ Json.read depth object = .ok (.object fields) ∧ Completes fields current w

variable {fields : Fields} {current w : Window} {depth : ℕ}

/-- A proposed window has been checked. -/
theorem Completes.encodable (h : Completes fields current w) (hcurrent : current.Encodable) :
    w.Encodable := by
  obtain ⟨items, -, hitems⟩ := h.folders
  refine ⟨?_, ?_⟩
  · have htitle := h.title
    split at htitle
    · exact htitle.2
    · rw [htitle]
      exact hcurrent.title
  · intro f hf
    obtain ⟨_, -, hmade⟩ := Schema.exists_of_readArray hitems
    obtain ⟨item, -, hitem⟩ := hmade f hf
    exact Folder.encodable_of_ofValue hitem

/-- What is found in a completed object: the value of the object, or else that of the current window. -/
theorem find?_completed (hfields : (fields.map Prod.fst).Nodup) {f : FieldName} {v : Value}
    (hf : (f, v) ∈ current.fields .json) :
    f.find? (completed current fields)
      = some (f.spelled .json, (Fields.get? (f.spelled .json) fields).getD v) := by
  have hbase := get?_spellFields (s := .json) (current.pairwise_apart_fields .json) hf
  rw [FieldName.find?, completed, Fields.get?_merge hfields, hbase, Option.or_some]

theorem hasFolders_iff : hasFolders fields = true ↔
    ∃ items, Fields.get? (Field.folders.spelled .json) fields = some (.array items) := by
  unfold hasFolders
  split
  · next items h => simp [h]
  · next hnone => simpa using fun items h => hnone items h

/-- An object of which a window is made has folders. -/
theorem Completes.hasFolders (h : Completes fields current w) : hasFolders fields = true := by
  obtain ⟨items, hitems, -⟩ := h.folders
  exact hasFolders_iff.2 ⟨items, hitems⟩

/-- The title is what is read of the object, or of the current window. -/
theorem title_iff (hcurrent : current.Encodable) {given : Option Value} {title : Text} :
    (match given with
      | some v => v = .text title ∧ title.Encodable
      | none => title = current.title) ↔
    Schema.readText (given.getD (.text current.title)) = .ok title := by
  rw [Schema.readText_eq_ok]
  cases given with
  | some v => exact Iff.rfl
  | none =>
    rw [Option.getD_none, Value.text.injEq]
    constructor
    · rintro rfl
      exact ⟨rfl, hcurrent.title⟩
    · rintro ⟨rfl, -⟩
      rfl

/-- What an object makes of the current window is read of its fields and of the current title. -/
theorem completes_iff (hcurrent : current.Encodable) {items : List Value}
    (hitems : Fields.get? (Field.folders.spelled .json) fields = some (.array items)) :
    Completes fields current w ↔
      Schema.readText ((Fields.get? (Field.title.spelled .json) fields).getD (.text current.title))
        = .ok w.title ∧ Schema.readArray Folder.ofValue (.array items) = .ok w.folders := by
  constructor
  · rintro ⟨⟨items', hitems', hfolders⟩, htitle⟩
    rw [hitems, Option.some.injEq, Value.array.injEq] at hitems'
    subst hitems'
    exact ⟨(title_iff hcurrent).1 htitle, hfolders⟩
  · rintro ⟨htitle, hfolders⟩
    exact ⟨⟨items, hitems, hfolders⟩, (title_iff hcurrent).2 htitle⟩

/-- The check of a completed object passes exactly with what the object makes of the current window. -/
theorem ofValue_completed (hcurrent : current.Encodable) (hfields : (fields.map Prod.fst).Nodup)
    (hfolders : hasFolders fields = true) :
    Window.ofValue (.object (completed current fields)) = .ok w ↔ Completes fields current w := by
  obtain ⟨items, hitems⟩ := hasFolders_iff.1 hfolders
  have htitle : Field.title.find? (completed current fields) = some (_, _) :=
    find?_completed hfields List.mem_cons_self
  have hfound : Field.folders.find? (completed current fields) = some (_, _) :=
    find?_completed hfields (List.mem_cons_of_mem _ List.mem_cons_self)
  rw [hitems, Option.getD_some] at hfound
  rw [completes_iff hcurrent hitems, Window.ofValue, Schema.readRecord, Checked.seq_eq_ok]
  constructor
  · rintro ⟨withTitle, folders, h₁, h₂, rfl⟩
    obtain ⟨title, h₃, rfl⟩ := Checked.map_eq_ok.1 h₁
    exact ⟨(FieldName.optional_eq_ok htitle).1 h₃, (FieldName.optional_eq_ok hfound).1 h₂⟩
  · rintro ⟨h₁, h₂⟩
    exact ⟨_, _, Checked.map_eq_ok.2 ⟨_, (FieldName.optional_eq_ok htitle).2 h₁, rfl⟩,
      (FieldName.optional_eq_ok hfound).2 h₂, rfl⟩

/-! ### Reading replies -/

/-- **A reply is read as a window exactly if it proposes that window.** -/
theorem readReply_eq_window_iff (hcurrent : current.Encodable) :
    readReply depth t current = .ok (.window w) ↔ Proposes depth t current w := by
  constructor
  · intro h
    unfold readReply at h
    split at h
    · cases h
    · next hbraced =>
      have hspans : Spans t (braced t) := spans_iff.2 ⟨rfl, by simpa using hbraced⟩
      split at h
      · cases h
      · cases h
      · cases h
      · next fields hread =>
        split at h
        · next hfolders =>
          split at h
          · next v hv =>
            obtain rfl : v = w := by
              cases h
              rfl
            have hfields := Json.nodup_of_readWithin hread
            exact ⟨_, fields, hspans, hread, (ofValue_completed hcurrent hfields hfolders).1 hv⟩
          · cases h
        · cases h
      · cases h
  · rintro ⟨object, fields, hspans, hread, hw⟩
    have hfields := Json.nodup_of_readWithin hread
    have hofValue := (ofValue_completed hcurrent hfields hw.hasFolders).2 hw
    rw [readReply, hspans.braced_eq, if_neg (by simpa using hspans.ne_nil), hread]
    simp only [hw.hasFolders, if_true, hofValue]

end Assistant

/-! ### Objects with a field left out -/

namespace Fields

/-- The fields with another key. -/
def without (key : Text) (fields : Fields) : Fields := fields.filter fun field => decide (field.1 ≠ key)

variable {fields : Fields} {digits : ℕ}

theorem get?_without (key other : Text) (fields : Fields) :
    get? other (without key fields) = if other = key then none else get? other fields := by
  induction fields with
  | nil => simp [without]
  | cons field fields ih =>
    obtain ⟨k, v⟩ := field
    rw [without] at ih ⊢
    by_cases hk : k = key
    · subst hk
      rw [List.filter_cons_of_neg (by simp), ih, get?]
      by_cases hother : other = k
      · simp [hother]
      · simp [hother, Ne.symm hother]
    · rw [List.filter_cons_of_pos (by simpa using hk), get?, get?, ih]
      by_cases hother : k = other
      · subst hother
        simp [hk]
      · simp [hother]

theorem storable_without (h : (Value.object fields).Storable digits) (key : Text) :
    (Value.object (without key fields)).Storable digits := by
  refine ⟨?_, fieldsStorable_iff.2 fun field hfield => ?_⟩
  · exact h.1.sublist (List.filter_sublist.map Prod.fst)
  · exact fieldsStorable_iff.1 h.2 field (List.mem_of_mem_filter hfield)

theorem depth_without_le {n : ℕ} (h : (Value.object fields).depth ≤ n + 1) (key : Text) :
    (Value.object (without key fields)).depth ≤ n + 1 := by
  refine Nat.succ_le_succ (Value.depthOfFields_le_iff.2 fun field hfield => ?_)
  exact Value.depthOfFields_le_iff.1 (Nat.le_of_succ_le_succ h) field (List.mem_of_mem_filter hfield)

end Fields

/-! ### Replies that carry a window -/

namespace Window

open Assistant

variable {w current : Window} {before after : Text} {depth : ℕ}

/-- The canonical JSON of a window without its title. -/
def untitled (w : Window) : Text :=
  Json.inline .canonical (.object ((spellFields .json (w.fields .json)).without (Field.title.spelled .json)))

/-- A written object is read from every reply in which no opening brace comes before it and no closing one
after it, whatever it holds itself. -/
theorem readReply_inline {fields : Fields} (hcurrent : current.Encodable)
    (hstorable : (Value.object fields).Storable Numeral.maxIntegerDigits)
    (hdepth : (Value.object fields).depth ≤ depth)
    (hbefore : CodePoint.char '{' ∉ before) (hafter : CodePoint.char '}' ∉ after)
    (hw : Completes fields current w) :
    readReply depth (before ++ Json.inline .canonical (.object fields) ++ after) current = .ok (.window w) := by
  have hspans : Spans (before ++ Json.inline .canonical (.object fields) ++ after)
      (Json.inline .canonical (.object fields)) :=
    ⟨before, Json.inlineFields .canonical fields, after, rfl, rfl, hbefore, hafter⟩
  have hread : Json.read depth (Json.inline .canonical (.object fields)) = .ok (.object fields) :=
    Json.readWithin_inline (.ofDepth depth) hstorable hdepth
  exact (readReply_eq_window_iff hcurrent).2 ⟨_, fields, hspans, hread, hw⟩

/-- **A reply that carries a window is understood exactly.** Whatever the texts of the window hold, its
canonical JSON is read as the window, with words around it as long as no opening brace comes before it and
no closing one after it. Where the title is left out, that of the current window is taken. The reader has to
take the containers of a window, and seven levels of them are enough. -/
theorem readReply_canonical {u v : Value} (hw : ofValue u = .ok w) (hdecimals : w.DecimalsWithin 4300)
    (hcurrent : ofValue v = .ok current) (hdepth : 7 ≤ depth) (hbefore : CodePoint.char '{' ∉ before)
    (hafter : CodePoint.char '}' ∉ after) :
    readReply depth (before ++ w.canonical ++ after) current = .ok (.window w) ∧
    readReply depth (before ++ w.untitled ++ after) current
      = .ok (.window { w with title := current.title }) := by
  have hencodable := encodable_of_ofValue hw
  have hencodable' := encodable_of_ofValue hcurrent
  have hstorable : (w.toValue .json).Storable Numeral.maxIntegerDigits :=
    storable_toValue .json hencodable hdecimals
  have hnested := depth_toValue_le .json w
  have hapart := w.pairwise_apart_fields .json
  have htitle : Fields.get? (Field.title.spelled .json) (spellFields .json (w.fields .json)) = some _ :=
    get?_spellFields hapart List.mem_cons_self
  have hfolders : Fields.get? (Field.folders.spelled .json) (spellFields .json (w.fields .json)) = some _ :=
    get?_spellFields hapart (List.mem_cons_of_mem _ List.mem_cons_self)
  have hread : Schema.readArray Folder.ofValue (.array (w.folders.map (Folder.toValue .json)))
      = .ok w.folders :=
    Schema.readArray_map fun f hf => Folder.ofValue_toValue .json (hencodable.folders f hf)
  constructor
  · refine readReply_inline hencodable' hstorable (hnested.trans hdepth) hbefore hafter ?_
    exact ⟨⟨_, hfolders, hread⟩, by rw [htitle]; exact ⟨rfl, hencodable.title⟩⟩
  · refine readReply_inline hencodable' (Fields.storable_without hstorable _)
      ((Fields.depth_without_le hnested _).trans hdepth) hbefore hafter ⟨⟨_, ?_, hread⟩, ?_⟩
    · rw [Fields.get?_without, if_neg (by decide), hfolders]
    · rw [Fields.get?_without, if_pos rfl]

/-- A window whose texts hold braces, quotes, backslashes, control characters and JSON. -/
def tangled : Window :=
  ⟨"\x7b\"title\":", [⟨"f", "\x7d]\x7d", [
    ⟨"a", "\\\"", some "if x then t = \x7b[1] = \"\x7d\"\x7d -- \\u007b\x00\n", .button⟩,
    ⟨"b", "", none, .dropdown "\x7b\"folders\":[]\x7d" ["\t", "\x7f"]⟩]⟩]⟩

/-- It is understood with words and other braces around it, in the place of a window with another title. -/
theorem readReply_canonical_tangled : ∃ current, ofValue looseData = .ok current ∧
    readReply 7 ("Sure \x7d:\n" ++ tangled.canonical ++ "\n, or \x7b?") current = .ok (.window tangled) ∧
    readReply 7 ("Sure \x7d:\n" ++ tangled.untitled ++ "\n, or \x7b?") current
      = .ok (.window { tangled with title := "A \"B\"\n" }) := by
  have hloose : ((ofValue looseData).toOption.any fun w => decide (w.title = ("A \"B\"\n" : Text))) = true := by
    decide +kernel
  obtain ⟨current, hcurrent, htitle⟩ := (Option.any_eq_true _ _).1 hloose
  have hread : ofValue looseData = .ok current := Checked.toOption_eq_some.1 hcurrent
  have htangled : ofValue (tangled.toValue .json) = .ok tangled := by
    rfl
  refine ⟨current, hread, ?_⟩
  rw [← of_decide_eq_true htitle]
  exact readReply_canonical htangled (by decide) hread le_rfl (by decide) (by decide)

end Window

end GuiBuilder
