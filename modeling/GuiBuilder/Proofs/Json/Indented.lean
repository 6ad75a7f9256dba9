import GuiBuilder.Proofs.Json.Readable

/-!
# Indented JSON is read back

`Json.indented` in the form of the preferences is read back as the value it was written for, whatever the reader
could have returned: numbers that are not finite have words of their own, and all code points beyond printable
ASCII are escaped, so a lone surrogate half comes back as well (`Json.readWithin_indented`). The text holds
nothing but printable ASCII and line feeds, so it has a UTF-8 form and no line end in it is another one
(`Json.printable_indented`). The values that readers return are thus exactly the readable ones
(`Json.readable_iff`).
-/

namespace GuiBuilder.Json

variable {digits : ℕ} {v : Value}

/-! ### Neighbours in a container -/

theorem indentedItems_cons_cons (level : ℕ) (v w : Value) (items : List Value) :
    indentedItems .spaced level (v :: w :: items)
      = indented .spaced level v ++ .char ',' :: (newLine level ++ indentedItems .spaced level (w :: items)) := by
  simp only [indentedItems, List.append_assoc]
  rfl

theorem indentedFields_singleton (level : ℕ) (key : Text) (v : Value) :
    indentedFields .spaced level [(key, v)]
      = quoted plainAscii key ++ .char ':' :: ([.char ' '] ++ indented .spaced level v) := by
  rw [indentedFields, List.append_assoc]
  rfl

theorem indentedFields_cons_cons (level : ℕ) (key : Text) (v : Value) (field : Text × Value) (fields : Fields) :
    indentedFields .spaced level ((key, v) :: field :: fields)
      = quoted plainAscii key ++ .char ':' :: ([.char ' '] ++ (indented .spaced level v
          ++ .char ',' :: (newLine level ++ indentedFields .spaced level (field :: fields)))) := by
  simp only [indentedFields, List.append_assoc]
  rfl

theorem indented_array (level : ℕ) (v : Value) (items : List Value) :
    indented .spaced level (.array (v :: items)) = .char '[' :: (newLine (level + 1)
      ++ (indentedItems .spaced (level + 1) (v :: items) ++ (newLine level ++ [.char ']']))) := by
  simp only [indented, List.append_assoc, List.cons_append]

theorem indented_object (level : ℕ) (field : Text × Value) (fields : Fields) :
    indented .spaced level (.object (field :: fields)) = .char '\x7b' :: (newLine (level + 1)
      ++ (indentedFields .spaced (level + 1) (field :: fields) ++ (newLine level ++ [.char '\x7d']))) := by
  simp only [indented, List.append_assoc, List.cons_append]

/-! ### Indented texts are read -/

theorem blank_newLine (level : ℕ) : Blank (newLine level) :=
  List.forall_mem_cons.2 ⟨rfl, fun _ hp => by rw [List.eq_of_mem_replicate hp]; rfl⟩

theorem blank_space : Blank [.char ' '] := List.forall_mem_singleton.2 rfl

theorem hidesControls_plainAscii : HidesControls plainAscii := by
  intro p hp
  rw [plainAscii, Bool.and_eq_true] at hp
  exact of_decide_eq_true hp.1

/-- Where all surrogate halves are escaped, no pair may stand in the text itself. -/
theorem unpaired_plainAscii {t : Text} (ht : t.PairFree) : Unpaired plainAscii t :=
  ht.imp fun _ _ hpair _ _ => hpair

mutual

/-- **The indented form of a readable value reads as it.** -/
theorem readsAs_indented : ∀ {v : Value} {depth : ℕ} (level : ℕ), v.Readable digits depth →
    ReadsAs digits depth v (indented .spaced level v)
  | .null, _, _, _ => readsAs_word (by simp [words])
  | .bool true, _, _, _ => readsAs_word (by simp [words])
  | .bool false, _, _, _ => readsAs_word (by simp [words])
  | .int i, _, _, hv => readsAs_int (by rwa [Value.Readable] at hv)
  | .float (.finite x), _, _, _ => readsAs_finite _ x
  | .float (.infinite true), _, _, _ => readsAs_word (by simp [words, Style.spaced])
  | .float (.infinite false), _, _, _ => readsAs_word (by simp [words, Style.spaced])
  | .float .nan, _, _, _ => readsAs_word (by simp [words, Style.spaced])
  | .text t, _, _, hv =>
    readsAs_quoted hidesControls_plainAscii (unpaired_plainAscii (by rwa [Value.Readable] at hv))
  | .array [], _ + 1, _, _ => readsAs_array_nil
  | .array (v :: items), _ + 1, level, hv => by
    have hitems := itemsReadAs_indented (level + 1) (List.cons_ne_nil v items) (readable_array.1 hv)
    rw [indented_array]
    exact hitems.array (blank_newLine _) (blank_newLine _)
  | .object [], _ + 1, _, _ => readsAs_object_nil
  | .object (field :: fields), _ + 1, level, hv => by
    obtain ⟨hkeys, hv⟩ := readable_object.1 hv
    have hfields := fieldsReadAs_indented (level + 1) (List.cons_ne_nil field fields) hv
    have hread := hfields.object (blank_newLine (level + 1)) (blank_newLine level)
    rw [indented_object]
    rwa [Fields.ofList_of_nodup hkeys] at hread

theorem itemsReadAs_indented : ∀ {items : List Value} {depth : ℕ} (level : ℕ), items ≠ [] →
    ItemsReadable digits depth items → ItemsReadAs digits depth items (indentedItems .spaced level items)
  | [], _, _, hne, _ => absurd rfl hne
  | [_], _, level, _, hv => by
    obtain ⟨hv, -⟩ := itemsReadable_cons.1 hv
    exact (readsAs_indented level hv).lastItem
  | _ :: w :: items, _, level, _, hv => by
    obtain ⟨hv, hitems⟩ := itemsReadable_cons.1 hv
    have hrest := itemsReadAs_indented level (List.cons_ne_nil w items) hitems
    rw [indentedItems_cons_cons]
    exact .cons (readsAs_indented level hv) (blank_newLine level) hrest

theorem fieldsReadAs_indented : ∀ {fields : Fields} {depth : ℕ} (level : ℕ), fields ≠ [] →
    FieldsReadable digits depth fields → FieldsReadAs digits depth fields (indentedFields .spaced level fields)
  | [], _, _, hne, _ => absurd rfl hne
  | [(_, _)], _, level, _, hv => by
    obtain ⟨⟨hkey, hv⟩, -⟩ := fieldsReadable_cons.1 hv
    rw [indentedFields_singleton]
    exact (readsAs_indented level hv).lastField hidesControls_plainAscii (unpaired_plainAscii hkey) blank_space
  | (_, _) :: field :: fields, _, level, _, hv => by
    obtain ⟨⟨hkey, hv⟩, hfields⟩ := fieldsReadable_cons.1 hv
    have hrest := fieldsReadAs_indented level (List.cons_ne_nil field fields) hfields
    rw [indentedFields_cons_cons]
    exact .cons hidesControls_plainAscii (unpaired_plainAscii hkey) blank_space (readsAs_indented level hv)
      (blank_newLine level) hrest

end

/-- **Indented JSON is read back**, whatever a reader could have returned. -/
theorem readWithin_indented {limits : Limits} (level : ℕ) (hv : v.Readable limits.digits limits.depth) :
    readWithin limits (indented .spaced level v) = .ok v :=
  readWithin_of_readsAs (readsAs_indented level hv)

/-! ### What stands in an indented text -/

/-- Nothing but printable ASCII and line feeds. -/
def Printable (t : Text) : Prop := ∀ p ∈ t, p = .char '\n' ∨ plainAscii p = true

variable {t u : Text}

theorem printable_nil : Printable [] := List.forall_mem_nil _

theorem printable_append : Printable (t ++ u) ↔ Printable t ∧ Printable u := List.forall_mem_append

theorem printable_char {c : Char} (hc : plainAscii (.char c) = true) (ht : Printable t) :
    Printable (.char c :: t) :=
  List.forall_mem_cons.2 ⟨.inr hc, ht⟩

theorem Printable.encodable (h : Printable t) : t.Encodable := by
  intro p hp
  rcases h p hp with rfl | hascii
  · rfl
  · cases p with
    | char c => rfl
    | surrogate i =>
      rw [plainAscii, Bool.and_eq_true, decide_eq_true_eq, decide_eq_true_eq] at hascii
      have hlt : 0xD800 + i.val < 0x7F := hascii.2
      omega

/-- No line end has to be unified. -/
theorem Printable.unifyLineEnds (h : Printable t) : Text.unifyLineEnds t = t := by
  have hreturn {u : Text} : ¬ Printable (.char '\r' :: u) := fun h => by
    have := h _ List.mem_cons_self
    simp [plainAscii, CodePoint.toNat] at this
  induction t using Text.unifyLineEnds.induct with
  | case1 => rfl
  | case2 t => exact absurd h hreturn
  | case3 t => exact absurd h hreturn
  | case4 p t hpair hfirst ih =>
    rw [Text.unifyLineEnds.eq_4 _ _ hpair hfirst, ih (List.forall_mem_cons.1 h).2]

theorem printable_map {cs : List Char} (h : ∀ c ∈ cs, plainAscii (.char c) = true) :
    Printable (cs.map CodePoint.char) := by
  intro p hp
  obtain ⟨c, hc, rfl⟩ := List.mem_map.1 hp
  exact .inr (h c hc)

theorem printable_ofString {s : String} (h : ∀ c ∈ s.toList, plainAscii (.char c) = true) :
    Printable (Text.ofString s) :=
  printable_map h

theorem plainAscii_of_isDigit {c : Char} (hc : c.isDigit = true) : plainAscii (.char c) = true := by
  simp only [Char.isDigit, Bool.and_eq_true, decide_eq_true_eq] at hc
  have hzero : '0'.toNat ≤ c.toNat := hc.1
  have hnine : c.toNat ≤ '9'.toNat := hc.2
  have hbounds : '0'.toNat = 0x30 ∧ '9'.toNat = 0x39 := ⟨rfl, rfl⟩
  rw [plainAscii, Bool.and_eq_true, decide_eq_true_eq, decide_eq_true_eq]
  show 0x20 ≤ c.toNat ∧ c.toNat < 0x7F
  omega

theorem plainAscii_signed {negative : Bool} {cs : List Char} (h : ∀ c ∈ cs, plainAscii (.char c) = true) :
    ∀ c ∈ Layout.signed negative cs, plainAscii (.char c) = true := by
  cases negative with
  | false => exact h
  | true => exact List.forall_mem_cons.2 ⟨by decide, h⟩

/-- A written number is digits, a point, the mark of an exponent and a sign. -/
theorem plainAscii_chars {w : WrittenNumber} (hw : w.Proper) : ∀ c ∈ w.chars, plainAscii (.char c) = true := by
  have hfraction : ∀ c ∈ (if w.fraction.isEmpty then [] else '.' :: w.fraction), plainAscii (.char c) = true := by
    split
    · exact List.forall_mem_nil _
    · exact List.forall_mem_cons.2 ⟨by decide, fun c hc => plainAscii_of_isDigit (hw.isDigit_fraction c hc)⟩
  have htail : ∀ c ∈ w.tail, plainAscii (.char c) = true := by
    unfold WrittenNumber.tail
    split
    · next width e _ =>
      obtain ⟨ds, hwritten, hdigits, -⟩ := exists_exponentDigits width e
      rw [hwritten, List.forall_mem_cons, List.forall_mem_cons]
      refine ⟨by decide, ?_, fun c hc => plainAscii_of_isDigit (hdigits c hc)⟩
      split <;> decide
    · exact List.forall_mem_nil _
  rw [WrittenNumber.chars, List.forall_mem_append, List.forall_mem_append]
  exact ⟨⟨fun c hc => plainAscii_of_isDigit (hw.isDigit_whole c hc), hfraction⟩, htail⟩

theorem printable_finite (layout : Layout) (x : Finite64) : Printable (layout.finite x) := by
  obtain ⟨d, ⟨w, hw, hchars, -⟩, -⟩ := exists_spells_magnitude layout x.magnitude
  rw [Layout.finite, ← hchars]
  exact printable_map (plainAscii_signed (plainAscii_chars hw))

theorem printable_ofInt (i : ℤ) : Printable (Text.ofInt i) := by
  rw [ofInt_eq_signed]
  exact printable_map (plainAscii_signed fun c hc => plainAscii_of_isDigit (isDigit_of_mem_decimalDigits hc))

theorem plainAscii_hexDigit (n : ℕ) : plainAscii (.char (hexDigit n)) = true := by
  have hall : ∀ d < 16, plainAscii (.char (Nat.digitChar d)) = true := by decide
  exact hall _ (Nat.mod_lt _ (by decide))

theorem printable_escaped (p : CodePoint) : Printable (escaped plainAscii p) := by
  unfold escaped
  split
  · next letter h =>
    refine printable_char (by decide) (printable_char ?_ printable_nil)
    unfold shortEscape? at h
    split at h <;> cases h <;> decide
  · split
    · next hp => exact List.forall_mem_singleton.2 (.inr hp)
    · intro q hq
      obtain ⟨n, -, hn⟩ := List.mem_flatMap.1 hq
      refine printable_map (fun c hc => ?_) q hn
      simp only [hexDigits, List.nil_append, List.cons_append, List.mem_cons, List.not_mem_nil, or_false] at hc
      rcases hc with rfl | rfl | rfl | rfl | rfl | rfl
      · decide
      · decide
      all_goals exact plainAscii_hexDigit _

theorem printable_quoted (t : Text) : Printable (quoted plainAscii t) := by
  have hinner : Printable (t.flatMap (escaped plainAscii)) := fun q hq => by
    obtain ⟨p, -, hq⟩ := List.mem_flatMap.1 hq
    exact printable_escaped p q hq
  have hquote : Printable [.char '"'] := printable_char (by decide) printable_nil
  exact printable_append.2 ⟨printable_append.2 ⟨hquote, hinner⟩, hquote⟩

theorem printable_newLine (level : ℕ) : Printable (newLine level) :=
  List.forall_mem_cons.2 ⟨.inl rfl, fun _ hp => .inr (by rw [List.eq_of_mem_replicate hp]; rfl)⟩

/-- What stands between two brackets, on lines of its own. -/
theorem printable_container {first last : Char} {level level' : ℕ} (hfirst : plainAscii (.char first) = true)
    (hlast : plainAscii (.char last) = true) (ht : Printable t) :
    Printable (.char first :: (newLine level ++ (t ++ (newLine level' ++ [.char last])))) := by
  have hclose := printable_append.2 ⟨printable_newLine level', printable_char hlast printable_nil⟩
  exact printable_char hfirst
    (printable_append.2 ⟨printable_newLine level, printable_append.2 ⟨ht, hclose⟩⟩)

theorem printable_write (x : Binary64) : Printable (Style.spaced.layout.write x) := by
  match x with
  | .finite x => exact printable_finite _ x
  | .infinite true | .infinite false | .nan =>
    exact printable_ofString (by simp [Style.spaced, plainAscii, CodePoint.toNat])

mutual

/-- **An indented text holds nothing but printable ASCII and line feeds.** -/
theorem printable_indented : ∀ (level : ℕ) (v : Value), Printable (indented .spaced level v)
  | _, .null | _, .bool true | _, .bool false =>
    printable_ofString (by simp [plainAscii, CodePoint.toNat])
  | _, .int i => printable_ofInt i
  | _, .float x => printable_write x
  | _, .text t => printable_quoted t
  | _, .array [] | _, .object [] => printable_char (by decide) (printable_char (by decide) printable_nil)
  | level, .array (v :: items) => by
    rw [indented_array]
    exact printable_container (by decide) (by decide) (printable_indentedItems (level + 1) (v :: items))
  | level, .object (field :: fields) => by
    rw [indented_object]
    exact printable_container (by decide) (by decide) (printable_indentedFields (level + 1) (field :: fields))

theorem printable_indentedItems : ∀ (level : ℕ) (items : List Value),
    Printable (indentedItems .spaced level items)
  | _, [] => printable_nil
  | level, [v] => printable_indented level v
  | level, v :: w :: items => by
    rw [indentedItems_cons_cons]
    have hrest := printable_append.2 ⟨printable_newLine level, printable_indentedItems level (w :: items)⟩
    exact printable_append.2 ⟨printable_indented level v, printable_char (by decide) hrest⟩

theorem printable_indentedFields : ∀ (level : ℕ) (fields : Fields),
    Printable (indentedFields .spaced level fields)
  | _, [] => printable_nil
  | level, [(key, v)] => by
    rw [indentedFields_singleton]
    exact printable_append.2 ⟨printable_quoted key,
      printable_char (by decide) (printable_char (by decide) (printable_indented level v))⟩
  | level, (key, v) :: field :: fields => by
    rw [indentedFields_cons_cons]
    have hspace : Printable [.char ' '] := printable_char (by decide) printable_nil
    have hrest := printable_append.2 ⟨printable_newLine level, printable_indentedFields level (field :: fields)⟩
    refine printable_append.2 ⟨printable_quoted key, printable_char (by decide) (printable_append.2 ⟨hspace, ?_⟩)⟩
    exact printable_append.2 ⟨printable_indented level v, printable_char (by decide) hrest⟩

end

/-- **The values that a reader returns are the readable ones.** -/
theorem readable_iff {limits : Limits} :
    v.Readable limits.digits limits.depth ↔ ∃ t, t.Encodable ∧ readWithin limits t = .ok v := by
  refine ⟨fun hv => ⟨_, (printable_indented 0 v).encodable, readWithin_indented 0 hv⟩, ?_⟩
  rintro ⟨t, ht, hread⟩
  exact readable_of_readWithin ht hread

end GuiBuilder.Json
