import GuiBuilder.Proofs.Json.Scalars

/-!
# Texts that are read as a value

A text reads as a value (`ReadsAs`) when the reader takes the value off its front, within its limits and
with enough fuel for the length, whatever may follow a value there. This is put together as a text is: a word,
a number or a quoted text reads as itself, and a container as what its items or fields read as, with any white
space between the tokens. So a format is read back as soon as its texts are put together in one of these ways;
nothing else is said of the reader when it is (`readWithin_of_readsAs`).
-/

namespace GuiBuilder.Json

variable {digits depth : ℕ} {t u gap gap' rest : Text} {v : Value}

/-! ### The front of a value -/

/-- How a value starts: neither with white space nor with the end of an array or a byte order mark. -/
def Opens (t : Text) : Prop :=
  ∃ p ∈ t.head?, isSpace p = false ∧ p ≠ .char ']' ∧ p ≠ .char '\uFEFF'

theorem Opens.append (h : Opens t) (rest : Text) : Opens (t ++ rest) := by
  obtain ⟨p, hp, hfirst⟩ := h
  exact ⟨p, by rw [List.head?_append_of_ne_nil _ (by rintro rfl; cases hp)]; exact hp, hfirst⟩

theorem opens_char {c : Char} (h : isSpace (.char c) = false ∧ c ≠ ']' ∧ c ≠ '\uFEFF') (t : Text) :
    Opens (.char c :: t) :=
  ⟨.char c, rfl, h.1, fun hc => h.2.1 (CodePoint.char.inj hc), fun hc => h.2.2 (CodePoint.char.inj hc)⟩

theorem opens_digit {c : Char} (hc : c.isDigit = true) (t : Text) : Opens (.char c :: t) := by
  have hne : ∀ other ∈ [' ', '\t', '\n', '\r', ']', '\uFEFF'], c ≠ other := by
    rintro other hother rfl
    simp only [List.mem_cons, List.not_mem_nil, or_false] at hother
    rcases hother with rfl | rfl | rfl | rfl | rfl | rfl <;> cases hc
  simp only [List.forall_mem_cons] at hne
  exact opens_char (by simp [isSpace, hne]) t

theorem opens_signed (negative : Bool) {cs : List Char} (hcs : StartsWithDigit cs) :
    Opens ((Layout.signed negative cs).map CodePoint.char) := by
  obtain ⟨c, cs, rfl, hc⟩ := hcs
  cases negative with
  | false => exact opens_digit hc _
  | true => exact opens_char (by decide) _

/-! ### White space between tokens -/

/-- White space, or nothing. -/
def Blank (gap : Text) : Prop := ∀ p ∈ gap, isSpace p = true

theorem blank_nil : Blank [] := nofun

theorem skipSpace_append (hgap : Blank gap) (t : Text) : skipSpace (gap ++ t) = skipSpace t :=
  List.dropWhile_append_of_pos hgap

theorem skipSpace_char {c : Char} (hc : isSpace (.char c) = false) (t : Text) :
    skipSpace (.char c :: t) = .char c :: t := List.dropWhile_cons_of_neg (by simp [hc])

theorem Opens.skipSpace (h : Opens t) : skipSpace t = t := by
  obtain ⟨p, hp, hspace, -, -⟩ := h
  cases t with
  | nil => cases hp
  | cons q t =>
    cases hp
    exact List.dropWhile_cons_of_neg (by simp [hspace])

/-- White space may stand before what may follow a value. -/
theorem Follows.append (hgap : Blank gap) (h : Follows rest) : Follows (gap ++ rest) := by
  cases gap with
  | nil => exact h
  | cons p gap =>
    rintro _ ⟨⟩
    exact .inl (hgap p List.mem_cons_self)

/-! ### Scalars -/

/-- A text reads as a value: the value is taken off its front. -/
structure ReadsAs (digits depth : ℕ) (v : Value) (t : Text) : Prop where
  opens : Opens t
  read : ∀ (fuel : ℕ) {rest : Text}, 2 * t.length ≤ fuel + 1 → Follows rest →
    readValue digits depth (fuel + 1) (t ++ rest) = .ok (v, rest)

/-- What is neither a text nor a container is a word or a number. -/
theorem readValue_scalar {fuel : ℕ} {p : CodePoint} (hp : p ∉ [.char '"', .char '[', .char '\x7b'])
    (t : Text) : readValue digits depth (fuel + 1) (p :: t) = readScalar digits (p :: t) := by
  simp only [List.mem_cons, List.not_mem_nil, or_false, not_or] at hp
  rw [readValue.eq_def]
  split
  · next heq => cases heq
  · next heq =>
    split
    · next h => cases h; exact absurd rfl hp.1
    · next h => cases h; exact absurd rfl hp.2.1
    · next h => cases h; exact absurd rfl hp.2.2
    · rfl

theorem readValue_signed {fuel : ℕ} (negative : Bool) {cs : List Char} (hcs : StartsWithDigit cs)
    (rest : Text) :
    readValue digits depth (fuel + 1) ((Layout.signed negative cs).map CodePoint.char ++ rest)
      = readScalar digits ((Layout.signed negative cs).map CodePoint.char ++ rest) := by
  obtain ⟨c, cs, rfl, hc⟩ := hcs
  cases negative with
  | false =>
    refine readValue_scalar (fun hmem => ?_) _
    simp only [List.mem_cons, List.not_mem_nil, or_false, CodePoint.char.injEq] at hmem
    rcases hmem with rfl | rfl | rfl <;> cases hc
  | true => exact readValue_scalar (by decide) _

/-- No word goes on as another one does. -/
theorem readScalar_word (digits : ℕ) {word : String} (h : (word, v) ∈ words) (rest : Text) :
    readScalar digits (Text.ofString word ++ rest) = .ok (v, rest) := by
  simp only [words, List.mem_cons, Prod.mk.injEq, List.not_mem_nil, or_false] at h
  rcases h with ⟨rfl, rfl⟩ | ⟨rfl, rfl⟩ | ⟨rfl, rfl⟩ | ⟨rfl, rfl⟩ | ⟨rfl, rfl⟩ | ⟨rfl, rfl⟩ <;>
    simp [readScalar, words, after?, Text.ofString]

theorem readsAs_word {word : String} (h : (word, v) ∈ words) : ReadsAs digits depth v (Text.ofString word) := by
  obtain ⟨c, cs, hword, hc, hopens⟩ : ∃ c cs, word.toList = c :: cs ∧
      CodePoint.char c ∉ [.char '"', .char '[', .char '\x7b'] ∧ ∀ t, Opens (.char c :: t) := by
    simp only [words, List.mem_cons, Prod.mk.injEq, List.not_mem_nil, or_false] at h
    rcases h with ⟨rfl, -⟩ | ⟨rfl, -⟩ | ⟨rfl, -⟩ | ⟨rfl, -⟩ | ⟨rfl, -⟩ | ⟨rfl, -⟩ <;>
      exact ⟨_, _, rfl, by decide, opens_char (by decide)⟩
  have hchars : Text.ofString word = .char c :: cs.map CodePoint.char := by
    rw [Text.ofString, hword, List.map_cons]
  refine ⟨hchars ▸ hopens _, fun fuel {rest} _ _ => ?_⟩
  have hread := readScalar_word digits h rest
  rw [hchars, List.cons_append] at hread ⊢
  rw [readValue_scalar hc, hread]

theorem readsAs_int {i : ℤ} (hi : (decimalDigits i.natAbs).length ≤ digits) :
    ReadsAs digits depth (.int i) (Text.ofInt i) := by
  have hdigits := startsWithDigit_decimalDigits i.natAbs
  refine ⟨ofInt_eq_signed i ▸ opens_signed _ hdigits, fun fuel {rest} _ hrest => ?_⟩
  have hread := readScalar_ofInt hi hrest
  rw [ofInt_eq_signed] at hread ⊢
  rw [readValue_signed _ hdigits, hread]

theorem readsAs_finite (layout : Layout) (x : Finite64) :
    ReadsAs digits depth (.float (.finite x)) (layout.finite x) := by
  have hdigits := startsWithDigit_magnitude layout x.magnitude
  refine ⟨opens_signed _ hdigits, fun fuel {rest} _ hrest => ?_⟩
  exact (readValue_signed _ hdigits _).trans (readScalar_finite layout x hrest)

variable {plain : CodePoint → Bool} {key : Text}

/-- A quoted text with something behind it. -/
theorem quoted_append (plain : CodePoint → Bool) (t rest : Text) :
    quoted plain t ++ rest = .char '"' :: (t.flatMap (escaped plain) ++ .char '"' :: rest) := by
  rw [quoted, List.cons_append, List.cons_append, List.append_assoc, List.singleton_append]

theorem readsAs_quoted (hplain : HidesControls plain) (ht : Unpaired plain t) :
    ReadsAs digits depth (.text t) (quoted plain t) := by
  refine ⟨opens_char (by decide) _, fun fuel {rest} _ _ => ?_⟩
  rw [quoted_append, readValue, readString_quoted_of_unpaired hplain ht, Parsed.yield, Parsed.andThen]

/-! ### Items of an array -/

/-- A text reads as some items up to the bracket that closes their array. -/
structure ItemsReadAs (digits depth : ℕ) (items : List Value) (t : Text) : Prop where
  opens : Opens t
  read : ∀ (fuel : ℕ) {gap : Text} (rest : Text), 2 * t.length ≤ fuel + 1 → Blank gap →
    readItems digits depth (fuel + 2) (t ++ (gap ++ .char ']' :: rest)) = .ok (items, rest)

theorem ReadsAs.lastItem (hv : ReadsAs digits depth v t) : ItemsReadAs digits depth [v] t where
  opens := hv.opens
  read fuel {gap} rest hfuel hgap := by
    have hread := hv.read fuel hfuel (Follows.append hgap (follows_bracket rest))
    rw [readItems, hread, Parsed.andThen, skipSpace_append hgap, skipSpace_char (by decide)]
    rfl

theorem ItemsReadAs.cons {items : List Value} (hv : ReadsAs digits depth v t) (hgap : Blank gap)
    (hrest : ItemsReadAs digits depth items u) :
    ItemsReadAs digits depth (v :: items) (t ++ .char ',' :: (gap ++ u)) where
  opens := hv.opens.append _
  read fuel {gap'} rest hfuel hgap' := by
    rw [List.length_append, List.length_cons, List.length_append] at hfuel
    obtain ⟨fuel, rfl⟩ : ∃ n, fuel = n + 1 := ⟨fuel - 1, by omega⟩
    have hread := hv.read (fuel + 1) (by omega)
      (follows_comma (gap ++ u ++ (gap' ++ .char ']' :: rest)))
    have hitems := hrest.read fuel rest (by omega) hgap'
    have hopens : Opens (u ++ (gap' ++ .char ']' :: rest)) := hrest.opens.append _
    rw [List.append_assoc, List.cons_append, readItems, hread, Parsed.andThen, skipSpace_char (by decide)]
    simp only [List.append_assoc, skipSpace_append hgap, hopens.skipSpace, hitems, Parsed.yield, Parsed.andThen]

theorem readsAs_array_nil : ReadsAs digits (depth + 1) (.array []) [.char '[', .char ']'] :=
  ⟨opens_char (by decide) _, fun _ _ _ _ => rfl⟩

theorem ItemsReadAs.array {items : List Value} (h : ItemsReadAs digits depth items t) (hgap : Blank gap)
    (hgap' : Blank gap') :
    ReadsAs digits (depth + 1) (.array items) (.char '[' :: (gap ++ (t ++ (gap' ++ [.char ']'])))) where
  opens := opens_char (by decide) _
  read fuel {rest} hfuel _ := by
    simp only [List.length_cons, List.length_append] at hfuel
    obtain ⟨fuel, rfl⟩ : ∃ n, fuel = n + 2 := ⟨fuel - 2, by omega⟩
    have hitems := h.read fuel rest (by omega) hgap'
    have hopens : Opens (t ++ (gap' ++ .char ']' :: rest)) := h.opens.append _
    have hskip : skipSpace (gap ++ (t ++ (gap' ++ [.char ']'])) ++ rest) = t ++ (gap' ++ .char ']' :: rest) := by
      simp only [List.append_assoc, skipSpace_append hgap, List.singleton_append, hopens.skipSpace]
    rw [List.cons_append, readValue, hskip]
    split
    · next hbracket =>
      obtain ⟨p, hp, -, hne, -⟩ := hopens
      rw [hbracket] at hp
      exact absurd (Option.some.inj hp).symm hne
    · rw [hitems, Parsed.yield, Parsed.andThen]

/-! ### Fields of an object -/

/-- A text reads as some fields up to the brace that closes their object. -/
structure FieldsReadAs (digits depth : ℕ) (fields : Fields) (t : Text) : Prop where
  /-- It starts with the quote of the first key. -/
  quote : ∃ t', t = .char '"' :: t'
  read : ∀ (fuel : ℕ) {gap : Text} (rest : Text), 2 * t.length ≤ fuel + 1 → Blank gap →
    readFields digits depth (fuel + 2) (t ++ (gap ++ .char '\x7d' :: rest)) = .ok (fields, rest)

/-- What is read behind the value of a field: the end of its object, or a comma and further fields. -/
def readFieldsAfter (digits depth fuel : ℕ) (field : Text × Value) (rest : Text) : Parsed (List (Text × Value)) :=
  match skipSpace rest with
  | .char '\x7d' :: rest => .ok ([field], rest)
  | .char ',' :: rest => Parsed.yield (readFields digits depth fuel (skipSpace rest)) (field :: ·)
  | rest => .error (.malformed .expectedComma rest.length)

/-- A field is its key, and its value behind the colon. -/
theorem readFields_field (fuel : ℕ) (hplain : HidesControls plain) (hkey : Unpaired plain key)
    (hgap : Blank gap) (hv : ReadsAs digits depth v t) (hfuel : 2 * t.length ≤ fuel + 1) (hrest : Follows rest) :
    readFields digits depth (fuel + 2) (quoted plain key ++ .char ':' :: (gap ++ (t ++ rest)))
      = readFieldsAfter digits depth (fuel + 1) (key, v) rest := by
  have hopens : Opens (t ++ rest) := hv.opens.append _
  rw [quoted_append, readFields, readString_quoted_of_unpaired hplain hkey, Parsed.andThen,
    skipSpace_char (by decide)]
  simp only [skipSpace_append hgap, hopens.skipSpace, hv.read fuel hfuel hrest, Parsed.andThen]
  rfl

theorem ReadsAs.lastField (hplain : HidesControls plain) (hkey : Unpaired plain key) (hgap : Blank gap)
    (hv : ReadsAs digits depth v t) :
    FieldsReadAs digits depth [(key, v)] (quoted plain key ++ .char ':' :: (gap ++ t)) where
  quote := ⟨_, quoted_append _ _ _⟩
  read fuel {gap'} rest hfuel hgap' := by
    rw [List.length_append, List.length_cons, List.length_append] at hfuel
    have hread := readFields_field fuel hplain hkey hgap hv (by omega)
      (Follows.append hgap' (follows_brace rest))
    rw [List.append_assoc, List.cons_append, List.append_assoc, hread, readFieldsAfter, skipSpace_append hgap',
      skipSpace_char (by decide)]
    rfl

theorem FieldsReadAs.cons {fields : Fields} (hplain : HidesControls plain) (hkey : Unpaired plain key)
    (hgap : Blank gap) (hv : ReadsAs digits depth v t) (hgap' : Blank gap')
    (hrest : FieldsReadAs digits depth fields u) :
    FieldsReadAs digits depth ((key, v) :: fields)
      (quoted plain key ++ .char ':' :: (gap ++ (t ++ .char ',' :: (gap' ++ u)))) where
  quote := ⟨_, quoted_append _ _ _⟩
  read fuel {last} rest hfuel hlast := by
    simp only [List.length_append, List.length_cons] at hfuel
    obtain ⟨fuel, rfl⟩ : ∃ n, fuel = n + 1 := ⟨fuel - 1, by omega⟩
    have hread := readFields_field (fuel + 1) hplain hkey hgap hv (by omega)
      (follows_comma (gap' ++ (u ++ (last ++ .char '\x7d' :: rest))))
    have hfields := hrest.read fuel rest (by omega) hlast
    obtain ⟨u, rfl⟩ := hrest.quote
    have hskip : skipSpace (gap' ++ (.char '"' :: u ++ (last ++ .char '\x7d' :: rest)))
        = .char '"' :: u ++ (last ++ .char '\x7d' :: rest) := by
      rw [skipSpace_append hgap', List.cons_append, skipSpace_char (by decide)]
    simp only [List.append_assoc, List.cons_append] at hread hfields hskip ⊢
    rw [hread, readFieldsAfter, skipSpace_char (by decide)]
    simp only [hskip, hfields, Parsed.yield, Parsed.andThen]

/-- An object with a field is the fields behind its brace. -/
theorem readValue_brace {fuel : ℕ} (ht : skipSpace t = .char '"' :: u) :
    readValue digits (depth + 1) (fuel + 1) (.char '\x7b' :: t)
      = (readFields digits depth fuel (.char '"' :: u)).yield fun fields => .object (Fields.ofList fields) := by
  rw [readValue, ht]
  rfl

theorem readsAs_object_nil : ReadsAs digits (depth + 1) (.object []) [.char '\x7b', .char '\x7d'] :=
  ⟨opens_char (by decide) _, fun _ _ _ _ => rfl⟩

theorem FieldsReadAs.object {fields : Fields} (h : FieldsReadAs digits depth fields t) (hgap : Blank gap)
    (hgap' : Blank gap') :
    ReadsAs digits (depth + 1) (.object (Fields.ofList fields))
      (.char '\x7b' :: (gap ++ (t ++ (gap' ++ [.char '\x7d'])))) where
  opens := opens_char (by decide) _
  read fuel {rest} hfuel _ := by
    simp only [List.length_cons, List.length_append] at hfuel
    obtain ⟨fuel, rfl⟩ : ∃ n, fuel = n + 2 := ⟨fuel - 2, by omega⟩
    have hfields := h.read fuel rest (by omega) hgap'
    obtain ⟨t, rfl⟩ := h.quote
    have hskip : skipSpace (gap ++ (.char '"' :: t ++ (gap' ++ [.char '\x7d'])) ++ rest)
        = .char '"' :: (t ++ (gap' ++ .char '\x7d' :: rest)) := by
      simp only [List.append_assoc, skipSpace_append hgap, List.cons_append]
      exact skipSpace_char (by decide) _
    rw [List.cons_append] at hfields
    rw [List.cons_append, readValue_brace hskip, hfields, Parsed.yield, Parsed.andThen]

/-! ### Whole texts -/

/-- **A text that reads as a value is read as it** by the reader with these limits. -/
theorem readWithin_of_readsAs {limits : Limits} (h : ReadsAs limits.digits limits.depth v t) :
    readWithin limits t = .ok v := by
  have hskip := h.opens.skipSpace
  have hread := h.read (2 * t.length) (Nat.le_succ _) follows_nil
  obtain ⟨p, hp, -, -, hmark⟩ := h.opens
  have hfirst : ∀ u, t ≠ .char '\uFEFF' :: u := by
    rintro u rfl
    exact hmark (Option.some.inj hp).symm
  rw [List.append_nil] at hread
  rw [readWithin, readAll.eq_2 _ _ hfirst, hskip, hread]
  rfl

end GuiBuilder.Json
