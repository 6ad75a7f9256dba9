import GuiBuilder.Json.Reader
import GuiBuilder.Json.Writer
import GuiBuilder.Proofs.Number.Written

/-!
# Texts and numbers in JSON are read back

What is written for a text or a number is read off the front of a text, whatever follows a text, and with
anything behind a number that may follow a value inside a container (`Follows`). A written number is read as its
numeral (`readUnsigned_written`), so a floating-point number comes back with every bit and its sign, and an
integer as long as its digits are within the limit of the reader. A text comes back where no escape of it makes a
surrogate pair with the next one (`Unpaired`). In canonical JSON that is any text, as only control characters are
escaped there; where all but ASCII is, it is a text without a first half of a pair right before a second one.
-/

namespace GuiBuilder

namespace CodePoint

variable {p : CodePoint}

theorem toNat_lt (p : CodePoint) : p.toNat < 0x110000 := by
  cases p with
  | char c =>
    have hvalid : c.toNat.isValidChar := c.valid
    show c.toNat < 0x110000
    unfold Nat.isValidChar at hvalid
    omega
  | surrogate i =>
    have hi := i.isLt
    show 0xD800 + i.val < 0x110000
    omega

/-- The first half of a surrogate pair. -/
def isHigh (p : CodePoint) : Bool := decide (0xD800 ≤ p.toNat) && decide (p.toNat < 0xDC00)

/-- The second half of a surrogate pair. -/
def isLow (p : CodePoint) : Bool := decide (0xDC00 ≤ p.toNat) && decide (p.toNat < 0xE000)

theorem isHigh_iff : p.isHigh = true ↔ 0xD800 ≤ p.toNat ∧ p.toNat < 0xDC00 := by
  simp [isHigh]

theorem isLow_iff : p.isLow = true ↔ 0xDC00 ≤ p.toNat ∧ p.toNat < 0xE000 := by
  simp [isLow]

end CodePoint

namespace Json

/-! ### Numbers -/

/-- What may follow a value: white space, a comma, the end of its container, or nothing. -/
def Follows (rest : Text) : Prop :=
  ∀ p ∈ rest.head?, isSpace p = true ∨ p = .char ',' ∨ p = .char ']' ∨ p = .char '}'

theorem follows_nil : Follows [] := nofun

theorem follows_comma (rest : Text) : Follows (.char ',' :: rest) := by
  rintro _ ⟨⟩
  exact .inr (.inl rfl)

theorem follows_bracket (rest : Text) : Follows (.char ']' :: rest) := by
  rintro _ ⟨⟩
  exact .inr (.inr (.inl rfl))

theorem follows_brace (rest : Text) : Follows (.char '}' :: rest) := by
  rintro _ ⟨⟩
  exact .inr (.inr (.inr rfl))

variable {rest : Text} {digits : ℕ}

/-- No number goes on where a value has ended. -/
theorem Follows.not_number (h : Follows rest) {p : CodePoint} (hp : p ∈ rest.head?) :
    p.digit? = none ∧ p ≠ .char '.' ∧ p ≠ .char 'e' ∧ p ≠ .char 'E' := by
  have hfirst := h p hp
  simp only [isSpace, Bool.or_eq_true, decide_eq_true_eq, or_assoc] at hfirst
  rcases hfirst with rfl | rfl | rfl | rfl | rfl | rfl | rfl <;> simp [CodePoint.digit?]

theorem Follows.digit? (h : Follows rest) : ∀ p ∈ rest.head?, p.digit? = none :=
  fun _ hp => (h.not_number hp).1

/-- No exponent starts where a value has ended. -/
theorem Follows.spanExponent (h : Follows rest) : spanExponent rest = (none, rest) := by
  cases rest with
  | nil => rfl
  | cons p rest =>
    obtain ⟨-, -, hlower, hupper⟩ := h.not_number rfl
    cases p with
    | char c =>
      have hmark : ¬ (c = 'e' ∨ c = 'E') := by
        rintro (rfl | rfl)
        · exact hlower rfl
        · exact hupper rfl
      rw [Json.spanExponent, if_neg hmark]
    | surrogate i => rfl

/-- A text that starts with neither a digit nor a point has no fraction at its front. -/
theorem spanFraction_of_ne (h : rest.head? ≠ some (.char '.')) : spanFraction rest = ([], rest) := by
  unfold spanFraction
  split
  · exact absurd rfl h
  · rfl

theorem Follows.spanFraction (h : Follows rest) : spanFraction rest = ([], rest) := by
  refine spanFraction_of_ne fun hp => ?_
  exact (h.not_number hp).2.1 rfl

theorem eq_zero_of_digitValue {c : Char} (hc : c.isDigit = true) (h : c.toNat - '0'.toNat = 0) :
    c = '0' := by
  have hle : '0'.toNat ≤ c.toNat := by
    simp only [Char.isDigit, Bool.and_eq_true, decide_eq_true_eq] at hc
    exact hc.1
  exact Char.toNat_inj.1 (by omega)

/-- Digits that do not start with an idle zero are taken off as a whole. -/
theorem spanWhole_append {ws : List Char} (hws : ∀ c ∈ ws, c.isDigit = true)
    (hzero : ws.head? = some '0' → ws = ['0']) (hrest : ∀ p ∈ rest.head?, p.digit? = none) :
    spanWhole (ws.map CodePoint.char ++ rest) = (digitValues ws, rest) := by
  have hspan := Text.spanDigits_append hws rest hrest
  unfold spanWhole
  rw [hspan]
  split
  · next values after heq =>
    obtain ⟨hvalues, rfl⟩ := Prod.mk.inj heq
    cases ws with
    | nil => cases hvalues
    | cons c ws =>
      have hc : c = '0' := by
        rw [List.forall_mem_cons] at hws
        exact eq_zero_of_digitValue hws.1 (List.cons.inj hvalues).1
      have hsingle : c :: ws = ['0'] := hzero (by rw [hc, List.head?_cons])
      rw [hsingle]
      rfl
  · rfl

theorem spanFraction_append {fs : List Char} (hfs : ∀ c ∈ fs, c.isDigit = true) (hne : fs ≠ [])
    (hrest : ∀ p ∈ rest.head?, p.digit? = none) :
    spanFraction (.char '.' :: (fs.map CodePoint.char ++ rest)) = (digitValues fs, rest) := by
  obtain ⟨d, ds, hds⟩ := List.exists_cons_of_ne_nil (show digitValues fs ≠ [] by simp [digitValues, hne])
  simp only [spanFraction, Text.spanDigits_append hfs rest hrest, hds]

theorem spanExponent_append (width : ℕ) (e : ℤ) (hrest : ∀ p ∈ rest.head?, p.digit? = none) :
    spanExponent (('e' :: exponentDigits width e).map CodePoint.char ++ rest) = (some e, rest) := by
  obtain ⟨ds, hwritten, hdigits, hne, hvalue⟩ := exists_exponentDigits width e
  obtain ⟨v, vs, hvs⟩ := List.exists_cons_of_ne_nil hne
  have hspan := Text.spanDigits_append hdigits rest hrest
  rw [hvs] at hspan hvalue
  rw [hwritten]
  split
  · next hneg =>
    have hread : spanExponent (('e' :: '-' :: ds).map CodePoint.char ++ rest)
        = (some (-(digitsValue (v :: vs) : ℤ)), rest) := by
      simp [spanExponent, Text.spanSign, hspan]
    rw [hread, hvalue, Int.ofNat_natAbs_of_nonpos (Int.le_of_lt hneg), Int.neg_neg]
  · next hpos =>
    have hread : spanExponent (('e' :: '+' :: ds).map CodePoint.char ++ rest)
        = (some (digitsValue (v :: vs) : ℤ), rest) := by
      simp [spanExponent, Text.spanSign, hspan]
    rw [hread, hvalue, Int.natAbs_of_nonneg (Int.not_lt.1 hpos)]

/-- The exponent of a written number is taken off, if there is one. -/
theorem spanExponent_tail (w : WrittenNumber) (hrest : Follows rest) :
    spanExponent (w.tail.map CodePoint.char ++ rest) = (w.exponent.map Prod.snd, rest) := by
  unfold WrittenNumber.tail
  cases w.exponent with
  | none => exact hrest.spanExponent
  | some exponent => exact spanExponent_append exponent.1 exponent.2 hrest.digit?

/-- What comes behind the digits of a written number starts with neither a digit nor a point. -/
theorem head?_tail_append (w : WrittenNumber) (hrest : Follows rest) :
    ∀ p ∈ (w.tail.map CodePoint.char ++ rest).head?, p.digit? = none ∧ p ≠ .char '.' := by
  unfold WrittenNumber.tail
  cases w.exponent with
  | none =>
    intro p hp
    obtain ⟨hdigit, hpoint, -⟩ := hrest.not_number hp
    exact ⟨hdigit, hpoint⟩
  | some exponent =>
    rintro _ ⟨⟩
    simp [CodePoint.digit?]

/-- What comes behind the whole digits is taken off as the fraction and the exponent. -/
theorem spanFraction_written {w : WrittenNumber} (hw : w.Proper) (hrest : Follows rest) :
    spanFraction ((if w.fraction.isEmpty then [] else '.' :: w.fraction).map CodePoint.char
        ++ (w.tail.map CodePoint.char ++ rest))
      = (digitValues w.fraction, w.tail.map CodePoint.char ++ rest) := by
  have hhead := head?_tail_append w hrest
  by_cases hf : w.fraction = []
  · rw [hf, List.isEmpty_nil, if_pos rfl, List.map_nil, List.nil_append]
    exact spanFraction_of_ne fun hp => (hhead _ hp).2 rfl
  · rw [if_neg (by simpa using hf), List.map_cons, List.cons_append]
    exact spanFraction_append hw.isDigit_fraction hf fun p hp => (hhead p hp).1

/-- **A written number is read as its numeral**, with what follows it left over. -/
theorem readUnsigned_written {w : WrittenNumber} (hw : w.Proper) (hrest : Follows rest) (digits : ℕ)
    (negative : Bool) :
    readUnsigned digits negative (w.chars.map CodePoint.char ++ rest)
      = some (.ok (.float (w.numeral negative).toBinary64, rest)) := by
  have hstop : ∀ p ∈ ((if w.fraction.isEmpty then [] else '.' :: w.fraction).map CodePoint.char
      ++ (w.tail.map CodePoint.char ++ rest)).head?, p.digit? = none := by
    by_cases hf : w.fraction = []
    · rw [hf, List.isEmpty_nil, if_pos rfl, List.map_nil, List.nil_append]
      exact fun p hp => (head?_tail_append w hrest p hp).1
    · rw [if_neg (by simpa using hf)]
      rintro _ ⟨⟩
      rfl
  have hwhole := spanWhole_append hw.isDigit_whole hw.eq_zero_of_head hstop
  obtain ⟨d, ds, hds⟩ := List.exists_cons_of_ne_nil (WrittenNumber.digitValues_whole_ne_nil hw)
  rw [WrittenNumber.chars, List.map_append, List.map_append, List.append_assoc, List.append_assoc,
    readUnsigned, hwhole, hds]
  simp only [spanFraction_written hw hrest, spanExponent_tail w hrest]
  have hnumeral (e : ℤ) (he : w.power = e) :
      (⟨negative, d :: ds, digitValues w.fraction, e⟩ : Numeral) = w.numeral negative := by
    rw [WrittenNumber.numeral, hds, he]
  cases hexponent : w.exponent with
  | none =>
    have hf : (digitValues w.fraction).isEmpty = false := by
      have := hw.not_integer.resolve_right (fun h => h hexponent)
      simp [digitValues, this]
    have hpower : w.power = 0 := by rw [WrittenNumber.power, hexponent]
    simp [hf, hnumeral 0 hpower]
  | some exponent =>
    have hpower : w.power = exponent.2 := by rw [WrittenNumber.power, hexponent]
    simp [hnumeral exponent.2 hpower]

/-- An integer is read back when its digits are within the limit. -/
theorem readUnsigned_ofNat {n : ℕ} (hn : (decimalDigits n).length ≤ digits) (negative : Bool)
    (hrest : Follows rest) :
    readUnsigned digits negative (Text.ofNat n ++ rest)
      = some (.ok (.int (if negative then -(n : ℤ) else n), rest)) := by
  have hzero : (decimalDigits n).head? = some '0' → decimalDigits n = ['0'] := by
    intro h
    rw [eq_zero_of_head?_decimalDigits h, decimalDigits_zero]
  have hwhole := spanWhole_append (fun c => isDigit_of_mem_decimalDigits) hzero hrest.digit?
  have hvalue := digitsValue_decimalDigits n
  have hlength : (digitValues (decimalDigits n)).length ≤ digits := by
    simpa [digitValues] using hn
  obtain ⟨d, ds, hds⟩ := List.exists_cons_of_ne_nil
    (show digitValues (decimalDigits n) ≠ [] by simp [digitValues, decimalDigits_ne_nil])
  have htext : Text.ofNat n = (decimalDigits n).map CodePoint.char := rfl
  rw [htext, readUnsigned, hwhole]
  rw [hds] at hvalue hlength ⊢
  simp only [hrest.spanFraction, hrest.spanExponent, List.isEmpty_nil, if_true, hvalue,
    if_neg (Nat.not_lt.2 hlength)]

/-! ### Words and numbers -/

/-- A text that starts with a digit, or with a minus sign and a digit, starts with no word. -/
theorem readScalar_eq_readNumber {t : Text} {c : Char} (hc : c.isDigit = true)
    (ht : t.head? = some (.char c) ∨ t.head? = some (.char '-') ∧ t.tail.head? = some (.char c))
    (digits : ℕ) : readScalar digits t = readNumber digits t := by
  have hne : ∀ letter ∈ ['n', 't', 'f', 'N', 'I'], letter ≠ c := by
    rintro letter hletter rfl
    simp only [List.mem_cons, List.not_mem_nil, or_false] at hletter
    rcases hletter with rfl | rfl | rfl | rfl | rfl <;> cases hc
  have hminus : c ≠ '-' := by
    rintro rfl
    cases hc
  simp only [List.forall_mem_cons] at hne
  have hwords : ∀ entry ∈ words, after? entry.1 t = none := by
    rcases ht with ht | ⟨ht, htail⟩
    · obtain ⟨t', rfl⟩ : ∃ t', t = .char c :: t' := by
        cases t with
        | nil => cases ht
        | cons p t' => exact ⟨t', by rw [Option.some.inj ht]⟩
      simp [words, after?, Text.ofString, hne, hminus.symm]
    · obtain ⟨t', rfl⟩ : ∃ t', t = .char '-' :: .char c :: t' := by
        cases t with
        | nil => cases ht
        | cons p t =>
          cases t with
          | nil => cases htail
          | cons q t' => exact ⟨t', by rw [Option.some.inj ht, Option.some.inj htail]⟩
      simp [words, after?, Text.ofString, hne]
  rw [readScalar, List.findSome?_eq_none_iff.2]
  rintro ⟨word, v⟩ hword
  simp only [hwords _ hword, Option.map_none]

/-- A number is an unsigned number, behind its minus sign if it has one. -/
theorem exists_readNumber (digits : ℕ) (t : Text) :
    ∃ negative u, u <:+ t ∧ readNumber digits t
      = (readUnsigned digits negative u).getD (.error (.malformed .expectedValue t.length)) := by
  unfold readNumber
  split
  · exact ⟨true, _, List.suffix_cons _ _, rfl⟩
  · exact ⟨false, _, List.suffix_refl _, rfl⟩

/-- Whether a digit stands at the front. -/
def StartsWithDigit (cs : List Char) : Prop := ∃ c cs', cs = c :: cs' ∧ c.isDigit = true

theorem startsWithDigit_decimalDigits (n : ℕ) : StartsWithDigit (decimalDigits n) := by
  obtain ⟨c, cs, hcs⟩ := List.exists_cons_of_ne_nil (decimalDigits_ne_nil n)
  exact ⟨c, cs, hcs, isDigit_of_mem_decimalDigits (hcs ▸ List.mem_cons_self)⟩

theorem startsWithDigit_chars {w : WrittenNumber} (hw : w.Proper) : StartsWithDigit w.chars := by
  obtain ⟨c, cs, hcs⟩ := List.exists_cons_of_ne_nil hw.whole_ne_nil
  have hc : c.isDigit = true := hw.isDigit_whole c (hcs ▸ List.mem_cons_self)
  exact ⟨c, _, by rw [WrittenNumber.chars, hcs, List.cons_append, List.cons_append], hc⟩

theorem startsWithDigit_magnitude (layout : Layout) (x : Magnitude) :
    StartsWithDigit (layout.magnitude x) := by
  obtain ⟨d, ⟨w, hw, hchars, -⟩, -⟩ := exists_spells_magnitude layout x
  exact hchars ▸ startsWithDigit_chars hw

/-- An integer is its digits under its sign. -/
theorem ofInt_eq_signed (i : ℤ) :
    Text.ofInt i = (Layout.signed (decide (i < 0)) (decimalDigits i.natAbs)).map CodePoint.char := by
  by_cases hneg : i < 0
  · rw [Text.ofInt, if_pos hneg, Layout.signed, if_pos (decide_eq_true hneg)]
    rfl
  · rw [Text.ofInt, if_neg hneg, Layout.signed, if_neg (by simpa using hneg)]
    rfl

/-- What is read without a sign is read with a minus sign before it or without. -/
theorem readScalar_signed {negative : Bool} {cs : List Char} {v : Value} (hcs : StartsWithDigit cs)
    (hread : readUnsigned digits negative (cs.map CodePoint.char ++ rest) = some (.ok (v, rest))) :
    readScalar digits ((Layout.signed negative cs).map CodePoint.char ++ rest) = .ok (v, rest) := by
  obtain ⟨c, cs, rfl, hc⟩ := hcs
  cases negative with
  | false =>
    have hminus : c ≠ '-' := by
      rintro rfl
      cases hc
    have hfirst : ∀ rest', (c :: cs).map CodePoint.char ++ rest ≠ .char '-' :: rest' :=
      fun rest' h => hminus (CodePoint.char.inj (List.cons.inj h).1)
    rw [Layout.signed, if_neg Bool.false_ne_true, readScalar_eq_readNumber hc (.inl rfl),
      readNumber.eq_2 _ _ hfirst, hread, Option.getD_some]
  | true =>
    rw [Layout.signed, if_pos rfl, readScalar_eq_readNumber hc (.inr ⟨rfl, rfl⟩)]
    exact congrArg (Option.getD · _) hread

/-- **A floating-point number is read back**, with its sign. -/
theorem readScalar_finite (layout : Layout) (x : Finite64) (hrest : Follows rest) :
    readScalar digits (layout.finite x ++ rest) = .ok (.float (.finite x), rest) := by
  obtain ⟨d, ⟨w, hw, hchars, hdecimal⟩, hd⟩ := exists_spells_magnitude layout x.magnitude
  have hread := readUnsigned_written hw hrest digits x.negative
  have hvalue : (w.numeral x.negative).toBinary64 = .finite x := by
    rw [Numeral.toBinary64, w.decimal_numeral, hdecimal, hd]
    rfl
  rw [hchars, hvalue] at hread
  exact readScalar_signed (startsWithDigit_magnitude layout x.magnitude) hread

/-- **An integer is read back.** -/
theorem readScalar_ofInt {i : ℤ} (hi : (decimalDigits i.natAbs).length ≤ digits) (hrest : Follows rest) :
    readScalar digits (Text.ofInt i ++ rest) = .ok (.int i, rest) := by
  have hread := readUnsigned_ofNat hi (decide (i < 0)) hrest
  have hvalue : (if decide (i < 0) then -(i.natAbs : ℤ) else i.natAbs) = i := by
    split
    · next hneg => rw [Int.ofNat_natAbs_of_nonpos (Int.le_of_lt (of_decide_eq_true hneg)), Int.neg_neg]
    · next hpos => exact Int.natAbs_of_nonneg (Int.not_lt.1 fun h => hpos (decide_eq_true h))
  rw [hvalue] at hread
  rw [ofInt_eq_signed]
  exact readScalar_signed (startsWithDigit_decimalDigits i.natAbs) hread

/-! ### Texts -/

/-- The UTF-16 unit with a number. -/
def unitOf (n : ℕ) : Piece := .unit (Fin.ofNat _ n)

/-- The pieces that a code point is read as, where `plain` says which code points need no escape. -/
def pieces (plain : CodePoint → Bool) (p : CodePoint) : List Piece :=
  if shortEscape? p = none ∧ plain p = false then (units p).map unitOf else [.plain p]

/-- All code points that need no escape may stand in a string. -/
def HidesControls (plain : CodePoint → Bool) : Prop := ∀ p, plain p = true → 0x20 ≤ p.toNat

/-- No escape of a text makes a surrogate pair with the next one. -/
def Unpaired (plain : CodePoint → Bool) (t : Text) : Prop :=
  t.IsChain fun p q => plain p = false → plain q = false → ¬ (p.isHigh = true ∧ q.isLow = true)

/-- Surrogate halves need no escape in canonical JSON. -/
theorem unpaired_plainText (t : Text) : Unpaired plainText t := by
  refine List.Pairwise.isChain (List.pairwise_of_forall fun p q hp _ hpair => ?_)
  have hcontrol : p.toNat < 0x20 := by
    simpa [plainText] using hp
  have hhigh := CodePoint.isHigh_iff.1 hpair.1
  omega

theorem hexValue?_digitChar : ∀ d : Fin 16, hexValue? (.char (Nat.digitChar d)) = some d := by
  decide

/-- Four digits spell the unit that they were written for. -/
theorem unit?_hexDigits {n : ℕ} (hn : n < 0x10000) :
    unit? (.char (hexDigit (n / 16 / 16 / 16))) (.char (hexDigit (n / 16 / 16))) (.char (hexDigit (n / 16)))
      (.char (hexDigit n)) = some (Fin.ofNat _ n) := by
  have hdigit (k : ℕ) : hexValue? (.char (hexDigit k)) = some (Fin.ofNat 16 k) :=
    hexValue?_digitChar (Fin.ofNat 16 k)
  simp only [unit?, hdigit, Fin.ofNat, Option.some.injEq, Fin.mk.injEq]
  omega

/-- The code points that have a short escape, each with the letter that is read as it. -/
theorem escape?_of_shortEscape? {p : CodePoint} {letter : Char} (h : shortEscape? p = some letter) :
    letter ≠ 'u' ∧ ∃ c, p = .char c ∧ escape? (.char letter) = some c := by
  unfold shortEscape? at h
  split at h <;> cases h
  all_goals exact ⟨by decide, _, rfl, rfl⟩

/-- The number of a UTF-16 unit. -/
theorem val_ofNat {n : ℕ} (hn : n < 0x10000) : (Fin.ofNat 0x10000 n).val = n := Nat.mod_eq_of_lt hn

theorem units_of_lt {p : CodePoint} (hp : p.toNat < 0x10000) : units p = [p.toNat] := by
  rw [units, if_pos hp]

theorem units_of_le {p : CodePoint} (hp : 0x10000 ≤ p.toNat) :
    units p = [0xD800 + (p.toNat - 0x10000) / 0x400, 0xDC00 + (p.toNat - 0x10000) % 0x400] := by
  rw [units, if_neg (Nat.not_lt.2 hp)]

theorem lt_of_mem_units {p : CodePoint} {n : ℕ} (h : n ∈ units p) : n < 0x10000 := by
  have hlt := p.toNat_lt
  by_cases hp : p.toNat < 0x10000
  · rw [units_of_lt hp, List.mem_singleton] at h
    omega
  · rw [units_of_le (Nat.not_lt.1 hp), List.mem_pair] at h
    omega

section

variable {opening : ℕ} {t : Text} {plain : CodePoint → Bool}

theorem readPieces_quote : readPieces opening (.char '"' :: rest) = .ok ([], rest) := by
  rw [readPieces]

theorem readPieces_shortEscape {p : CodePoint} {letter : Char} (h : shortEscape? p = some letter)
    (t : Text) : readPieces opening (.char '\\' :: .char letter :: t)
      = (readPieces opening t).yield (.plain p :: ·) := by
  obtain ⟨hu, c, rfl, hc⟩ := escape?_of_shortEscape? h
  rw [readPieces.eq_def]
  split
  · next heq => cases heq
  · next heq => cases heq
  · next heq => cases heq
  · next heq => cases heq; exact absurd rfl hu
  · next heq => cases heq; exact absurd rfl hu
  · next heq => cases heq; rw [hc]
  · next hescape heq => cases heq; exact (hescape _ _ rfl rfl).elim

theorem readPieces_plain {p : CodePoint} (hshort : shortEscape? p = none) (hp : 0x20 ≤ p.toNat)
    (t : Text) : readPieces opening (p :: t) = (readPieces opening t).yield (.plain p :: ·) := by
  have hquote : p ≠ .char '"' := by
    rintro rfl
    cases hshort
  have hbackslash : p ≠ .char '\\' := by
    rintro rfl
    cases hshort
  rw [readPieces.eq_7 opening p t hquote (fun h => absurd h hbackslash)
    (fun _ _ _ _ _ _ h => absurd h hbackslash) (fun _ h => absurd h hbackslash)
    (fun _ _ h => absurd h hbackslash), if_neg (Nat.not_lt.2 hp)]

/-- The digits of an escape do not end the text. -/
theorem readPieces_unitEscape {n : ℕ} (hn : n < 0x10000) {u : Text} (hu : u ≠ []) :
    readPieces opening (unitEscape n ++ u) = (readPieces opening u).yield (unitOf n :: ·) := by
  obtain ⟨q, t, rfl⟩ := List.exists_cons_of_ne_nil hu
  simp only [unitEscape, hexDigits, List.nil_append, List.cons_append, List.map_cons, List.map_nil, readPieces,
    unit?_hexDigits hn]
  rfl

theorem readPieces_unitEscapes {ns : List ℕ} (hns : ∀ n ∈ ns, n < 0x10000) {u : Text} (hu : u ≠ []) :
    readPieces opening (ns.flatMap unitEscape ++ u) = (readPieces opening u).yield (ns.map unitOf ++ ·) := by
  induction ns with
  | nil =>
    rw [List.flatMap_nil, List.nil_append]
    cases readPieces opening u <;> rfl
  | cons n ns ih =>
    rw [List.forall_mem_cons] at hns
    have hrest : ns.flatMap unitEscape ++ u ≠ [] := List.append_ne_nil_of_right_ne_nil _ hu
    rw [List.flatMap_cons, List.append_assoc, readPieces_unitEscape hns.1 hrest, ih hns.2]
    cases readPieces opening u <;> rfl

/-- An escaped code point is read as its pieces, when something follows it. -/
theorem readPieces_escaped (hplain : HidesControls plain) (p : CodePoint) {u : Text}
    (hu : u ≠ []) :
    readPieces opening (escaped plain p ++ u) = (readPieces opening u).yield (pieces plain p ++ ·) := by
  unfold escaped pieces
  cases hshort : shortEscape? p with
  | some letter => simpa using readPieces_shortEscape hshort u
  | none =>
    cases hp : plain p with
    | true => simpa [hp] using readPieces_plain hshort (hplain p hp) u
    | false => simpa [hp] using readPieces_unitEscapes (fun n => lt_of_mem_units) hu

/-- The pieces of a quoted text, up to its closing quote. -/
theorem readPieces_quoted (hplain : HidesControls plain) (t rest : Text) :
    readPieces opening (t.flatMap (escaped plain) ++ .char '"' :: rest)
      = .ok (t.flatMap (pieces plain), rest) := by
  induction t with
  | nil => exact readPieces_quote
  | cons p t ih =>
    have hrest : t.flatMap (escaped plain) ++ .char '"' :: rest ≠ [] := by simp
    rw [List.flatMap_cons, List.append_assoc, readPieces_escaped hplain p hrest, ih]
    rfl

/-! ### Pieces that are joined again -/

/-- Two units are joined exactly if they are a surrogate pair. -/
theorem ofPair?_eq_none {high low : Fin 0x10000} (h : ¬ (0xDC00 ≤ low.val ∧ low.val < 0xE000)) :
    ofPair? high low = none := if_neg (by omega)

theorem joinPieces_unit {n : Fin 0x10000} {ps : List Piece}
    (h : ∀ low, ps.head? = some (.unit low) → ofPair? n low = none) :
    joinPieces (.unit n :: ps) = ofUnit n :: joinPieces ps := by
  cases ps with
  | nil => rfl
  | cons piece ps =>
    cases piece with
    | plain p => rfl
    | unit low => simp only [joinPieces, h low rfl]

theorem ofPair?_ofNat {high low : ℕ} (hhigh : 0xD800 ≤ high ∧ high < 0xDC00)
    (hlow : 0xDC00 ≤ low ∧ low < 0xE000) :
    ofPair? (Fin.ofNat _ high) (Fin.ofNat _ low)
      = CodePoint.ofNat? (0x10000 + (high - 0xD800) * 0x400 + (low - 0xDC00)) := by
  rw [ofPair?, val_ofNat (by omega), val_ofNat (by omega), if_pos ⟨hhigh.1, hhigh.2, hlow.1, hlow.2⟩]

theorem joinPieces_cons_cons {high low : Fin 0x10000} {p : CodePoint} (h : ofPair? high low = some p)
    (ps : List Piece) : joinPieces (.unit high :: .unit low :: ps) = p :: joinPieces ps := by
  simp only [joinPieces, h]

/-- A code point beyond U+FFFF is joined from its two units. -/
theorem joinPieces_pair {p : CodePoint} (hp : 0x10000 ≤ p.toNat) (ps : List Piece) :
    joinPieces ((units p).map unitOf ++ ps) = p :: joinPieces ps := by
  have hlt := p.toNat_lt
  obtain ⟨high, hhigh⟩ : ∃ high, high = 0xD800 + (p.toNat - 0x10000) / 0x400 := ⟨_, rfl⟩
  obtain ⟨low, hlow⟩ : ∃ low, low = 0xDC00 + (p.toNat - 0x10000) % 0x400 := ⟨_, rfl⟩
  have hpair : ofPair? (Fin.ofNat _ high) (Fin.ofNat _ low) = some p := by
    have hvalue : 0x10000 + (high - 0xD800) * 0x400 + (low - 0xDC00) = p.toNat := by omega
    rw [ofPair?_ofNat (by omega) (by omega), hvalue, CodePoint.ofNat?_toNat]
  rw [units_of_le hp, ← hhigh, ← hlow]
  exact joinPieces_cons_cons hpair ps

/-- The pieces of a code point are joined to it, unless it is the first half of a pair with what follows. -/
theorem joinPieces_pieces {p : CodePoint} {ps : List Piece}
    (h : plain p = false → p.isHigh = true → ∀ low, ps.head? = some (.unit low) →
      ¬ (0xDC00 ≤ low.val ∧ low.val < 0xE000)) :
    joinPieces (pieces plain p ++ ps) = p :: joinPieces ps := by
  unfold pieces
  split
  · next hescaped =>
    by_cases hp : p.toNat < 0x10000
    · have hnone : ∀ low, ps.head? = some (.unit low) → ofPair? (Fin.ofNat _ p.toNat) low = none := by
        intro low hlow
        by_cases hhigh : p.isHigh = true
        · exact ofPair?_eq_none (h hescaped.2 hhigh low hlow)
        · rw [CodePoint.isHigh_iff] at hhigh
          rw [ofPair?, val_ofNat hp, if_neg (by omega)]
      rw [units_of_lt hp, List.map_singleton, List.singleton_append, unitOf, joinPieces_unit hnone, ofUnit,
        val_ofNat hp, CodePoint.ofNat?_toNat, Option.getD_some]
    · exact joinPieces_pair (Nat.not_lt.1 hp) ps
  · rfl

/-- The first of some pieces that is the second half of a pair is that of an escaped code point. -/
theorem isLow_of_head?_pieces {q : CodePoint} {ps : List Piece} {low : Fin 0x10000}
    (h : (pieces plain q ++ ps).head? = some (.unit low)) (hlow : 0xDC00 ≤ low.val ∧ low.val < 0xE000) :
    plain q = false ∧ q.isLow = true := by
  have hlt := q.toNat_lt
  unfold pieces at h
  split at h
  · next hescaped =>
    refine ⟨hescaped.2, CodePoint.isLow_iff.2 ?_⟩
    by_cases hq : q.toNat < 0x10000
    · rw [units_of_lt hq] at h
      cases h
      rwa [val_ofNat hq] at hlow
    · rw [units_of_le (Nat.not_lt.1 hq)] at h
      cases h
      rw [val_ofNat (by omega)] at hlow
      omega
  · cases h

theorem joinPieces_flatMap_pieces (ht : Unpaired plain t) : joinPieces (t.flatMap (pieces plain)) = t := by
  induction t with
  | nil => rfl
  | cons p t ih =>
    rw [List.flatMap_cons, joinPieces_pieces, ih ht.of_cons]
    intro hp hhigh low hhead hlow
    cases t with
    | nil => cases hhead
    | cons q t =>
      rw [List.flatMap_cons] at hhead
      obtain ⟨hq, hsecond⟩ := isLow_of_head?_pieces hhead hlow
      exact (List.isChain_cons_cons.1 ht).1 hp hq ⟨hhigh, hsecond⟩

/-- **A quoted text is read back**, if no two of its escapes make a surrogate pair. -/
theorem readString_quoted_of_unpaired (hplain : HidesControls plain) (ht : Unpaired plain t)
    (rest : Text) : readString (t.flatMap (escaped plain) ++ .char '"' :: rest) = .ok (t, rest) := by
  rw [readString, readPieces_quoted hplain, Parsed.yield, Parsed.andThen, joinPieces_flatMap_pieces ht]

/-- A text quoted in canonical JSON is read back, whatever code points it holds. -/
theorem readString_quoted (t rest : Text) :
    readString (t.flatMap (escaped plainText) ++ .char '"' :: rest) = .ok (t, rest) :=
  readString_quoted_of_unpaired (fun _ => of_decide_eq_true) (unpaired_plainText t) rest

end

end Json

end GuiBuilder
