import GuiBuilder.Number.Layout
import GuiBuilder.Number.Numeral
import GuiBuilder.Proofs.Number.Nearest
import Mathlib.Data.List.Basic

/-!
# Written numbers read back

A layout writes a magnitude as the digits of its shortest decimal, with a point or an exponent. Each
of these forms is a `WrittenNumber` and spells a decimal (`Spells`): the shortest one itself, or, where
zeros stand in for a positive power of ten, one that reads as the same magnitude. So what any layout
writes is read as the magnitude that was written (`exists_spells_magnitude`), by every reader that
takes a written number for its numeral.
-/

namespace GuiBuilder

/-- The values of decimal digits. -/
def digitValues (cs : List Char) : List ℕ := cs.map fun c => c.toNat - '0'.toNat

theorem digitsValue_digitValues (cs : List Char) :
    digitsValue (digitValues cs) = Nat.ofDigitChars 10 cs 0 := by
  rw [digitsValue, digitValues, List.foldl_map, Nat.ofDigitChars_eq_foldl]

theorem isDigit_of_mem_decimalDigits {n : ℕ} {c : Char} (h : c ∈ decimalDigits n) :
    c.isDigit = true := Nat.isDigit_of_mem_toDigits (by decide) (by decide) h

theorem decimalDigits_ne_nil (n : ℕ) : decimalDigits n ≠ [] := Nat.toDigits_ne_nil

theorem digitsValue_decimalDigits (n : ℕ) : digitsValue (digitValues (decimalDigits n)) = n := by
  rw [digitsValue_digitValues, decimalDigits, Nat.ofDigitChars_ten_toDigits]

theorem isDigit_of_mem_zero : ∀ c ∈ ['0'], c.isDigit = true := List.forall_mem_singleton.2 rfl

theorem isDigit_of_mem_replicate {k : ℕ} {c : Char} (h : c ∈ List.replicate k '0') :
    c.isDigit = true := by
  rw [List.eq_of_mem_replicate h]
  rfl

/-- A written exponent is a sign and digits for its size. -/
theorem exists_exponentDigits (width : ℕ) (e : ℤ) :
    ∃ ds, exponentDigits width e = (if e < 0 then '-' else '+') :: ds ∧ (∀ c ∈ ds, c.isDigit = true) ∧
      digitValues ds ≠ [] ∧ digitsValue (digitValues ds) = e.natAbs := by
  obtain ⟨zeros, hzeros⟩ : ∃ k, k = width - (decimalDigits e.natAbs).length := ⟨_, rfl⟩
  refine ⟨List.replicate zeros '0' ++ decimalDigits e.natAbs, ?_, fun c hc => ?_, ?_, ?_⟩
  · rw [hzeros, exponentDigits]
  · rw [List.mem_append] at hc
    exact hc.elim isDigit_of_mem_replicate isDigit_of_mem_decimalDigits
  · simp [digitValues, decimalDigits_ne_nil]
  · rw [digitsValue_digitValues, Nat.ofDigitChars_append, Nat.ofDigitChars_replicate_zero,
      Nat.mul_zero, decimalDigits, Nat.ofDigitChars_ten_toDigits]

namespace Text

/-- Digits that no other digit follows are taken off whole. -/
theorem spanDigits_append {cs : List Char} (hcs : ∀ c ∈ cs, c.isDigit = true) (rest : Text)
    (hrest : ∀ p ∈ rest.head?, p.digit? = none) :
    spanDigits (cs.map CodePoint.char ++ rest) = (digitValues cs, rest) := by
  induction cs with
  | nil =>
    cases rest with
    | nil => rfl
    | cons p rest => simp [spanDigits, hrest p rfl, digitValues]
  | cons c cs ih =>
    rw [List.forall_mem_cons] at hcs
    have hc : (CodePoint.char c).digit? = some (c.toNat - '0'.toNat) := by
      rw [CodePoint.digit?, if_pos hcs.1]
    rw [List.map_cons, List.cons_append, spanDigits, hc, ih hcs.2]
    rfl

theorem spanDigits_map {cs : List Char} (hcs : ∀ c ∈ cs, c.isDigit = true) :
    spanDigits (cs.map CodePoint.char) = (digitValues cs, []) := by
  have h := spanDigits_append hcs [] (by simp)
  rwa [List.append_nil] at h

/-- A written exponent is read back. -/
theorem exponent?_exponentDigits (width : ℕ) (e : ℤ) :
    exponent? (('e' :: exponentDigits width e).map CodePoint.char) = some e := by
  obtain ⟨ds, hwritten, hdigits, hne, hvalue⟩ := exists_exponentDigits width e
  obtain ⟨v, vs, hvs⟩ := List.exists_cons_of_ne_nil hne
  have hspan := spanDigits_map hdigits
  rw [hvs] at hspan hvalue
  have hmark : lowerAscii [.char 'e'] = [.char 'e'] := rfl
  rw [hwritten]
  split
  · next hneg =>
    have hread : exponent? (('e' :: '-' :: ds).map CodePoint.char) = some (-(digitsValue (v :: vs) : ℤ)) := by
      simp [exponent?, hmark, spanSign, hspan]
    rw [hread, hvalue, Int.ofNat_natAbs_of_nonpos (Int.le_of_lt hneg), Int.neg_neg]
  · next hpos =>
    have hread : exponent? (('e' :: '+' :: ds).map CodePoint.char) = some (digitsValue (v :: vs) : ℤ) := by
      simp [exponent?, hmark, spanSign, hspan]
    rw [hread, hvalue, Int.natAbs_of_nonneg (Int.not_lt.1 hpos)]

end Text

namespace Numeral

theorem unsigned?_whole {negative : Bool} {t rest : Text} {whole : List ℕ}
    (hspan : Text.spanDigits t = (whole, rest)) (hwhole : whole ≠ [])
    (hpoint : rest.head? ≠ some (.char '.')) :
    unsigned? negative t = (Text.exponent? rest).map fun e => ⟨negative, whole, [], e⟩ := by
  unfold unsigned?
  rw [hspan]
  dsimp only
  split
  · next r => exact absurd rfl hpoint
  · simp [hwhole]

theorem unsigned?_point {negative : Bool} {t r rest : Text} {whole fraction : List ℕ}
    (hspan : Text.spanDigits t = (whole, .char '.' :: r)) (hrest : Text.spanDigits r = (fraction, rest))
    (hwhole : whole ≠ []) :
    unsigned? negative t = (Text.exponent? rest).map fun e => ⟨negative, whole, fraction, e⟩ := by
  simp [unsigned?, hspan, hrest, hwhole]

/-- The digits of a natural number are a numeral by themselves. -/
theorem unsigned?_ofNat (negative : Bool) (n : ℕ) :
    unsigned? negative (Text.ofNat n) = some ⟨negative, digitValues (decimalDigits n), [], 0⟩ := by
  have hspan := Text.spanDigits_map fun c => isDigit_of_mem_decimalDigits (n := n)
  have hne : digitValues (decimalDigits n) ≠ [] := by
    simp [digitValues, decimalDigits_ne_nil]
  exact unsigned?_whole hspan hne (by simp)

end Numeral

/-! ### Spelling -/

/-- A written number that is no integer, in its parts. -/
structure WrittenNumber where
  /-- The digits before the point. -/
  whole : List Char
  /-- The digits behind the point; without any there is no point. -/
  fraction : List Char
  /-- The least width of an exponent, and the exponent, where there is one. -/
  exponent : Option (ℕ × ℤ)

namespace WrittenNumber

/-- The mark of an exponent and its digits. -/
def tail (w : WrittenNumber) : List Char :=
  match w.exponent with
  | some (width, e) => 'e' :: exponentDigits width e
  | none => []

/-- The power of ten that the exponent stands for. -/
def power (w : WrittenNumber) : ℤ :=
  match w.exponent with
  | some (_, e) => e
  | none => 0

/-- The number as it stands in a text. -/
def chars (w : WrittenNumber) : List Char :=
  w.whole ++ (if w.fraction.isEmpty then [] else '.' :: w.fraction) ++ w.tail

/-- The decimal that the number is. -/
def decimal (w : WrittenNumber) : Decimal :=
  ⟨Nat.ofDigitChars 10 (w.whole ++ w.fraction) 0, w.power - w.fraction.length⟩

/-- The number as a numeral under a sign. -/
def numeral (w : WrittenNumber) (negative : Bool) : Numeral :=
  ⟨negative, digitValues w.whole, digitValues w.fraction, w.power⟩

theorem decimal_numeral (w : WrittenNumber) (negative : Bool) :
    (w.numeral negative).decimal = w.decimal := by
  rw [numeral, Numeral.decimal, digitValues, digitValues, ← List.map_append, List.length_map]
  exact congrArg (Decimal.mk · _) (digitsValue_digitValues (w.whole ++ w.fraction))

/-- The parts are digits, none of them an idle zero at the front, and there is a point or an
exponent. -/
structure Proper (w : WrittenNumber) : Prop where
  isDigit_whole : ∀ c ∈ w.whole, c.isDigit = true
  whole_ne_nil : w.whole ≠ []
  eq_zero_of_head : w.whole.head? = some '0' → w.whole = ['0']
  isDigit_fraction : ∀ c ∈ w.fraction, c.isDigit = true
  not_integer : w.fraction ≠ [] ∨ w.exponent ≠ none

theorem exponent?_tail (w : WrittenNumber) :
    Text.exponent? (w.tail.map CodePoint.char) = some w.power := by
  unfold tail power
  cases w.exponent with
  | none => rfl
  | some exponent => exact Text.exponent?_exponentDigits exponent.1 exponent.2

/-- The exponent starts with neither a digit nor a point. -/
theorem head?_tail (w : WrittenNumber) : ∀ c ∈ w.tail.head?, c.isDigit = false ∧ c ≠ '.' := by
  unfold tail
  cases w.exponent with
  | none => simp
  | some exponent => simp

variable {w : WrittenNumber}

theorem digitValues_whole_ne_nil (hw : w.Proper) : digitValues w.whole ≠ [] := by
  simp [digitValues, hw.whole_ne_nil]

/-- A written number that fills a text is read as its numeral. -/
theorem unsigned?_chars (hw : w.Proper) (negative : Bool) :
    Numeral.unsigned? negative (w.chars.map CodePoint.char) = some (w.numeral negative) := by
  have hstop : ∀ p ∈ (w.tail.map CodePoint.char).head?, p.digit? = none := by
    intro p hp
    rw [List.head?_map, Option.mem_map] at hp
    obtain ⟨c, hc, rfl⟩ := hp
    simp [CodePoint.digit?, (w.head?_tail c hc).1]
  have hwhole := digitValues_whole_ne_nil hw
  rw [chars, List.map_append, List.map_append, List.append_assoc]
  cases hf : w.fraction with
  | nil =>
    have hpoint : (w.tail.map CodePoint.char).head? ≠ some (.char '.') := by
      intro hp
      rw [List.head?_map, Option.map_eq_some_iff] at hp
      obtain ⟨c, hc, hp⟩ := hp
      exact (w.head?_tail c hc).2 (CodePoint.char.inj hp)
    rw [List.isEmpty_nil, if_pos rfl, List.map_nil, List.nil_append,
      Numeral.unsigned?_whole (Text.spanDigits_append hw.isDigit_whole _ hstop) hwhole hpoint,
      exponent?_tail, numeral, hf]
    rfl
  | cons c fs =>
    have hspan := Text.spanDigits_append hw.isDigit_whole
      (.char '.' :: ((c :: fs).map CodePoint.char ++ w.tail.map CodePoint.char)) (by simp [CodePoint.digit?])
    have hfs : ∀ c' ∈ c :: fs, c'.isDigit = true := hf ▸ hw.isDigit_fraction
    rw [List.isEmpty_cons, if_neg Bool.false_ne_true, List.map_cons, List.cons_append,
      Numeral.unsigned?_point hspan (Text.spanDigits_append hfs _ hstop) hwhole, exponent?_tail, numeral, hf]
    rfl

end WrittenNumber

/-- Whether a text spells a decimal: it is a properly written number that is that decimal. -/
def Spells (cs : List Char) (d : Decimal) : Prop :=
  ∃ w : WrittenNumber, w.Proper ∧ w.chars = cs ∧ w.decimal = d

/-- What spells a decimal is read as a numeral for it, under either sign. -/
theorem Spells.exists_unsigned? {cs : List Char} {d : Decimal} (h : Spells cs d) (negative : Bool) :
    ∃ n : Numeral, Numeral.unsigned? negative (cs.map CodePoint.char) = some n ∧
      n.negative = negative ∧ n.decimal = d := by
  obtain ⟨w, hw, rfl, rfl⟩ := h
  exact ⟨w.numeral negative, WrittenNumber.unsigned?_chars hw negative, rfl, w.decimal_numeral negative⟩

/-- Digits with digits behind a point. -/
theorem spells_point (ws fs : List Char) (hws : ∀ c ∈ ws, c.isDigit = true) (hne : ws ≠ [])
    (hzero : ws.head? = some '0' → ws = ['0']) (hfs : ∀ c ∈ fs, c.isDigit = true) (hfne : fs ≠ []) :
    Spells (ws ++ '.' :: fs) ⟨Nat.ofDigitChars 10 (ws ++ fs) 0, -fs.length⟩ := by
  refine ⟨⟨ws, fs, none⟩, ⟨hws, hne, hzero, hfs, .inl hfne⟩, ?_, ?_⟩
  · simp [WrittenNumber.chars, WrittenNumber.tail, hfne]
  · simp [WrittenNumber.decimal, WrittenNumber.power]

/-- Only zero is written with a zero at the front. -/
theorem eq_zero_of_head?_decimalDigits {n : ℕ} (h : (decimalDigits n).head? = some '0') : n = 0 := by
  induction n using Nat.strong_induction_on with
  | _ n ih =>
    rw [decimalDigits] at h
    rcases Nat.lt_or_ge n 10 with hlt | hge
    · rw [Nat.toDigits_of_lt_base hlt, List.head?_cons, Option.some.injEq] at h
      exact Nat.digitChar_eq_zero.1 h
    · rw [Nat.toDigits_of_base_le (by decide) hge, List.head?_append_of_ne_nil _ Nat.toDigits_ne_nil] at h
      have := ih (n / 10) (by omega) h
      omega

theorem decimalDigits_zero : decimalDigits 0 = ['0'] := Nat.toDigits_zero 10

theorem head?_append_decimalDigits_ne {n : ℕ} (hn : n ≠ 0) (cs : List Char) :
    (decimalDigits n ++ cs).head? ≠ some '0' := by
  rw [List.head?_append_of_ne_nil _ (decimalDigits_ne_nil n)]
  exact fun h => hn (eq_zero_of_head?_decimalDigits h)

namespace Decimal

/-- A decimal with an exponent is written as it is. -/
theorem spells_scientific (width : ℕ) (d : Decimal) : Spells (d.scientific width) d := by
  obtain ⟨ds, hds⟩ : ∃ ds, ds = decimalDigits d.digits := ⟨_, rfl⟩
  have hdigit : ∀ c ∈ ds, c.isDigit = true := fun c hc => isDigit_of_mem_decimalDigits (hds ▸ hc)
  obtain ⟨c, fs, rfl⟩ := List.exists_cons_of_ne_nil (hds ▸ decimalDigits_ne_nil d.digits : ds ≠ [])
  rw [List.forall_mem_cons] at hdigit
  refine ⟨⟨[c], fs, some (width, d.exponent + ((c :: fs).length - 1 : ℕ))⟩, ⟨?_, ?_, ?_, hdigit.2, ?_⟩, ?_, ?_⟩
  · exact List.forall_mem_singleton.2 hdigit.1
  · exact List.cons_ne_nil _ _
  · intro hc
    rw [List.head?_cons, Option.some.injEq] at hc
    rw [hc]
  · exact .inr (Option.some_ne_none _)
  · simp [WrittenNumber.chars, WrittenNumber.tail, scientific, ← hds]
  · have hvalue : Nat.ofDigitChars 10 (c :: fs) 0 = d.digits := by
      rw [hds, decimalDigits, Nat.ofDigitChars_ten_toDigits]
    simp [WrittenNumber.decimal, WrittenNumber.power, hvalue]

/-- So is a decimal with its digits on both sides of the point, or behind it. -/
theorem spells_positional {d : Decimal} (hd : d.exponent < 0) : Spells d.positional d := by
  obtain ⟨n, e⟩ := d
  obtain ⟨k, rfl⟩ : ∃ k : ℕ, e = -(k : ℤ) := ⟨e.natAbs, by simp only at hd; omega⟩
  have hk : 0 < k := by simpa using hd
  obtain ⟨ds, hds⟩ : ∃ ds, ds = decimalDigits n := ⟨_, rfl⟩
  have hdigit : ∀ c ∈ ds, c.isDigit = true := fun c hc => isDigit_of_mem_decimalDigits (hds ▸ hc)
  have hvalue : Nat.ofDigitChars 10 ds 0 = n := by
    rw [hds, decimalDigits, Nat.ofDigitChars_ten_toDigits]
  have hpos : 0 < ds.length := List.length_pos_iff.2 (hds ▸ decimalDigits_ne_nil n)
  simp only [positional, ← hds]
  rw [if_neg (by omega), Int.neg_neg, Int.toNat_natCast]
  split
  · next hlt =>
    have hzero : (ds.take (ds.length - k)).head? = some '0' → ds.take (ds.length - k) = ['0'] := by
      intro h
      -- a zero has a single digit, so none of its digits stands before the point
      rw [List.head?_take, if_neg (by omega), hds] at h
      rw [hds, eq_zero_of_head?_decimalDigits h, decimalDigits_zero, List.length_singleton] at hlt
      omega
    have h := spells_point (ds.take (ds.length - k)) (ds.drop (ds.length - k))
      (fun c hc => hdigit c (List.mem_of_mem_take hc)) (List.ne_nil_of_length_pos (by simp; omega)) hzero
      (fun c hc => hdigit c (List.mem_of_mem_drop hc)) (List.ne_nil_of_length_pos (by simp; omega))
    rw [List.take_append_drop, hvalue, List.length_drop, Nat.sub_sub_self (Nat.le_of_lt hlt)] at h
    exact h
  · next hge =>
    have h := spells_point ['0'] (List.replicate (k - ds.length) '0' ++ ds) isDigit_of_mem_zero
      (List.cons_ne_nil _ _) (fun _ => rfl)
      (fun c hc => (List.mem_append.1 hc).elim isDigit_of_mem_replicate (hdigit c))
      (List.ne_nil_of_length_pos (by simp; omega))
    rw [← List.append_assoc, Nat.ofDigitChars_append, ← List.replicate_one, List.replicate_append_replicate,
      Nat.ofDigitChars_replicate_zero, Nat.mul_zero, hvalue, List.length_append, List.length_replicate,
      Nat.sub_add_cancel (by omega)] at h
    exact h

/-- Zeros stand in for a positive power of ten, and one more stands behind the point. -/
theorem spells_positional_zeros {n : ℕ} (hn : n ≠ 0) (k : ℕ) :
    Spells (positional ⟨n, k⟩) ⟨n * 10 ^ (k + 1), -1⟩ := by
  have h := spells_point (decimalDigits n ++ List.replicate k '0') ['0']
    (fun c hc => (List.mem_append.1 hc).elim isDigit_of_mem_decimalDigits isDigit_of_mem_replicate)
    (by simp [decimalDigits_ne_nil]) (fun h => absurd h (head?_append_decimalDigits_ne hn _))
    isDigit_of_mem_zero (List.cons_ne_nil _ _)
  have hzeros : decimalDigits n ++ List.replicate k '0' ++ ['0']
      = decimalDigits n ++ List.replicate (k + 1) '0' := by
    rw [List.append_assoc, ← List.replicate_succ']
  rw [hzeros, Nat.ofDigitChars_append, Nat.ofDigitChars_replicate_zero, decimalDigits,
    Nat.ofDigitChars_ten_toDigits, Nat.mul_comm] at h
  simp only [positional]
  rw [if_pos (Int.natCast_nonneg k), Int.toNat_natCast, List.append_assoc]
  rw [List.append_assoc] at h
  exact h

end Decimal

/-- **Whatever a layout writes is read as the magnitude that was written.** -/
theorem exists_spells_magnitude (layout : Layout) (x : Magnitude) :
    ∃ d, Spells (layout.magnitude x) d ∧ d.toMagnitude? = some x := by
  have hread := x.toMagnitude?_shortest
  unfold Layout.magnitude
  dsimp only
  obtain ⟨⟨n, e⟩, hd⟩ : ∃ d, d = x.shortest := ⟨_, rfl⟩
  rw [← hd] at hread ⊢
  split
  · next h0 =>
    have hzero := spells_point ['0'] ['0'] isDigit_of_mem_zero (List.cons_ne_nil _ _) (fun _ => rfl)
      isDigit_of_mem_zero (List.cons_ne_nil _ _)
    refine ⟨⟨0, -1⟩, hzero, ?_⟩
    have hn : n = 0 := h0
    rw [hn, Decimal.toMagnitude?_zero] at hread
    rw [← hread]
    exact Decimal.toMagnitude?_zero _
  · next h0 =>
    split
    · next hrange =>
      rcases Int.lt_or_le e 0 with hneg | hpos
      · exact ⟨_, Decimal.spells_positional hneg, hread⟩
      · obtain ⟨k, rfl⟩ := Int.eq_ofNat_of_zero_le hpos
        refine ⟨_, Decimal.spells_positional_zeros h0 k, ?_⟩
        have hk : k ≤ 15 := by
          have := hrange.2
          simp only at this
          omega
        rw [Decimal.toMagnitude?_zeros h0 hk]
        exact hread
    · exact ⟨_, Decimal.spells_scientific _ _, hread⟩

end GuiBuilder
