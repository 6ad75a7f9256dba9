import GuiBuilder.Proofs.Number.Written
import GuiBuilder.Proofs.Script.Quoted
import GuiBuilder.Proofs.Text.Lines

/-!
# Reading literals

A setting of an element holds one literal: a number, a text, a list of texts or a truth value.
`readLiteral` reads it and says which of them it is; a number is kept as it is spelled, so that the
reader of a setting may take it for a binary64 value or for a natural number.
-/

namespace GuiBuilder

/-- The natural number that a numeral spells, if it is written as one. -/
def Numeral.toNat? (n : Numeral) : Option ℕ :=
  if n.negative = false ∧ n.fraction = [] ∧ n.exponent = 0 then some (digitsValue n.whole) else none

namespace Script

/-- What a literal stands for. -/
inductive Literal where
  | number (n : Numeral)
  | text (t : Text)
  | texts (ts : List Text)
  | boolean (b : Bool)
deriving DecidableEq

/-- A number, after a minus sign when it is negative. -/
def readNumber : Text → Option Numeral
  | .char '-' :: t => Numeral.unsigned? true t
  | t => Numeral.unsigned? false t

/-- The texts of a list that holds one at least, up to its closing brace. -/
def readItems (t : Text) : Option (List Text) :=
  match _h : readQuoted t with
  | some (item, [.char '}']) => some [item]
  | some (item, .char ',' :: .char ' ' :: rest) => (readItems rest).map (item :: ·)
  | _ => none
termination_by t.length
decreasing_by
  have := length_lt_of_readQuoted _h
  simp only [List.length_cons] at this
  omega

/-- The texts of a list, up to its closing brace. -/
def readTexts (t : Text) : Option (List Text) :=
  if t = [.char '}'] then some [] else readItems t

/-- The literal that a text consists of. -/
def readLiteral (t : Text) : Option Literal :=
  match readNumber t with
  | some n => some (.number n)
  | none =>
    match t with
    | .char '"' :: _ =>
      match readQuoted t with
      | some (s, []) => some (.text s)
      | _ => none
    | .char '{' :: rest => (readTexts rest).map .texts
    | t =>
      if t = boolean true then some (.boolean true)
      else if t = boolean false then some (.boolean false)
      else none

/-! ### What is written is read -/

theorem readNumber_of_unsigned? {t : Text} {n : Numeral} (h : Numeral.unsigned? false t = some n) :
    readNumber t = some n := by
  unfold readNumber
  split
  · next rest => simp [Numeral.unsigned?, Text.spanDigits, CodePoint.digit?] at h
  · exact h

theorem readLiteral_quoted (t : Text) : readLiteral (quoted t) = some (.text t) := by
  have hread : readQuoted (quoted t) = some (t, []) := by
    have h := readQuoted_append t []
    rwa [List.append_nil] at h
  have hnumber : readNumber (quoted t) = none := by
    simp [quoted, readNumber, Numeral.unsigned?, Text.spanDigits, CodePoint.digit?]
  unfold readLiteral
  rw [hnumber]
  simp only [quoted, List.cons_append] at hread ⊢
  rw [hread]

theorem readItems_last {t item : Text} (h : readQuoted t = some (item, [.char '}'])) :
    readItems t = some [item] := by
  rw [readItems]
  split <;> simp_all

theorem readItems_more {t item rest : Text}
    (h : readQuoted t = some (item, .char ',' :: .char ' ' :: rest)) :
    readItems t = (readItems rest).map (item :: ·) := by
  rw [readItems]
  split <;> simp_all

theorem readItems_join (t : Text) (ts : List Text) :
    readItems (Text.join ", " ((t :: ts).map quoted) ++ [.char '}']) = some (t :: ts) := by
  induction ts generalizing t with
  | nil => exact readItems_last (readQuoted_append t _)
  | cons u ts ih =>
    have hstep : Text.join ", " ((t :: u :: ts).map quoted) ++ [.char '}']
        = quoted t ++ (.char ',' :: .char ' ' :: (Text.join ", " ((u :: ts).map quoted) ++ [.char '}'])) := by
      simp [Text.join, Text.ofString]
    rw [hstep, readItems_more (readQuoted_append t _), ih u]
    rfl

theorem readLiteral_texts (ts : List Text) :
    readLiteral (.char '{' :: Text.join ", " (ts.map quoted) ++ [.char '}']) = some (.texts ts) := by
  have hbrace (t : Text) : readLiteral (.char '{' :: t) = (readTexts t).map .texts := by
    simp [readLiteral, readNumber, Numeral.unsigned?, Text.spanDigits, CodePoint.digit?]
  rw [List.cons_append, hbrace, readTexts]
  cases ts with
  | nil => rfl
  | cons t ts =>
    -- a list that holds a text goes on behind its brace
    have hne : Text.join ", " ((t :: ts).map quoted) ++ [.char '}'] ≠ [.char '}'] := by
      cases ts <;> simp [Text.join, quoted]
    rw [if_neg hne, readItems_join]
    rfl

theorem readLiteral_boolean (b : Bool) : readLiteral (boolean b) = some (.boolean b) := by
  cases b <;>
  simp [readLiteral, boolean, Text.ofString, readNumber, Numeral.unsigned?, Text.spanDigits, CodePoint.digit?]

theorem readLiteral_of_readNumber {t : Text} {n : Numeral} (h : readNumber t = some n) :
    readLiteral t = some (.number n) := by
  unfold readLiteral
  rw [h]

/-- A natural number is read back. -/
theorem exists_readLiteral_ofNat (n : ℕ) :
    ∃ m : Numeral, readLiteral (Text.ofNat n) = some (.number m) ∧ m.toNat? = some n := by
  refine ⟨⟨false, digitValues (decimalDigits n), [], 0⟩, ?_, ?_⟩
  · exact readLiteral_of_readNumber (readNumber_of_unsigned? (Numeral.unsigned?_ofNat false n))
  · rw [Numeral.toNat?, if_pos ⟨rfl, rfl, rfl⟩, digitsValue_decimalDigits]

theorem unsignedZero_of_ne {x : Finite64} (h : x.magnitude ≠ .zero) : x.unsignedZero = x := by
  rw [Finite64.unsignedZero, if_neg h]

theorem unsignedZero_of_unsigned (m : Magnitude) : Finite64.unsignedZero ⟨false, m⟩ = ⟨false, m⟩ := by
  by_cases hm : m = .zero
  · rw [hm]
    rfl
  · exact unsignedZero_of_ne hm

theorem ofInt_natCast (k : ℕ) : Text.ofInt (k : ℤ) = Text.ofNat k := by
  rw [Text.ofInt, if_neg (Int.not_lt.2 (Int.natCast_nonneg k)), Int.natAbs_natCast]

theorem ofInt_neg {k : ℕ} (hk : 0 < k) : Text.ofInt (-(k : ℤ)) = .char '-' :: Text.ofNat k := by
  rw [Text.ofInt, if_pos (by omega), Int.natAbs_neg, Int.natAbs_natCast]
  rfl

/-- An integral number is written as an integer and read back as the number. -/
theorem exists_readLiteral_ofInt {x : Finite64} {i : ℤ} (h : x.toInt? = some i) :
    ∃ n : Numeral, readLiteral (Text.ofInt i) = some (.number n) ∧
      n.toBinary64 = .finite x.unsignedZero := by
  obtain ⟨negative, m⟩ := x
  obtain ⟨k, hk, rfl⟩ : ∃ k : ℕ, m.toNat? = some k ∧ (if negative then -(k : ℤ) else k) = i := by
    simpa [Finite64.toInt?, Option.bind_eq_some_iff] using h
  have hzero := Magnitude.toNat?_eq_zero_iff hk
  have hvalue (sign : Bool) : (⟨sign, digitValues (decimalDigits k), [], 0⟩ : Numeral).toBinary64
      = .finite ⟨sign, m⟩ := by
    have hdecimal : (⟨sign, digitValues (decimalDigits k), [], 0⟩ : Numeral).decimal = ⟨k, 0⟩ := by
      rw [Numeral.decimal, List.append_nil, digitsValue_decimalDigits]
      rfl
    rw [Numeral.toBinary64, hdecimal, Decimal.toMagnitude?_ofNat hk]
    rfl
  have hunsigned : readLiteral (Text.ofNat k)
      = some (.number ⟨false, digitValues (decimalDigits k), [], 0⟩) :=
    readLiteral_of_readNumber (readNumber_of_unsigned? (Numeral.unsigned?_ofNat false k))
  cases negative with
  | false =>
    rw [if_neg Bool.false_ne_true, ofInt_natCast]
    refine ⟨_, hunsigned, ?_⟩
    rw [hvalue, unsignedZero_of_unsigned]
  | true =>
    rw [if_pos rfl]
    rcases Nat.eq_zero_or_pos k with rfl | hpos
    · -- the negative zero is written without its sign
      have hm : m = .zero := hzero.1 rfl
      refine ⟨_, hunsigned, ?_⟩
      rw [hvalue, hm]
      rfl
    · have hm : m ≠ .zero := fun e => absurd (hzero.2 e) (Nat.ne_of_gt hpos)
      rw [ofInt_neg hpos]
      refine ⟨_, readLiteral_of_readNumber (Numeral.unsigned?_ofNat true k), ?_⟩
      rw [hvalue, unsignedZero_of_ne hm]

/-- **A number is read back as the value that it has**, a zero as the positive one. -/
theorem exists_readLiteral_number (x : Finite64) :
    ∃ n : Numeral, readLiteral (number x) = some (.number n) ∧ n.toBinary64 = .finite x.unsignedZero := by
  unfold number
  split
  · next i hi => exact exists_readLiteral_ofInt hi
  · next hfraction =>
    obtain ⟨negative, m⟩ := x
    have hm : m ≠ .zero := by
      rintro rfl
      cases hfraction
    obtain ⟨d, hspells, hd⟩ := exists_spells_magnitude Layout.display m
    obtain ⟨n, hn, hsign, hdecimal⟩ := hspells.exists_unsigned? negative
    refine ⟨n, readLiteral_of_readNumber ?_, ?_⟩
    · cases negative with
      | false => exact readNumber_of_unsigned? hn
      | true => exact hn
    · rw [Numeral.toBinary64, hsign, hdecimal, hd, unsignedZero_of_ne hm]
      rfl

/-! ### Literals stay on their line -/

theorem lineFeed_not_mem_decimalDigits (n : ℕ) : '\n' ∉ decimalDigits n :=
  fun h => absurd (isDigit_of_mem_decimalDigits h) (by decide)

theorem lineFeed_not_mem_positional (d : Decimal) : '\n' ∉ d.positional := by
  have hdigits := lineFeed_not_mem_decimalDigits d.digits
  have htake (k : ℕ) : '\n' ∉ (decimalDigits d.digits).take k := fun h => hdigits (List.mem_of_mem_take h)
  have hdrop (k : ℕ) : '\n' ∉ (decimalDigits d.digits).drop k := fun h => hdigits (List.mem_of_mem_drop h)
  unfold Decimal.positional
  split
  · simp [hdigits]
  · dsimp only
    split
    · simp [htake, hdrop]
    · simp [hdigits]

theorem lineFeed_not_mem_scientific (width : ℕ) (d : Decimal) : '\n' ∉ d.scientific width := by
  have hdigits := lineFeed_not_mem_decimalDigits
  have htake (n k : ℕ) : '\n' ∉ (decimalDigits n).take k := fun h => hdigits n (List.mem_of_mem_take h)
  have htail (n : ℕ) : '\n' ∉ (decimalDigits n).tail := fun h => hdigits n (List.mem_of_mem_tail h)
  have hexponent (e : ℤ) : '\n' ∉ exponentDigits width e := by
    unfold exponentDigits
    split <;> simp [hdigits]
  unfold Decimal.scientific
  dsimp only
  split <;> simp [htake, htail, hexponent]

theorem lineFeed_not_mem_ofNat (n : ℕ) : .char '\n' ∉ Text.ofNat n := by
  simpa [Text.ofNat, decimalDigits] using lineFeed_not_mem_decimalDigits n

theorem lineFeed_not_mem_number (x : Finite64) : .char '\n' ∉ number x := by
  unfold number
  split
  · next i _ =>
    unfold Text.ofInt
    split <;> simp [Text.ofString, lineFeed_not_mem_ofNat]
  · have hmagnitude : '\n' ∉ Layout.display.magnitude x.magnitude := by
      unfold Layout.magnitude
      dsimp only
      split
      · decide
      · split
        · exact lineFeed_not_mem_positional _
        · exact lineFeed_not_mem_scientific _ _
    unfold Layout.finite Layout.signed
    split <;> simp [hmagnitude]

theorem lineFeed_not_mem_texts (ts : List Text) : .char '\n' ∉ Text.join ", " (ts.map quoted) := by
  refine Text.not_mem_join (by simp [Text.ofString]) fun t ht => ?_
  obtain ⟨s, -, rfl⟩ := List.mem_map.1 ht
  exact lineFeed_not_mem_quoted s

end Script

end GuiBuilder
