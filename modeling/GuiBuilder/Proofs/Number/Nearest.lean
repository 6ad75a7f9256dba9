import GuiBuilder.Number.Decimal
import Mathlib.Tactic.Ring

/-!
# Decimals that read back

Rounding is exact where there is nothing to round: a quotient that is the value of a magnitude has
that magnitude as its nearest one (`nearest?_eq_self`). So the exact decimal of a magnitude reads
back, and with it the shortest one (`toMagnitude?_shortest`): every neighbour is tried before it is
taken. Neither multiplying both sides of a quotient by one number (`nearest?_mul_right`) nor putting
zeros behind a decimal (`toMagnitude?_zeros`) changes what is read.
-/

namespace GuiBuilder

theorem pow_two_pos (k : ℕ) : 0 < Nat.pow 2 k := Nat.two_pow_pos k

theorem pow_two_ne_zero (k : ℕ) : Nat.pow 2 k ≠ 0 := Nat.ne_of_gt (pow_two_pos k)

theorem pow_two_add (j k : ℕ) : Nat.pow 2 (j + k) = Nat.pow 2 j * Nat.pow 2 k := Nat.pow_add 2 j k

theorem divNearestEven_mul_right (q : ℕ) {d : ℕ} (hd : 0 < d) : divNearestEven (q * d) d = q := by
  simp [divNearestEven, Nat.mul_div_cancel _ hd, hd]

/-- Both sides of a quotient may be multiplied by one number. -/
theorem divNearestEven_mul_mul (n d : ℕ) {k : ℕ} (hk : 0 < k) :
    divNearestEven (n * k) (d * k) = divNearestEven n d := by
  have hr : n * k % (d * k) = n % d * k := Nat.mul_mod_mul_right k n d
  have hlt : 2 * (n % d * k) < d * k ↔ 2 * (n % d) < d := by
    rw [← Nat.mul_assoc]
    exact Nat.mul_lt_mul_right hk
  have hgt : d * k < 2 * (n % d * k) ↔ d < 2 * (n % d) := by
    rw [← Nat.mul_assoc]
    exact Nat.mul_lt_mul_right hk
  simp only [divNearestEven, Nat.mul_div_mul_right n d hk, hr, hlt, hgt]

namespace Magnitude

/-- A magnitude is determined by its mantissa and exponent. -/
theorem ofParts?_self (x : Magnitude) : ofParts? x.mantissa x.exponent = some x := by
  rw [ofParts?, dif_pos x.canonical]

theorem eq_zero_iff (x : Magnitude) : x = zero ↔ x.mantissa = 0 := by
  constructor
  · rintro rfl
    rfl
  · intro hm
    obtain ⟨m, e, h53, h2045, hlow⟩ := x
    simp only at hm
    subst hm
    have he : e = 0 := hlow.resolve_right (by decide)
    subst he
    rfl

theorem numerator_pos {x : Magnitude} (h : x ≠ zero) : 0 < x.numerator := by
  have hm : x.mantissa ≠ 0 := fun e => h ((eq_zero_iff x).2 e)
  exact Nat.mul_pos (Nat.pos_of_ne_zero hm) (Nat.pow_pos (by decide))

/-- The exponent is how far the value reaches beyond 53 bits. -/
theorem log2_numerator (x : Magnitude) : x.numerator.log2 - 52 = x.exponent := by
  obtain ⟨hlt, -, hlow⟩ := x.canonical
  rw [Nat.pow_eq] at hlt
  unfold numerator
  rw [Nat.pow_eq]
  rcases hlow with he | hm
  · rw [he, Nat.pow_zero, Nat.mul_one]
    rcases Nat.eq_zero_or_pos x.mantissa with h0 | hpos
    · rw [h0]
      rfl
    · have := (Nat.log2_lt (Nat.ne_of_gt hpos)).2 hlt
      omega
  · rw [Nat.pow_eq] at hm
    have hpos : 0 < x.mantissa := lt_of_lt_of_le (Nat.two_pow_pos 52) hm
    have hne : x.mantissa * 2 ^ x.exponent ≠ 0 :=
      Nat.mul_ne_zero (Nat.ne_of_gt hpos) (Nat.ne_of_gt (Nat.two_pow_pos _))
    have hlo : 52 + x.exponent ≤ (x.mantissa * 2 ^ x.exponent).log2 := by
      rw [Nat.le_log2 hne, Nat.pow_add]
      exact Nat.mul_le_mul_right _ hm
    have hhi : (x.mantissa * 2 ^ x.exponent).log2 < 53 + x.exponent := by
      rw [Nat.log2_lt hne, Nat.pow_add]
      exact Nat.mul_lt_mul_of_pos_right hlt (Nat.two_pow_pos _)
    omega

/-- **Rounding is exact where there is nothing to round.** -/
theorem nearest?_eq_self {x : Magnitude} {n d : ℕ} (hd : 0 < d)
    (h : n * Nat.pow 2 1074 = x.numerator * d) : nearest? n d = some x := by
  have he : (x.numerator * d / d).log2 - 52 = x.exponent := by
    rw [Nat.mul_div_cancel _ hd, log2_numerator]
  have hm : divNearestEven (x.numerator * d) (d * Nat.pow 2 x.exponent) = x.mantissa := by
    rw [numerator, Nat.mul_assoc, Nat.mul_comm (Nat.pow 2 x.exponent)]
    exact divNearestEven_mul_right _ (Nat.mul_pos hd (Nat.pow_pos (by decide)))
  simp only [nearest?, h, he, hm, ofParts?_self, Option.some_or]

theorem nearest?_mul_right (n d : ℕ) {k : ℕ} (hk : 0 < k) : nearest? (n * k) (d * k) = nearest? n d := by
  have hscale : n * k * Nat.pow 2 1074 = n * Nat.pow 2 1074 * k := Nat.mul_right_comm _ _ _
  have hdiv : n * Nat.pow 2 1074 * k / (d * k) = n * Nat.pow 2 1074 / d :=
    Nat.mul_div_mul_right _ _ hk
  have hround (e : ℕ) : divNearestEven (n * Nat.pow 2 1074 * k) (d * k * Nat.pow 2 e)
      = divNearestEven (n * Nat.pow 2 1074) (d * Nat.pow 2 e) := by
    rw [Nat.mul_right_comm d k]
    exact divNearestEven_mul_mul _ _ hk
  simp only [nearest?, hscale, hdiv, hround]

theorem numerator_of_toNat? {x : Magnitude} {n : ℕ} (h : x.toNat? = some n) :
    n * Nat.pow 2 1074 = x.numerator := by
  simp only [toNat?, Option.ite_none_right_eq_some, Option.some.injEq] at h
  obtain ⟨hmod, hn⟩ := h
  rw [← hn]
  exact Nat.div_mul_cancel (Nat.dvd_of_mod_eq_zero hmod)

theorem toNat?_eq_zero_iff {x : Magnitude} {n : ℕ} (h : x.toNat? = some n) : n = 0 ↔ x = zero := by
  have hvalue := numerator_of_toNat? h
  have hunit := pow_two_ne_zero 1074
  generalize Nat.pow 2 1074 = unit at hvalue hunit
  constructor
  · rintro rfl
    by_contra hx
    rw [Nat.zero_mul] at hvalue
    exact absurd hvalue (Nat.ne_of_lt (numerator_pos hx))
  · rintro rfl
    have h0 : n * unit = 0 := hvalue.trans (Nat.zero_mul _)
    exact (Nat.mul_eq_zero.1 h0).resolve_right hunit

end Magnitude

namespace Decimal

theorem toMagnitude?_zero (e : ℤ) : (⟨0, e⟩ : Decimal).toMagnitude? = some .zero := by
  rw [toMagnitude?, if_pos rfl]

/-- A decimal without a fraction is a quotient by one. -/
theorem toMagnitude?_of_nonneg {n k : ℕ} (hn : n ≠ 0) (hk : k ≤ 342) :
    (⟨n, k⟩ : Decimal).toMagnitude? = Magnitude.nearest? (n * Nat.pow 10 k) 1 := by
  simp only [toMagnitude?]
  rw [if_neg hn, if_pos (Int.natCast_nonneg k), if_neg (by omega), Int.toNat_natCast]

/-- A decimal with a fraction is a quotient by a power of ten, unless it is far too small. -/
theorem toMagnitude?_of_neg {n k : ℕ} (hn : n ≠ 0) (hk : 0 < k) (hbits : 3 * k < n.log2 + 1077) :
    (⟨n, -(k : ℤ)⟩ : Decimal).toMagnitude? = Magnitude.nearest? n (Nat.pow 10 k) := by
  simp only [toMagnitude?]
  rw [if_neg hn, if_neg (by omega), Int.neg_neg, Int.toNat_natCast, if_neg (by omega)]

/-- A natural number reads as the magnitude that it is. -/
theorem toMagnitude?_ofNat {x : Magnitude} {n : ℕ} (h : x.toNat? = some n) :
    (⟨n, 0⟩ : Decimal).toMagnitude? = some x := by
  rcases Nat.eq_zero_or_pos n with hn | hn
  · rw [(Magnitude.toNat?_eq_zero_iff h).1 hn, hn]
    rfl
  · refine (toMagnitude?_of_nonneg (k := 0) (Nat.ne_of_gt hn) (by decide)).trans
      (Magnitude.nearest?_eq_self Nat.one_pos ?_)
    rw [show Nat.pow 10 0 = 1 from rfl, Nat.mul_one, Nat.mul_one]
    exact Magnitude.numerator_of_toNat? h

/-- Zeros behind a decimal, of which one stands behind the point, do not change what it reads as. -/
theorem toMagnitude?_zeros {n : ℕ} (hn : n ≠ 0) {k : ℕ} (hk : k ≤ 15) :
    (⟨n * 10 ^ (k + 1), -1⟩ : Decimal).toMagnitude? = (⟨n, k⟩ : Decimal).toMagnitude? := by
  have hne : n * 10 ^ (k + 1) ≠ 0 := Nat.mul_ne_zero hn (Nat.ne_of_gt (Nat.pow_pos (by decide)))
  have hlhs := toMagnitude?_of_neg (k := 1) hne (by decide) (by omega)
  have hrhs := toMagnitude?_of_nonneg (k := k) hn (by omega)
  refine hlhs.trans (Eq.trans ?_ hrhs.symm)
  rw [Nat.pow_succ, ← Nat.mul_assoc]
  exact Magnitude.nearest?_mul_right (n * 10 ^ k) 1 (by decide)

end Decimal

namespace Magnitude

/-- The exact decimal reads back. -/
theorem toMagnitude?_exactDecimal {x : Magnitude} (hx : x.mantissa ≠ 0) :
    x.exactDecimal.toMagnitude? = some x := by
  unfold exactDecimal
  split
  · next hlt =>
    obtain ⟨k, hk⟩ : ∃ k, k = 1074 - x.exponent := ⟨_, rfl⟩
    have hexp : (x.exponent : ℤ) - 1074 = -(k : ℤ) := by omega
    have hne : x.mantissa * Nat.pow 5 k ≠ 0 :=
      Nat.mul_ne_zero hx (Nat.ne_of_gt (Nat.pow_pos (by decide)))
    -- ten to the `k` has fewer than `3 k + 1077` bits more than the digits
    have hbits : 2 * k ≤ (x.mantissa * Nat.pow 5 k).log2 := by
      rw [Nat.le_log2 hne, Nat.pow_mul, Nat.pow_eq]
      calc (2 ^ 2) ^ k ≤ 5 ^ k := Nat.pow_le_pow_left (by decide) k
        _ ≤ x.mantissa * 5 ^ k := Nat.le_mul_of_pos_left _ (Nat.pos_of_ne_zero hx)
    have h10 : Nat.pow 10 k = Nat.pow 5 k * Nat.pow 2 k := Nat.mul_pow 5 2 k
    have hsum : x.exponent + k = 1074 := by omega
    have h2 : Nat.pow 2 (x.exponent + k) = Nat.pow 2 x.exponent * Nat.pow 2 k := pow_two_add _ _
    rw [hsum] at h2
    rw [← hk, hexp, Decimal.toMagnitude?_of_neg hne (by omega) (by omega)]
    refine nearest?_eq_self (Nat.pow_pos (by decide)) ?_
    generalize Nat.pow 2 1074 = unit at h2 ⊢
    rw [numerator, h10, h2]
    ring
  · next hge =>
    have hne : x.mantissa * Nat.pow 2 (x.exponent - 1074) ≠ 0 :=
      Nat.mul_ne_zero hx (Nat.ne_of_gt (Nat.pow_pos (by decide)))
    have h2 : Nat.pow 2 x.exponent = Nat.pow 2 (x.exponent - 1074) * Nat.pow 2 1074 := by
      rw [← pow_two_add, Nat.sub_add_cancel (by omega)]
    refine (Decimal.toMagnitude?_of_nonneg (k := 0) hne (by decide)).trans
      (nearest?_eq_self Nat.one_pos ?_)
    rw [numerator, h2, show Nat.pow 10 0 = 1 from rfl, Nat.mul_one, Nat.mul_one, Nat.mul_assoc]

/-- Every neighbour is tried before it is taken. -/
theorem toMagnitude?_neighbour {x : Magnitude} {grid : ℤ} {d : Decimal}
    (h : x.neighbour? grid = some d) : d.toMagnitude? = some x := by
  simp only [neighbour?] at h
  have hd := List.find?_some h
  exact of_decide_eq_true hd

theorem toMagnitude?_findNeighbour {x : Magnitude} {tries : ℕ} {grid : ℤ} {d : Decimal}
    (h : x.findNeighbour? tries grid = some d) : d.toMagnitude? = some x := by
  induction tries generalizing grid with
  | zero => cases h
  | succ tries ih =>
    rw [findNeighbour?, Option.or_eq_some_iff] at h
    rcases h with h | ⟨-, h⟩
    · exact toMagnitude?_neighbour h
    · exact ih h

/-- **The shortest decimal reads back.** -/
theorem toMagnitude?_shortest (x : Magnitude) : x.shortest.toMagnitude? = some x := by
  unfold shortest
  split
  · next h0 =>
    rw [(eq_zero_iff x).2 h0]
    rfl
  · next hne =>
    cases hn : x.findNeighbour? 20 x.coarsestGrid with
    | none => exact toMagnitude?_exactDecimal hne
    | some d => exact toMagnitude?_findNeighbour hn

end Magnitude

end GuiBuilder
