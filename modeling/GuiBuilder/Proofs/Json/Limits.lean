import GuiBuilder.Proofs.Json.ReadBack

/-!
# What the limits of a reader refuse

A text that is refused for its size is to blame for it. Where an integer is oversized, its digits stand in
a row in the text, and they are more than the reader takes (`Json.hasDigits_of_readWithin`); where
containers are nested too deeply, the text opens more of them than the reader takes
(`Json.depth_lt_of_readWithin`). Any other text is read, or refused for its form. An integer with more
digits than the reader takes is indeed refused (`Json.readWithin_oversized`).

The proof follows the reader. What a part of it leaves over is a suffix of what it was given, and an error
is justified by what it was given (`Parsed.Justified`); a container takes one level of depth and opens one
container.
-/

namespace GuiBuilder

/-- Whether a code point opens a container. -/
def CodePoint.opens (p : CodePoint) : Bool := decide (p = .char '[') || decide (p = .char '{')

/-- So many digits stand in a row somewhere in a text. -/
def Text.HasDigits (n : ℕ) (t : Text) : Prop :=
  ∃ run, run <:+: t ∧ run.length = n ∧ ∀ p ∈ run, p.digit?.isSome = true

namespace Text.HasDigits

variable {m n : ℕ} {t u : Text}

theorem length_le (h : t.HasDigits n) : n ≤ t.length := by
  obtain ⟨run, hrun, rfl, -⟩ := h
  exact hrun.length_le

theorem mono (h : t.HasDigits n) (hm : m ≤ n) : t.HasDigits m := by
  obtain ⟨run, hrun, rfl, hdigits⟩ := h
  refine ⟨run.take m, (run.take_prefix m).isInfix.trans hrun, ?_, ?_⟩
  · rw [List.length_take]
    omega
  · exact fun p hp => hdigits p (List.mem_of_mem_take hp)

theorem of_isInfix (h : u.HasDigits n) (hu : u <:+: t) : t.HasDigits n := by
  obtain ⟨run, hrun, hrest⟩ := h
  exact ⟨run, hrun.trans hu, hrest⟩

end Text.HasDigits

namespace Json

/-- A text gives a reader with some limits the reason to stop. -/
def Stop.Justified (digits depth : ℕ) (t : Text) : Stop → Prop
  | malformed .. => True
  | oversizedInteger n => digits < n ∧ t.HasDigits n
  | tooDeep _ => depth < t.countP CodePoint.opens

/-- What is left over is the end of the text, or the text gives the reason to stop. -/
def Parsed.Justified {α : Type} (digits depth : ℕ) (t : Text) : Parsed α → Prop
  | .ok (_, rest) => rest <:+ t
  | .error stop => stop.Justified digits depth t

variable {α β : Type} {digits depth : ℕ} {t u : Text} {stop : Stop}

theorem Stop.Justified.of_suffix (h : stop.Justified digits depth u) (hu : u <:+ t) :
    stop.Justified digits depth t := by
  cases stop with
  | malformed cause remaining => trivial
  | oversizedInteger n =>
    exact ⟨h.1, h.2.of_isInfix hu.isInfix⟩
  | tooDeep container => exact lt_of_lt_of_le h (hu.sublist.countP_le)

/-- Inside of a container there is one level less, and one opening less. -/
theorem Stop.Justified.inside {p : CodePoint} (h : stop.Justified digits depth u) (hp : p.opens = true) :
    stop.Justified digits (depth + 1) (p :: u) := by
  cases stop with
  | malformed cause remaining => trivial
  | oversizedInteger n =>
    exact ⟨h.1, h.2.of_isInfix (List.suffix_cons p u).isInfix⟩
  | tooDeep container =>
    have hcount : (p :: u).countP CodePoint.opens = u.countP CodePoint.opens + 1 :=
      List.countP_cons_of_pos hp
    have hlt : depth < u.countP CodePoint.opens := h
    show depth + 1 < (p :: u).countP CodePoint.opens
    omega

namespace Parsed

variable {first : Parsed α} {next : α → Text → Parsed β}

theorem Justified.of_suffix (h : first.Justified digits depth u) (hu : u <:+ t) :
    first.Justified digits depth t := by
  cases first with
  | ok read => exact List.IsSuffix.trans h hu
  | error stop => exact Stop.Justified.of_suffix h hu

theorem Justified.inside {p : CodePoint} (h : first.Justified digits depth u) (hp : p.opens = true) :
    first.Justified digits (depth + 1) (p :: u) := by
  cases first with
  | ok read => exact List.IsSuffix.trans h (List.suffix_cons p u)
  | error stop => exact Stop.Justified.inside h hp

theorem Justified.andThen (h : first.Justified digits depth t)
    (hnext : ∀ a rest, (next a rest).Justified digits depth rest) :
    (first.andThen next).Justified digits depth t := by
  cases first with
  | ok read => exact (hnext read.1 read.2).of_suffix h
  | error stop => exact h

theorem Justified.yield (h : first.Justified digits depth t) (f : α → β) :
    (first.yield f).Justified digits depth t :=
  h.andThen fun _ rest => List.suffix_refl rest

end Parsed

/-! ### Strings -/

theorem skipSpace_suffix (t : Text) : skipSpace t <:+ t := List.dropWhile_suffix _

theorem readPieces_justified (opening : ℕ) (t : Text) :
    (readPieces opening t).Justified digits depth t := by
  have hmore {u v : Text} {piece : Piece} (h : (readPieces opening u).Justified digits depth u)
      (hu : u <:+ v) : ((readPieces opening u).yield (piece :: ·)).Justified digits depth v :=
    (h.yield _).of_suffix hu
  -- the cases in order: the end, the closing quote, a last backslash, a unit and its malformations, an
  -- escape and one that is unknown, a control character and any other code point
  induction t using readPieces.induct with
  | case1 => rw [readPieces]; trivial
  | case2 rest => rw [readPieces]; exact List.suffix_cons _ rest
  | case3 => rw [readPieces]; trivial
  | case4 a b c d e rest n hunit ih =>
    rw [readPieces, hunit]
    exact hmore ih ⟨[.char '\\', .char 'u', a, b, c, d], rfl⟩
  | case5 a b c d e rest hunit =>
    rw [readPieces, hunit]
    trivial
  | case6 rest hshort =>
    rw [readPieces.eq_5 _ _ hshort]
    trivial
  | case7 p rest hbare hunit c hescape ih =>
    rw [readPieces.eq_6 _ _ _ hbare hunit, hescape]
    exact hmore ih ⟨[.char '\\', p], rfl⟩
  | case8 p rest hbare hunit hescape =>
    rw [readPieces.eq_6 _ _ _ hbare hunit, hescape]
    trivial
  | case9 p rest h₁ h₂ h₃ h₄ h₅ hcontrol =>
    rw [readPieces.eq_7 _ _ _ h₁ h₂ h₃ h₄ h₅, if_pos hcontrol]
    trivial
  | case10 p rest h₁ h₂ h₃ h₄ h₅ hcontrol ih =>
    rw [readPieces.eq_7 _ _ _ h₁ h₂ h₃ h₄ h₅, if_neg hcontrol]
    exact hmore ih (List.suffix_cons p rest)

theorem readString_justified (t : Text) : (readString t).Justified digits depth t :=
  (readPieces_justified _ t).yield _

/-! ### Numbers -/

/-- The digits at the front of a text stand there in a row. -/
theorem exists_spanDigits (t : Text) : ∃ run, t = run ++ t.spanDigits.2 ∧
    run.length = t.spanDigits.1.length ∧ ∀ p ∈ run, p.digit?.isSome = true := by
  induction t with
  | nil => exact ⟨[], rfl, rfl, List.forall_mem_nil _⟩
  | cons p t ih =>
    cases hp : p.digit? with
    | none => exact ⟨[], by simp [Text.spanDigits, hp]⟩
    | some d =>
      obtain ⟨run, ht, hlength, hdigits⟩ := ih
      refine ⟨p :: run, ?_, ?_, List.forall_mem_cons.2 ⟨by simp [hp], hdigits⟩⟩
      · simp only [Text.spanDigits, hp, List.cons_append, ← ht]
      · simp only [Text.spanDigits, hp, List.length_cons, hlength]

theorem spanDigits_suffix (t : Text) : t.spanDigits.2 <:+ t := by
  obtain ⟨run, ht, -⟩ := exists_spanDigits t
  exact ⟨run, ht.symm⟩

/-- The digits before the point are the first one or all at the front of the text. -/
theorem exists_spanWhole (t : Text) : ∃ run, t = run ++ (spanWhole t).2 ∧
    run.length = (spanWhole t).1.length ∧ ∀ p ∈ run, p.digit?.isSome = true := by
  obtain ⟨run, ht, hlength, hdigits⟩ := exists_spanDigits t
  unfold spanWhole
  split
  · next more rest hspan =>
    rw [hspan] at hlength
    obtain ⟨p, run, rfl⟩ := List.exists_cons_of_length_eq_add_one hlength
    refine ⟨[p], ?_, rfl, List.forall_mem_singleton.2 (hdigits p List.mem_cons_self)⟩
    rw [ht]
    rfl
  · exact ⟨run, ht, hlength, hdigits⟩

theorem spanFraction_suffix (t : Text) : (spanFraction t).2 <:+ t := by
  unfold spanFraction
  split
  · next rest =>
    split
    · exact List.suffix_refl _
    · next fraction rest' _ hspan =>
      have hrest := spanDigits_suffix rest
      rw [hspan] at hrest
      exact hrest.trans (List.suffix_cons _ rest)
  · exact List.suffix_refl _

theorem spanSign_suffix (t : Text) : (Text.spanSign t).2 <:+ t := by
  unfold Text.spanSign
  split
  · exact List.suffix_cons _ _
  · exact List.suffix_cons _ _
  · exact List.suffix_refl _

theorem spanExponent_suffix (t : Text) : (spanExponent t).2 <:+ t := by
  unfold spanExponent
  split
  · next c rest =>
    split
    · split
      · exact List.suffix_refl _
      · next exponent after _ hspan =>
        have hafter := spanDigits_suffix (Text.spanSign rest).2
        rw [hspan] at hafter
        exact (hafter.trans (spanSign_suffix rest)).trans (List.suffix_cons _ rest)
    · exact List.suffix_refl _
  · exact List.suffix_refl _

/-- An integer is oversized for its own digits. -/
theorem readUnsigned_justified {negative : Bool} {result : Parsed Value}
    (h : readUnsigned digits negative t = some result) : result.Justified digits depth t := by
  obtain ⟨run, ht, hlength, hdigits⟩ := exists_spanWhole t
  unfold readUnsigned at h
  split at h
  · cases h
  · next whole rest _ hwhole =>
    rw [hwhole] at ht hlength
    have hafter : (spanExponent (spanFraction rest).2).2 <:+ t :=
      ((spanExponent_suffix _).trans (spanFraction_suffix rest)).trans ⟨run, ht.symm⟩
    split at h
    next fraction rest' hfraction =>
    rw [hfraction] at hafter
    split at h
    · next after hexponent =>
      rw [hexponent] at hafter
      split at h
      · split at h
        · next hover =>
          cases h
          exact ⟨hover, run, ⟨[], rest, ht.symm⟩, hlength, hdigits⟩
        · cases h
          exact hafter
      · cases h
        exact hafter
    · next e after hexponent =>
      rw [hexponent] at hafter
      cases h
      exact hafter

theorem readScalar_justified (t : Text) : (readScalar digits t).Justified digits depth t := by
  unfold readScalar
  split
  · next result hword =>
    obtain ⟨⟨word, v⟩, -, hv⟩ := List.exists_of_findSome?_eq_some hword
    obtain ⟨rest, hrest, rfl⟩ := Option.map_eq_some_iff.1 hv
    unfold after? at hrest
    dsimp only at hrest
    split at hrest
    · cases hrest
      exact List.drop_suffix _ t
    · cases hrest
  · obtain ⟨negative, u, hu, hnumber⟩ := exists_readNumber digits t
    rw [hnumber]
    cases hread : readUnsigned digits negative u with
    | none => trivial
    | some result => exact (readUnsigned_justified hread).of_suffix hu

/-! ### Values -/

section Fuel

variable {fuel : ℕ}

/-- All three functions of the reader keep to their texts with some fuel. -/
structure FuelJustified (digits fuel : ℕ) : Prop where
  value : ∀ depth t, (readValue digits depth fuel t).Justified digits depth t
  items : ∀ depth t, (readItems digits depth fuel t).Justified digits depth t
  fields : ∀ depth t, (readFields digits depth fuel t).Justified digits depth t

theorem readValue_justified (h : FuelJustified digits fuel) (depth : ℕ) (t : Text) :
    (readValue digits depth (fuel + 1) t).Justified digits depth t := by
  rw [readValue.eq_def]
  dsimp only
  split
  · next rest => exact ((readString_justified rest).yield _).of_suffix (List.suffix_cons _ rest)
  · next rest =>
    have hspace := skipSpace_suffix rest
    split
    · exact List.countP_pos_iff.2 ⟨_, List.mem_cons_self, rfl⟩
    · next depth =>
      refine Parsed.Justified.inside (Parsed.Justified.of_suffix ?_ hspace) rfl
      split
      · next rest' hclose => exact hclose ▸ List.suffix_cons _ rest'
      · exact (h.items depth _).yield _
  · next rest =>
    have hspace := skipSpace_suffix rest
    split
    · exact List.countP_pos_iff.2 ⟨_, List.mem_cons_self, rfl⟩
    · next depth =>
      refine Parsed.Justified.inside (Parsed.Justified.of_suffix ?_ hspace) rfl
      split
      · next rest' hclose => exact hclose ▸ List.suffix_cons _ rest'
      · exact (h.fields depth _).yield _
  · exact readScalar_justified t

theorem readItems_justified (h : FuelJustified digits fuel) (depth : ℕ) (t : Text) :
    (readItems digits depth (fuel + 1) t).Justified digits depth t := by
  rw [readItems]
  refine (h.value depth t).andThen fun v rest => ?_
  refine Parsed.Justified.of_suffix ?_ (skipSpace_suffix rest)
  split
  · next rest' hclose => exact hclose ▸ List.suffix_cons _ rest'
  · next rest' hcomma =>
    have hrest := (skipSpace_suffix rest').trans (List.suffix_cons (.char ',') rest')
    exact hcomma ▸ ((h.items depth _).yield _).of_suffix hrest
  · trivial

theorem readFields_justified (h : FuelJustified digits fuel) (depth : ℕ) (t : Text) :
    (readFields digits depth (fuel + 1) t).Justified digits depth t := by
  rw [readFields.eq_def]
  dsimp only
  split
  · next rest =>
    refine Parsed.Justified.of_suffix ?_ (List.suffix_cons _ rest)
    refine (readString_justified rest).andThen fun name rest => ?_
    refine Parsed.Justified.of_suffix ?_ (skipSpace_suffix rest)
    split
    · next rest' hcolon =>
      refine hcolon ▸ Parsed.Justified.of_suffix ?_
        ((skipSpace_suffix rest').trans (List.suffix_cons (.char ':') rest'))
      refine (h.value depth _).andThen fun v rest => ?_
      refine Parsed.Justified.of_suffix ?_ (skipSpace_suffix rest)
      split
      · next rest' hclose => exact hclose ▸ List.suffix_cons _ rest'
      · next rest' hcomma =>
        have hrest := (skipSpace_suffix rest').trans (List.suffix_cons (.char ',') rest')
        exact hcomma ▸ ((h.fields depth _).yield _).of_suffix hrest
      · trivial
    · trivial
  · trivial

/-- By induction on the fuel. -/
theorem fuelJustified (digits fuel : ℕ) : FuelJustified digits fuel := by
  induction fuel with
  | zero => exact ⟨fun _ _ => trivial, fun _ _ => trivial, fun _ _ => trivial⟩
  | succ fuel ih => exact ⟨readValue_justified ih, readItems_justified ih, readFields_justified ih⟩

end Fuel

/-! ### Whole texts -/

theorem readAll_justified {limits : Limits} (h : readAll limits t = .error stop) :
    stop.Justified limits.digits limits.depth t := by
  unfold readAll at h
  split at h
  · cases h
    trivial
  · split at h
    · next hread =>
      cases h
      have hvalue := (fuelJustified limits.digits (2 * t.length + 1)).value limits.depth (skipSpace t)
      rw [hread] at hvalue
      exact Stop.Justified.of_suffix hvalue (skipSpace_suffix t)
    · split at h
      · cases h
      · cases h
        trivial

/-- A text is refused for its size where the reader stopped for it. -/
theorem readAll_eq_error {limits : Limits} {e : Error} (h : readWithin limits t = .error e) :
    ∃ stop, readAll limits t = .error stop ∧
      (∀ n, e = .oversizedInteger n → stop = .oversizedInteger n) ∧
      ∀ container, e = .tooDeep container → stop = .tooDeep container := by
  unfold readWithin at h
  cases hread : readAll limits t with
  | ok v =>
    rw [hread] at h
    cases h
  | error stop =>
    rw [hread] at h
    refine ⟨stop, rfl, ?_⟩
    cases stop <;> cases h <;> simp [Error.atOffset]

/-- **An integer is refused only where the text has more digits in a row than the reader takes.** -/
theorem hasDigits_of_readWithin {limits : Limits} {n : ℕ}
    (h : readWithin limits t = .error (.oversizedInteger n)) : limits.digits < n ∧ t.HasDigits n := by
  obtain ⟨stop, hread, hstop, -⟩ := readAll_eq_error h
  obtain rfl := hstop n rfl
  exact readAll_justified hread

/-- **Containers are refused only where the text opens more of them than the reader takes.** -/
theorem depth_lt_of_readWithin {limits : Limits} {container : Container}
    (h : readWithin limits t = .error (.tooDeep container)) :
    limits.depth < t.countP CodePoint.opens := by
  obtain ⟨stop, hread, -, hstop⟩ := readAll_eq_error h
  obtain rfl := hstop container rfl
  exact readAll_justified hread

/-! ### Integers that are refused -/

section Oversized

variable {rest : Text} {ws : List Char}

theorem readUnsigned_oversized (hws : ∀ c ∈ ws, c.isDigit = true) (hzero : ws.head? ≠ some '0')
    (hlong : digits < ws.length) (hrest : Follows rest) (negative : Bool) :
    readUnsigned digits negative (ws.map CodePoint.char ++ rest)
      = some (.error (.oversizedInteger ws.length)) := by
  have hwhole := spanWhole_append hws (fun h => absurd h hzero) hrest.digit?
  have hlength : (digitValues ws).length = ws.length := by simp [digitValues]
  obtain ⟨d, ds, hds⟩ := List.exists_cons_of_ne_nil
    (show digitValues ws ≠ [] from List.ne_nil_of_length_pos (by omega))
  rw [readUnsigned, hwhole]
  rw [hds] at hlength ⊢
  simp only [hrest.spanFraction, hrest.spanExponent, List.isEmpty_nil, if_true, hlength, if_pos hlong]

theorem readScalar_oversized (hws : ∀ c ∈ ws, c.isDigit = true) (hzero : ws.head? ≠ some '0')
    (hlong : digits < ws.length) (hrest : Follows rest) :
    readScalar digits (ws.map CodePoint.char ++ rest) = .error (.oversizedInteger ws.length) := by
  have hread := readUnsigned_oversized hws hzero hlong hrest false
  cases ws with
  | nil => exact absurd hlong (Nat.not_lt_zero digits)
  | cons c cs =>
    have hc : c.isDigit = true := hws c List.mem_cons_self
    have hfirst : ∀ rest', (c :: cs).map CodePoint.char ++ rest ≠ .char '-' :: rest' := by
      intro rest' h
      obtain rfl : c = '-' := CodePoint.char.inj (List.cons.inj h).1
      cases hc
    rw [readScalar_eq_readNumber hc (.inl rfl), readNumber.eq_2 _ _ hfirst, hread, Option.getD_some]

/-- What stops the reader in the value of the first field stops it. -/
theorem readFields_eq_error {fuel : ℕ} {key : Text} (ht : Opens t)
    (hv : readValue digits depth fuel t = .error stop) :
    readFields digits depth (fuel + 1) (quoted plainText key ++ .char ':' :: t) = .error stop := by
  rw [quoted_append, readFields, readString_quoted, Parsed.andThen, skipSpace_char (by decide)]
  simp only [ht.skipSpace, hv, Parsed.andThen]

/-- **An object with an oversized integer is refused for it.** -/
theorem readWithin_oversized {limits : Limits} (key : Text) (hws : ∀ c ∈ ws, c.isDigit = true)
    (hzero : ws.head? ≠ some '0') (hlong : limits.digits < ws.length) (hdepth : 0 < limits.depth) :
    readWithin limits (.char '{' :: (quoted plainText key ++ .char ':' ::
      (ws.map CodePoint.char ++ [.char '}']))) = .error (.oversizedInteger ws.length) := by
  obtain ⟨depth, hlimit⟩ : ∃ depth, limits.depth = depth + 1 := ⟨limits.depth - 1, by omega⟩
  have hstarts : StartsWithDigit ws := by
    cases ws with
    | nil => exact absurd hlong (Nat.not_lt_zero _)
    | cons c cs => exact ⟨c, cs, rfl, hws c List.mem_cons_self⟩
  have hopens : Opens (ws.map CodePoint.char ++ [.char '}']) := (opens_signed false hstarts).append _
  have hvalue (fuel : ℕ) : readValue limits.digits depth (fuel + 1) (ws.map CodePoint.char ++ [.char '}'])
      = .error (.oversizedInteger ws.length) :=
    (readValue_signed false hstarts _).trans (readScalar_oversized hws hzero hlong (follows_brace []))
  have hfields (fuel : ℕ) : readFields limits.digits depth (fuel + 2)
      (quoted plainText key ++ .char ':' :: (ws.map CodePoint.char ++ [.char '}']))
        = .error (.oversizedInteger ws.length) := readFields_eq_error hopens (hvalue fuel)
  generalize ws.map CodePoint.char ++ [.char '}'] = t at hfields ⊢
  obtain ⟨u, hu⟩ : ∃ u, quoted plainText key ++ .char ':' :: t = .char '"' :: u :=
    ⟨_, quoted_append _ _ _⟩
  have hall : readAll limits (.char '{' :: (quoted plainText key ++ .char ':' :: t))
      = .error (.oversizedInteger ws.length) := by
    rw [hu] at hfields ⊢
    have hfuel : 2 * (.char '{' :: .char '"' :: u : Text).length + 1 = 2 * u.length + 2 + 2 + 1 := by
      simp only [List.length_cons]
      omega
    have hfirst : ∀ t, (.char '{' :: .char '"' :: u : Text) ≠ .char '\uFEFF' :: t := by
      intro t h
      cases h
    rw [readAll.eq_2 _ _ hfirst, skipSpace_char (by decide), hlimit, hfuel,
      readValue_brace (skipSpace_char (by decide) _), hfields]
    rfl
  rw [readWithin, hall]
  rfl

end Oversized

end Json

end GuiBuilder
