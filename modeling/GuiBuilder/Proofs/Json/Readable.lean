import GuiBuilder.Proofs.Json.Limits
import Mathlib.Data.List.Chain

/-!
# What a reader returns

A value is `Readable` when it keeps the limits of a reader and has what every value has that was read: no
integer has more digits than the reader takes and no container lies deeper, no object has a key twice, and no
text has the first half of a surrogate pair right before a second one, as the reader joins the two. Floating-point
numbers and lone surrogate halves are not restricted. Whatever the reader returns for a text with a UTF-8 form is
readable (`Json.readable_of_readWithin`). The proof follows the reader: each part of it returns what is readable
and leaves over a text with a UTF-8 form (`Parsed.Gives`).
-/

namespace GuiBuilder

/-- No first half of a surrogate pair stands right before a second one. -/
def Text.PairFree (t : Text) : Prop := t.IsChain fun p q => ¬ (p.isHigh = true ∧ q.isLow = true)

instance (t : Text) : Decidable t.PairFree :=
  inferInstanceAs (Decidable (t.IsChain fun p q => ¬ (p.isHigh = true ∧ q.isLow = true)))

mutual

/-- Whether a reader with some limits can return a value. -/
def Value.Readable (digits : ℕ) : (depth : ℕ) → Value → Prop
  | _, .int i => (decimalDigits i.natAbs).length ≤ digits
  | _, .text t => t.PairFree
  | depth + 1, .array items => ItemsReadable digits depth items
  | depth + 1, .object fields => (fields.map Prod.fst).Nodup ∧ FieldsReadable digits depth fields
  | 0, .array _ | 0, .object _ => False
  | _, .null | _, .bool _ | _, .float _ => True

/-- Whether a reader can return all the items. -/
def ItemsReadable (digits : ℕ) : (depth : ℕ) → List Value → Prop
  | _, [] => True
  | depth, v :: items => v.Readable digits depth ∧ ItemsReadable digits depth items

/-- Whether a reader can return all the fields. -/
def FieldsReadable (digits : ℕ) : (depth : ℕ) → List (Text × Value) → Prop
  | _, [] => True
  | depth, (key, v) :: fields => (key.PairFree ∧ v.Readable digits depth) ∧ FieldsReadable digits depth fields

end

mutual

/-- Whether a value is readable can be computed. -/
def Value.decidableReadable (digits : ℕ) : (depth : ℕ) → (v : Value) → Decidable (v.Readable digits depth)
  | _, .int i => inferInstanceAs (Decidable ((decimalDigits i.natAbs).length ≤ digits))
  | _, .text t => inferInstanceAs (Decidable t.PairFree)
  | depth + 1, .array items => decidableItemsReadable digits depth items
  | depth + 1, .object fields =>
    have := decidableFieldsReadable digits depth fields
    inferInstanceAs (Decidable ((fields.map Prod.fst).Nodup ∧ FieldsReadable digits depth fields))
  | 0, .array _ | 0, .object _ => instDecidableFalse
  | _, .null | _, .bool _ | _, .float _ => instDecidableTrue

/-- Whether items are readable can be computed. -/
def decidableItemsReadable (digits : ℕ) :
    (depth : ℕ) → (items : List Value) → Decidable (ItemsReadable digits depth items)
  | _, [] => instDecidableTrue
  | depth, v :: items =>
    have := v.decidableReadable digits depth
    have := decidableItemsReadable digits depth items
    inferInstanceAs (Decidable (v.Readable digits depth ∧ ItemsReadable digits depth items))

/-- Whether fields are readable can be computed. -/
def decidableFieldsReadable (digits : ℕ) :
    (depth : ℕ) → (fields : List (Text × Value)) → Decidable (FieldsReadable digits depth fields)
  | _, [] => instDecidableTrue
  | depth, (key, v) :: fields =>
    have := v.decidableReadable digits depth
    have := decidableFieldsReadable digits depth fields
    inferInstanceAs
      (Decidable ((key.PairFree ∧ v.Readable digits depth) ∧ FieldsReadable digits depth fields))

end

instance (digits depth : ℕ) (v : Value) : Decidable (v.Readable digits depth) :=
  v.decidableReadable digits depth

section

variable {digits depth : ℕ} {key : Text} {v : Value} {items : List Value} {fields : Fields}

theorem readable_array : (Value.array items).Readable digits (depth + 1) ↔ ItemsReadable digits depth items := by
  rw [Value.Readable]

theorem readable_object : (Value.object fields).Readable digits (depth + 1)
    ↔ (fields.map Prod.fst).Nodup ∧ FieldsReadable digits depth fields := by
  rw [Value.Readable]

theorem itemsReadable_cons : ItemsReadable digits depth (v :: items)
    ↔ v.Readable digits depth ∧ ItemsReadable digits depth items := by
  rw [ItemsReadable]

theorem fieldsReadable_cons : FieldsReadable digits depth ((key, v) :: fields)
    ↔ (key.PairFree ∧ v.Readable digits depth) ∧ FieldsReadable digits depth fields := by
  rw [FieldsReadable]

end

theorem itemsReadable_iff {digits depth : ℕ} {items : List Value} :
    ItemsReadable digits depth items ↔ ∀ item ∈ items, item.Readable digits depth := by
  induction items with
  | nil => simp [ItemsReadable]
  | cons v items ih => rw [ItemsReadable, ih, List.forall_mem_cons]

theorem fieldsReadable_iff {digits depth : ℕ} {fields : Fields} :
    FieldsReadable digits depth fields
      ↔ ∀ field ∈ fields, field.1.PairFree ∧ field.2.Readable digits depth := by
  induction fields with
  | nil => simp [FieldsReadable]
  | cons field fields ih =>
    obtain ⟨key, v⟩ := field
    rw [FieldsReadable, ih, List.forall_mem_cons]

namespace CodePoint

variable {p : CodePoint}

theorem not_half_of_isChar (hp : p.isChar = true) : ¬ (0xD800 ≤ p.toNat ∧ p.toNat < 0xE000) := by
  cases p with
  | char c =>
    have hvalid : c.toNat.isValidChar := c.valid
    show ¬ (0xD800 ≤ c.toNat ∧ c.toNat < 0xE000)
    unfold Nat.isValidChar at hvalid
    omega
  | surrogate i => cases hp

theorem isHigh_eq_false (hp : p.isChar = true) : p.isHigh = false := by
  have hhalf := not_half_of_isChar hp
  rw [Bool.eq_false_iff, ne_eq, isHigh_iff]
  omega

theorem isLow_eq_false (hp : p.isChar = true) : p.isLow = false := by
  have hhalf := not_half_of_isChar hp
  rw [Bool.eq_false_iff, ne_eq, isLow_iff]
  omega

theorem exists_ofNat? {n : ℕ} (hn : n < 0x110000) : ∃ p, ofNat? n = some p ∧ p.toNat = n := by
  by_cases hvalid : n.isValidChar
  · exact ⟨_, dif_pos hvalid, rfl⟩
  · have hhalf : 0xD800 ≤ n ∧ n < 0xE000 := by
      unfold Nat.isValidChar at hvalid
      omega
    exact ⟨_, (dif_neg hvalid).trans (dif_pos hhalf), Nat.add_sub_of_le hhalf.1⟩

theorem isChar_of_ofNat? {n : ℕ} (hn : 0xE000 ≤ n) (h : ofNat? n = some p) : p.isChar = true := by
  by_cases hvalid : n.isValidChar
  · rw [ofNat?, dif_pos hvalid] at h
    cases h
    rfl
  · rw [ofNat?, dif_neg hvalid, dif_neg (by omega)] at h
    cases h

end CodePoint

namespace Json

variable {α β : Type} {digits depth : ℕ} {t : Text}

/-! ### Parts of a text that are read -/

/-- What is read has a property, and what is left over has a UTF-8 form. -/
def Parsed.Gives (P : α → Prop) : Parsed α → Prop
  | .ok (a, rest) => P a ∧ rest.Encodable
  | .error _ => True

namespace Parsed.Gives

variable {P : α → Prop} {Q : β → Prop} {first : Parsed α} {next : α → Text → Parsed β}

theorem andThen (h : first.Gives P) (hnext : ∀ a rest, P a → rest.Encodable → (next a rest).Gives Q) :
    (first.andThen next).Gives Q := by
  cases first with
  | ok read => exact hnext read.1 read.2 h.1 h.2
  | error stop => trivial

theorem yield {f : α → β} (h : first.Gives P) (hf : ∀ a, P a → Q (f a)) : (first.yield f).Gives Q :=
  h.andThen fun a _ ha hrest => ⟨hf a ha, hrest⟩

end Parsed.Gives

theorem encodable_of_suffix {u : Text} (hu : u <:+ t) (ht : t.Encodable) : u.Encodable :=
  fun p hp => ht p (hu.subset hp)

/-! ### Texts -/

/-- Whether a piece that stands for itself is a character. -/
def Piece.IsChar : Piece → Prop
  | .plain p => p.isChar = true
  | .unit _ => True

theorem readPieces_gives (opening : ℕ) (ht : t.Encodable) :
    (readPieces opening t).Gives fun ps => ∀ piece ∈ ps, piece.IsChar := by
  have hmore {u v : Text} {piece : Piece} (hv : v.Encodable) (hu : u <:+ v)
      (h : u.Encodable → (readPieces opening u).Gives fun ps => ∀ piece ∈ ps, piece.IsChar)
      (hpiece : piece.IsChar) :
      ((readPieces opening u).yield (piece :: ·)).Gives fun ps => ∀ piece ∈ ps, piece.IsChar :=
    (h (encodable_of_suffix hu hv)).yield fun ps hps => List.forall_mem_cons.2 ⟨hpiece, hps⟩
  -- the cases in order: the end, the closing quote, a last backslash, a unit and its malformations, an
  -- escape and one that is unknown, a control character and any other code point
  induction t using readPieces.induct with
  | case1 => rw [readPieces]; trivial
  | case2 rest =>
    rw [readPieces]
    exact ⟨List.forall_mem_nil _, encodable_of_suffix (List.suffix_cons _ rest) ht⟩
  | case3 => rw [readPieces]; trivial
  | case4 a b c d e rest n hunit ih =>
    rw [readPieces, hunit]
    exact hmore ht ⟨[.char '\\', .char 'u', a, b, c, d], rfl⟩ ih trivial
  | case5 a b c d e rest hunit =>
    rw [readPieces, hunit]
    trivial
  | case6 rest hshort =>
    rw [readPieces.eq_5 _ _ hshort]
    trivial
  | case7 p rest hbare hunit c hescape ih =>
    rw [readPieces.eq_6 _ _ _ hbare hunit, hescape]
    exact hmore ht ⟨[.char '\\', p], rfl⟩ ih rfl
  | case8 p rest hbare hunit hescape =>
    rw [readPieces.eq_6 _ _ _ hbare hunit, hescape]
    trivial
  | case9 p rest h₁ h₂ h₃ h₄ h₅ hcontrol =>
    rw [readPieces.eq_7 _ _ _ h₁ h₂ h₃ h₄ h₅, if_pos hcontrol]
    trivial
  | case10 p rest h₁ h₂ h₃ h₄ h₅ hcontrol ih =>
    rw [readPieces.eq_7 _ _ _ h₁ h₂ h₃ h₄ h₅, if_neg hcontrol]
    exact hmore ht (List.suffix_cons p rest) ih (ht p List.mem_cons_self)

/-- A single unit is its own code point. -/
theorem toNat_ofUnit (n : Fin 0x10000) : (ofUnit n).toNat = n.val := by
  obtain ⟨p, hp, hn⟩ := CodePoint.exists_ofNat? (n := n.val) (by omega)
  rw [ofUnit, hp, Option.getD_some, hn]

/-- Two units that are not joined are no pair. -/
theorem not_pair_of_ofPair? {high low : Fin 0x10000} (h : ofPair? high low = none) :
    ¬ ((ofUnit high).isHigh = true ∧ (ofUnit low).isLow = true) := by
  rw [CodePoint.isHigh_iff, CodePoint.isLow_iff, toNat_ofUnit, toNat_ofUnit]
  rintro ⟨hhigh, hlow⟩
  rw [ofPair?, if_pos ⟨hhigh.1, hhigh.2, hlow.1, hlow.2⟩] at h
  obtain ⟨p, hp, -⟩ := CodePoint.exists_ofNat?
    (n := 0x10000 + (high.val - 0xD800) * 0x400 + (low.val - 0xDC00)) (by omega)
  rw [hp] at h
  cases h

/-- What two units are joined to is a character. -/
theorem isChar_of_ofPair? {high low : Fin 0x10000} {p : CodePoint} (h : ofPair? high low = some p) :
    p.isChar = true := by
  unfold ofPair? at h
  split at h
  · exact CodePoint.isChar_of_ofNat? (by omega) h
  · cases h

/-- A second half at the front of some pieces that start with a unit is that unit. -/
theorem eq_ofUnit_of_head?_joinPieces {low : Fin 0x10000} {ps : List Piece} {q : CodePoint}
    (h : q ∈ (joinPieces (.unit low :: ps)).head?) (hq : q.isLow = true) : q = ofUnit low := by
  rw [joinPieces.eq_def] at h
  split at h
  · next heq => cases heq
  · next heq => cases heq
  · next heq => cases heq; exact (Option.some.inj h).symm
  · next heq => cases heq; exact (Option.some.inj h).symm
  · next heq =>
    cases heq
    split at h
    · next p hpair =>
      obtain rfl := Option.some.inj h
      rw [CodePoint.isLow_eq_false (isChar_of_ofPair? hpair)] at hq
      cases hq
    · exact (Option.some.inj h).symm

/-- **Joined pieces have no pair left in them.** -/
theorem pairFree_joinPieces {ps : List Piece} (h : ∀ piece ∈ ps, piece.IsChar) : (joinPieces ps).PairFree := by
  have hchar {p : CodePoint} {u : Text} (hp : p.isChar = true) (hu : u.PairFree) :
      Text.PairFree (p :: u) := by
    refine List.isChain_cons.2 ⟨fun q _ hpair => ?_, hu⟩
    rw [CodePoint.isHigh_eq_false hp] at hpair
    exact Bool.false_ne_true hpair.1
  induction ps using joinPieces.induct with
  | case1 => exact List.isChain_nil
  | case2 p rest ih =>
    rw [List.forall_mem_cons] at h
    exact hchar h.1 (ih h.2)
  | case3 n => exact List.isChain_singleton _
  | case4 n p rest ih =>
    rw [List.forall_mem_cons, List.forall_mem_cons] at h
    rw [joinPieces]
    refine List.isChain_cons_cons.2 ⟨fun hpair => ?_, hchar h.2.1 (ih h.2.2)⟩
    rw [CodePoint.isLow_eq_false h.2.1] at hpair
    exact Bool.false_ne_true hpair.2
  | case5 high low rest p hpair ih =>
    rw [List.forall_mem_cons, List.forall_mem_cons] at h
    rw [joinPieces_cons_cons hpair]
    exact hchar (isChar_of_ofPair? hpair) (ih h.2.2)
  | case6 high low rest hpair ih =>
    rw [List.forall_mem_cons] at h
    simp only [joinPieces, hpair]
    refine List.isChain_cons.2 ⟨fun q hq hboth => ?_, ih h.2⟩
    rw [eq_ofUnit_of_head?_joinPieces hq hboth.2] at hboth
    exact not_pair_of_ofPair? hpair hboth

theorem readString_gives (ht : t.Encodable) : (readString t).Gives Text.PairFree :=
  (readPieces_gives _ ht).yield fun _ => pairFree_joinPieces

/-! ### Numbers -/

theorem digitsValue_lt {ds : List ℕ} (h : ∀ d ∈ ds, d < 10) : digitsValue ds < 10 ^ ds.length := by
  have hfold : ∀ n, ds.foldl (fun n d => 10 * n + d) n < (n + 1) * 10 ^ ds.length := by
    induction ds with
    | nil => exact fun n => by simp
    | cons d ds ih =>
      intro n
      rw [List.forall_mem_cons] at h
      have hd : 10 * n + d + 1 ≤ (n + 1) * 10 := by omega
      calc (d :: ds).foldl (fun n d => 10 * n + d) n
          < (10 * n + d + 1) * 10 ^ ds.length := ih h.2 _
        _ ≤ (n + 1) * 10 * 10 ^ ds.length := Nat.mul_le_mul_right _ hd
        _ = (n + 1) * 10 ^ (d :: ds).length := by rw [List.length_cons, Nat.pow_succ', Nat.mul_assoc]
  simpa [digitsValue] using hfold 0

theorem spanDigits_lt (t : Text) : ∀ d ∈ t.spanDigits.1, d < 10 := by
  induction t with
  | nil => exact List.forall_mem_nil _
  | cons p t ih =>
    unfold Text.spanDigits
    split
    · next d hd =>
      refine List.forall_mem_cons.2 ⟨?_, ih⟩
      unfold CodePoint.digit? at hd
      split at hd
      · next c =>
        split at hd
        · next hdigit =>
          cases hd
          simp only [Char.isDigit, Bool.and_eq_true, decide_eq_true_eq] at hdigit
          have hle : c.toNat ≤ '9'.toNat := hdigit.2
          have hnine : '9'.toNat = '0'.toNat + 9 := rfl
          omega
        · cases hd
      · cases hd
    · exact List.forall_mem_nil _

theorem spanWhole_lt (t : Text) : ∀ d ∈ (spanWhole t).1, d < 10 := by
  unfold spanWhole
  split
  · exact List.forall_mem_singleton.2 (by decide)
  · exact spanDigits_lt t

/-- A number with few digits is an integer with few digits. -/
theorem readable_int {ds : List ℕ} (hten : ∀ d ∈ ds, d < 10) (hne : ds ≠ []) (hlength : ds.length ≤ digits)
    (negative : Bool) :
    (Value.int (if negative then -(digitsValue ds : ℤ) else digitsValue ds)).Readable digits depth := by
  have hpos : 0 < ds.length := List.length_pos_iff.2 hne
  have habs : (if negative then -(digitsValue ds : ℤ) else digitsValue ds).natAbs = digitsValue ds := by
    cases negative <;> simp
  have hshort : (decimalDigits (digitsValue ds)).length ≤ ds.length :=
    (Nat.length_toDigits_le_iff (by decide) hpos).2 (digitsValue_lt hten)
  rw [Value.Readable, habs]
  exact hshort.trans hlength

theorem readUnsigned_gives {negative : Bool} {result : Parsed Value} (ht : t.Encodable)
    (h : readUnsigned digits negative t = some result) : result.Gives (Value.Readable digits depth) := by
  have hrest : ∀ {v rest}, result = .ok (v, rest) → rest.Encodable := by
    rintro v rest rfl
    have hsuffix : Parsed.Justified digits depth t (.ok (v, rest)) := readUnsigned_justified h
    exact encodable_of_suffix hsuffix ht
  have hten := spanWhole_lt t
  unfold readUnsigned at h
  split at h
  · cases h
  · next whole after hne hwhole =>
    rw [hwhole] at hten
    split at h
    split at h
    · split at h
      · split at h
        · cases h
          trivial
        · next hshort =>
          cases h
          exact ⟨readable_int hten hne (Nat.not_lt.1 hshort) negative, hrest rfl⟩
      · cases h
        exact ⟨trivial, hrest rfl⟩
    · cases h
      exact ⟨trivial, hrest rfl⟩

theorem readScalar_gives (ht : t.Encodable) : (readScalar digits t).Gives (Value.Readable digits depth) := by
  unfold readScalar
  split
  · next result hword =>
    obtain ⟨⟨word, v⟩, hmem, hv⟩ := List.exists_of_findSome?_eq_some hword
    obtain ⟨rest, hrest, rfl⟩ := Option.map_eq_some_iff.1 hv
    refine ⟨?_, ?_⟩
    · simp only [words, List.mem_cons, Prod.mk.injEq, List.not_mem_nil, or_false] at hmem
      rcases hmem with ⟨-, rfl⟩ | ⟨-, rfl⟩ | ⟨-, rfl⟩ | ⟨-, rfl⟩ | ⟨-, rfl⟩ | ⟨-, rfl⟩ <;> trivial
    · unfold after? at hrest
      dsimp only at hrest
      split at hrest
      · cases hrest
        exact encodable_of_suffix (List.drop_suffix _ t) ht
      · cases hrest
  · obtain ⟨negative, u, hu, hnumber⟩ := exists_readNumber digits t
    rw [hnumber]
    cases hread : readUnsigned digits negative u with
    | none => trivial
    | some result => exact readUnsigned_gives (encodable_of_suffix hu ht) hread

/-! ### Values -/

/-- Fields that were read make a readable object. -/
theorem readable_ofList {fields : Fields} (h : FieldsReadable digits depth fields) :
    (Value.object (Fields.ofList fields)).Readable digits (depth + 1) := by
  refine ⟨Fields.nodup_ofList fields, fieldsReadable_iff.2 fun field hfield => ?_⟩
  rcases Fields.mem_merge hfield with hfield | hfield
  · cases hfield
  · exact fieldsReadable_iff.1 h field hfield

section Fuel

variable {fuel : ℕ}

/-- All three functions of the reader return what is readable with some fuel. -/
structure FuelGives (digits fuel : ℕ) : Prop where
  value : ∀ depth t, t.Encodable → (readValue digits depth fuel t).Gives (Value.Readable digits depth)
  items : ∀ depth t, t.Encodable → (readItems digits depth fuel t).Gives (ItemsReadable digits depth)
  fields : ∀ depth t, t.Encodable → (readFields digits depth fuel t).Gives (FieldsReadable digits depth)

theorem encodable_skipSpace (ht : t.Encodable) : (skipSpace t).Encodable :=
  encodable_of_suffix (skipSpace_suffix t) ht

theorem encodable_tail {p : CodePoint} (h : Text.Encodable (p :: t)) : t.Encodable :=
  (List.forall_mem_cons.1 h).2

/-- What stands behind white space and a token has a UTF-8 form. -/
theorem encodable_of_skipSpace_eq {u : Text} {p : CodePoint} (ht : t.Encodable) (h : skipSpace t = p :: u) :
    u.Encodable :=
  encodable_tail (h ▸ encodable_skipSpace ht)

theorem readValue_gives (h : FuelGives digits fuel) (depth : ℕ) (ht : t.Encodable) :
    (readValue digits depth (fuel + 1) t).Gives (Value.Readable digits depth) := by
  rw [readValue.eq_def]
  dsimp only
  split
  · exact (readString_gives (encodable_tail ht)).yield fun _ htext => by rwa [Value.Readable]
  · next rest =>
    have hrest := encodable_tail ht
    split
    · trivial
    · next depth =>
      split
      · next hclose => exact ⟨trivial, encodable_of_skipSpace_eq hrest hclose⟩
      · exact (h.items depth _ (encodable_skipSpace hrest)).yield fun _ hitems => hitems
  · next rest =>
    have hrest := encodable_tail ht
    split
    · trivial
    · next depth =>
      split
      · next hclose => exact ⟨⟨List.nodup_nil, trivial⟩, encodable_of_skipSpace_eq hrest hclose⟩
      · exact (h.fields depth _ (encodable_skipSpace hrest)).yield fun _ => readable_ofList
  · exact readScalar_gives ht

theorem readItems_gives (h : FuelGives digits fuel) (depth : ℕ) (ht : t.Encodable) :
    (readItems digits depth (fuel + 1) t).Gives (ItemsReadable digits depth) := by
  rw [readItems]
  refine (h.value depth t ht).andThen fun v rest hv hrest => ?_
  split
  · next hclose => exact ⟨⟨hv, trivial⟩, encodable_of_skipSpace_eq hrest hclose⟩
  · next hcomma =>
    have hmore := encodable_skipSpace (encodable_of_skipSpace_eq hrest hcomma)
    exact (h.items depth _ hmore).yield fun items hitems => ⟨hv, hitems⟩
  · trivial

theorem readFields_gives (h : FuelGives digits fuel) (depth : ℕ) (ht : t.Encodable) :
    (readFields digits depth (fuel + 1) t).Gives (FieldsReadable digits depth) := by
  rw [readFields.eq_def]
  dsimp only
  split
  · refine (readString_gives (encodable_tail ht)).andThen fun name rest hname hrest => ?_
    split
    · next hcolon =>
      have hvalue := encodable_skipSpace (encodable_of_skipSpace_eq hrest hcolon)
      refine (h.value depth _ hvalue).andThen fun v rest hv hrest => ?_
      split
      · next hclose => exact ⟨⟨⟨hname, hv⟩, trivial⟩, encodable_of_skipSpace_eq hrest hclose⟩
      · next hcomma =>
        have hmore := encodable_skipSpace (encodable_of_skipSpace_eq hrest hcomma)
        exact (h.fields depth _ hmore).yield fun fields hfields => ⟨⟨hname, hv⟩, hfields⟩
      · trivial
    · trivial
  · trivial

/-- By induction on the fuel. -/
theorem fuelGives (digits fuel : ℕ) : FuelGives digits fuel := by
  induction fuel with
  | zero => exact ⟨fun _ _ _ => trivial, fun _ _ _ => trivial, fun _ _ _ => trivial⟩
  | succ fuel ih =>
    exact ⟨fun depth _ => readValue_gives ih depth, fun depth _ => readItems_gives ih depth,
      fun depth _ => readFields_gives ih depth⟩

end Fuel

/-- **What a reader returns is readable** with its limits. -/
theorem readable_of_readWithin {limits : Limits} {v : Value} (ht : t.Encodable)
    (h : readWithin limits t = .ok v) : v.Readable limits.digits limits.depth := by
  have hgives := (fuelGives limits.digits (2 * t.length + 1)).value limits.depth _ (encodable_skipSpace ht)
  obtain ⟨rest, hread⟩ := exists_readValue_of_readWithin h
  rw [hread] at hgives
  exact hgives.1

end Json

end GuiBuilder
