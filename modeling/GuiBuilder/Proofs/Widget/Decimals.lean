import GuiBuilder.Proofs.Json.Readable
import GuiBuilder.Proofs.Widget.Encodable
import Mathlib.Algebra.BigOperators.Group.List.Lemmas
import Mathlib.Algebra.Order.BigOperators.Group.List

/-!
# The decimals of sliders

The check takes any natural number for the decimals of a slider, and an integer with too many digits can be
neither written nor read. So `Window.DecimalsWithin` stands wherever a window is to be written. A window that is
checked after it was read of a text keeps the bound of the reader (`Window.decimalsWithin_of_ofValue`): an integer
of the text keeps it by itself, a text in the place of an integer is held to the same bound, and a floating-point
number in that place lies within 64 bits.
-/

namespace GuiBuilder

/-- The number of decimals that a control shows, if it shows a number. -/
def Control.decimals? : Control → Option ℕ
  | slider _ range => some range.decimals
  | _ => none

/-- The number of decimals of a control has at most so many digits. -/
def Control.DecimalsWithin (digits : ℕ) (c : Control) : Prop :=
  ∀ n ∈ c.decimals?, (decimalDigits n).length ≤ digits

instance (digits : ℕ) (c : Control) : Decidable (c.DecimalsWithin digits) :=
  inferInstanceAs (Decidable (∀ n ∈ c.decimals?, (decimalDigits n).length ≤ digits))

/-- The numbers of decimals of all sliders have at most so many digits. -/
def Window.DecimalsWithin (digits : ℕ) (w : Window) : Prop :=
  ∀ e ∈ w.elements, ∀ n ∈ e.control.decimals?, (decimalDigits n).length ≤ digits

instance (digits : ℕ) (w : Window) : Decidable (w.DecimalsWithin digits) :=
  inferInstanceAs (Decidable (∀ e ∈ w.elements, ∀ n ∈ e.control.decimals?, (decimalDigits n).length ≤ digits))

/-- Some number of digits is enough for all sliders of a window. -/
theorem Window.exists_decimalsWithin (w : Window) : ∃ digits, w.DecimalsWithin digits := by
  refine ⟨(w.elements.map fun e => (decimalDigits (e.control.decimals?.getD 0)).length).sum, ?_⟩
  intro e he n hn
  refine List.le_sum_of_mem (List.mem_map.2 ⟨e, he, ?_⟩)
  rw [Option.mem_def.1 hn, Option.getD_some]

theorem Window.decimalsWithin_iff {digits : ℕ} {w : Window} :
    w.DecimalsWithin digits ↔ ∀ f ∈ w.folders, ∀ e ∈ f.elements, e.control.DecimalsWithin digits :=
  List.forall_mem_flatMap

/-! ### Integers that are read -/

/-- An integer that is read of a text has few digits. -/
theorem Numeral.length_of_bareInteger? {negative : Bool} {t : Text} {i : ℤ}
    (h : bareInteger? negative t = .ok i) : (decimalDigits i.natAbs).length ≤ maxIntegerDigits := by
  unfold bareInteger? at h
  have hten := Json.spanDigits_lt t
  split at h
  next digits rest hspan =>
  rw [hspan] at hten
  split at h
  · cases h
  · next hshape =>
    split at h
    · cases h
    · next hshort =>
      split at h
      · cases h
      · cases h
        have hne : digits ≠ [] := by
          rintro rfl
          exact hshape rfl
        have hread : (Value.int (if negative then -(digitsValue digits : ℤ) else digitsValue digits)).Readable
            maxIntegerDigits 0 := Json.readable_int hten hne (Nat.not_lt.1 hshort) negative
        rwa [Value.Readable] at hread

theorem Numeral.length_of_int? {t : Text} {i : ℤ} (h : int? t = .ok i) :
    (decimalDigits i.natAbs).length ≤ maxIntegerDigits := by
  unfold int? at h
  dsimp only at h
  split at h
  · cases h
  · split at h
    · split at h
      · cases h
      · exact length_of_bareInteger? h
    · exact length_of_bareInteger? h

namespace Schema

/-- An integer within 64 bits has few digits. -/
theorem length_of_lt_wordBound {i : ℤ} (h : -wordBound < i ∧ i < wordBound) :
    (decimalDigits i.natAbs).length ≤ Numeral.maxIntegerDigits := by
  obtain ⟨hlow, hhigh⟩ := h
  have hbound : i.natAbs < 10 ^ 19 := by
    unfold wordBound at hlow hhigh
    omega
  have hshort : (decimalDigits i.natAbs).length ≤ 19 := (Nat.length_toDigits_le_iff (by decide) (by decide)).2 hbound
  exact hshort.trans (by decide)

/-- An integer that passes the check has few digits, if those of the data have. -/
theorem length_of_readInt {depth : ℕ} {v : Value} {i : ℤ} (hv : v.Readable Numeral.maxIntegerDigits depth)
    (h : readInt v = .ok i) : (decimalDigits i.natAbs).length ≤ Numeral.maxIntegerDigits := by
  unfold readInt at h
  split at h
  · next b =>
    cases h
    cases b <;> decide
  · cases h
    rwa [Value.Readable] at hv
  · split at h
    · cases h
    · split at h
      · next hword =>
        cases h
        exact length_of_lt_wordBound hword
      · cases h
  · cases h
  · unfold withReadable at h
    split at h
    · dsimp only at h
      split at h
      · next hint =>
        cases h
        exact Numeral.length_of_int? hint
      · cases h
      · cases h
    · cases h
  · cases h

theorem length_of_readNat {depth : ℕ} {v : Value} {n : ℕ} (hv : v.Readable Numeral.maxIntegerDigits depth)
    (h : readNat v = .ok n) : (decimalDigits n).length ≤ Numeral.maxIntegerDigits := by
  obtain ⟨i, hi, hn⟩ := Checked.andThen_eq_ok.1 h
  split at hn
  · next hnonneg =>
    cases hn
    have habs : i.toNat = i.natAbs := by omega
    rw [habs]
    exact length_of_readInt hv hi
  · cases hn

end Schema

/-! ### Checked windows -/

section Readable

variable {digits depth : ℕ} {fields : Fields}

/-- The values of a readable object are readable. -/
theorem exists_readable_of_mem (h : (Value.object fields).Readable digits depth) :
    ∀ field ∈ fields, ∃ depth, field.2.Readable digits depth := by
  cases depth with
  | zero => exact absurd h id
  | succ depth => exact fun field hfield => ⟨depth, (fieldsReadable_iff.1 h.2 field hfield).2⟩

/-- The items of a readable array are readable. -/
theorem exists_readable_item {items : List Value} (h : (Value.array items).Readable digits depth) :
    ∀ item ∈ items, ∃ depth, item.Readable digits depth := by
  cases depth with
  | zero => exact absurd h id
  | succ depth => exact fun item hitem => ⟨depth, itemsReadable_iff.1 h item hitem⟩

/-- What is read of the items of an array in a readable object has what readable items give. -/
theorem of_optional_readArray {α : Type} {P : α → Prop} {f : FieldName} {read : Value → Checked α} {as : List α}
    (hfields : (Value.object fields).Readable digits depth)
    (h : f.optional [] (Schema.readArray read) fields = .ok as)
    (hread : ∀ {depth item a}, item.Readable digits depth → read item = .ok a → P a) : ∀ a ∈ as, P a := by
  refine FieldName.of_optional (P := fun as : List α => ∀ a ∈ as, P a) h (List.forall_mem_nil _) ?_
  intro field hfield as has a ha
  obtain ⟨items, hitems, hmade⟩ := Schema.exists_of_readArray has
  obtain ⟨item, hitem, hitemRead⟩ := hmade a ha
  obtain ⟨_, harray⟩ := exists_readable_of_mem hfields field hfield
  rw [hitems] at harray
  obtain ⟨_, hitemReadable⟩ := exists_readable_item harray item hitem
  exact hread hitemReadable hitemRead

end Readable

open Schema

variable {depth : ℕ}

theorem Schema.decimalsWithin_of_readControl {kind : Kind} {fields : Fields} {c : Control}
    (hfields : (Value.object fields).Readable Numeral.maxIntegerDigits depth)
    (h : readControl kind fields = .ok c) : c.DecimalsWithin Numeral.maxIntegerDigits := by
  cases kind with
  | button =>
    cases h
    exact nofun
  | toggle =>
    obtain ⟨_, _, h₁, -, rfl⟩ := Checked.seq_eq_ok.1 h
    obtain ⟨_, -, rfl⟩ := Checked.map_eq_ok.1 h₁
    exact nofun
  | dropdown =>
    obtain ⟨_, _, h₁, -, rfl⟩ := Checked.seq_eq_ok.1 h
    obtain ⟨_, -, rfl⟩ := Checked.map_eq_ok.1 h₁
    exact nofun
  | slider =>
    obtain ⟨_, range, h₁, hrange, rfl⟩ := Checked.seq_eq_ok.1 h
    obtain ⟨_, -, rfl⟩ := Checked.map_eq_ok.1 h₁
    obtain ⟨_, decimals, h₂, hdecimals, rfl⟩ := Checked.seq_eq_ok.1 hrange
    obtain ⟨_, _, h₃, -, rfl⟩ := Checked.seq_eq_ok.1 h₂
    obtain ⟨_, _, h₄, -, rfl⟩ := Checked.seq_eq_ok.1 h₃
    obtain ⟨_, -, rfl⟩ := Checked.map_eq_ok.1 h₄
    rintro _ ⟨⟩
    refine FieldName.of_optional (P := fun n => (decimalDigits n).length ≤ Numeral.maxIntegerDigits) hdecimals
      (by decide) fun field hfield n hn => ?_
    obtain ⟨_, hreadable⟩ := exists_readable_of_mem hfields field hfield
    exact length_of_readNat hreadable hn

theorem Schema.decimalsWithin_of_readElement {kind : Kind} {fields : Fields} {e : Element}
    (hfields : (Value.object fields).Readable Numeral.maxIntegerDigits depth)
    (h : readElement kind fields = .ok e) : e.control.DecimalsWithin Numeral.maxIntegerDigits := by
  obtain ⟨_, control, h₁, hcontrol, rfl⟩ := Checked.seq_eq_ok.1 h
  obtain ⟨_, _, h₂, -, rfl⟩ := Checked.seq_eq_ok.1 h₁
  obtain ⟨_, _, h₃, -, rfl⟩ := Checked.seq_eq_ok.1 h₂
  obtain ⟨_, -, rfl⟩ := Checked.map_eq_ok.1 h₃
  exact decimalsWithin_of_readControl hfields hcontrol

theorem Element.decimalsWithin_of_ofValue {v : Value} {e : Element}
    (hv : v.Readable Numeral.maxIntegerDigits depth) (h : ofValue v = .ok e) :
    e.control.DecimalsWithin Numeral.maxIntegerDigits := by
  cases v with
  | object fields =>
    simp only [ofValue] at h
    split at h
    · cases h
    · split at h
      · exact decimalsWithin_of_readElement hv (Checked.under_eq_ok.1 h)
      · cases h
  | _ => cases h

theorem Folder.decimalsWithin_of_ofValue {v : Value} {f : Folder}
    (hv : v.Readable Numeral.maxIntegerDigits depth) (h : ofValue v = .ok f) :
    ∀ e ∈ f.elements, e.control.DecimalsWithin Numeral.maxIntegerDigits := by
  obtain ⟨fields, rfl, h⟩ := exists_of_readRecord h
  obtain ⟨_, elements, h₁, helements, rfl⟩ := Checked.seq_eq_ok.1 h
  obtain ⟨_, _, h₂, -, rfl⟩ := Checked.seq_eq_ok.1 h₁
  obtain ⟨_, -, rfl⟩ := Checked.map_eq_ok.1 h₂
  exact of_optional_readArray hv helements Element.decimalsWithin_of_ofValue

/-- **A window of a text that was read has no decimals that cannot be written.** -/
theorem Window.decimalsWithin_of_ofValue {v : Value} {w : Window}
    (hv : v.Readable Numeral.maxIntegerDigits depth) (h : ofValue v = .ok w) :
    w.DecimalsWithin Numeral.maxIntegerDigits := by
  obtain ⟨fields, rfl, h⟩ := exists_of_readRecord h
  obtain ⟨_, folders, h₁, hfolders, rfl⟩ := Checked.seq_eq_ok.1 h
  obtain ⟨_, -, rfl⟩ := Checked.map_eq_ok.1 h₁
  exact decimalsWithin_iff.2 (of_optional_readArray hv hfolders Folder.decimalsWithin_of_ofValue)

end GuiBuilder
