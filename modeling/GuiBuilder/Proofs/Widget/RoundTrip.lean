import GuiBuilder.Proofs.Json.ReadBack
import GuiBuilder.Proofs.Widget.Decimals
import GuiBuilder.Shelf

/-!
# Checked windows survive being written and read

A window that has passed the check is an encodable one, so it passes again when it is given as data.
As data it is storable, and seven levels deep at most, so it is read back from its canonical JSON as
well, by any reader that takes the integers that its sliders hold. Hence the canonical JSON of a checked
window determines the window (`Window.canonical_injective`): saved scripts come back as they were, and
what is generated from a window may be kept under its canonical form.
-/

namespace GuiBuilder

/-! ### Windows as storable data -/

section Storable

variable {digits : ℕ} (s : Spelling)

/-- A record can be stored if the values of its fields can. -/
theorem storable_spellFields {fields : List (FieldName × Value)}
    (hapart : (fields.map Prod.fst).Pairwise FieldName.Apart)
    (h : ∀ field ∈ fields, field.2.Storable digits) :
    (Value.object (spellFields s fields)).Storable digits := by
  refine ⟨nodup_keys_spellFields hapart, fieldsStorable_iff.2 fun field hfield => ?_⟩
  obtain ⟨⟨f, v⟩, hmem, rfl⟩ := List.mem_map.1 hfield
  have hkey : (f.spelled s).Encodable := by
    cases s <;> exact Text.encodable_ofString _
  exact ⟨hkey, h (f, v) hmem⟩

/-- An array can be stored if its items can. -/
theorem storable_array {α : Type} {toValue : α → Value} {as : List α}
    (h : ∀ a ∈ as, (toValue a).Storable digits) : (Value.array (as.map toValue)).Storable digits :=
  itemsStorable_iff.2 (List.forall_mem_map.2 h)

theorem Control.storable_fields {c : Control} (hc : c.Encodable)
    (hdecimals : ∀ n ∈ c.decimals?, (decimalDigits n).length ≤ digits) :
    ∀ field ∈ c.fields, field.2.Storable digits := by
  cases c with
  | button => exact List.forall_mem_nil _
  | toggle flag initially =>
    simp only [fields, List.forall_mem_cons]
    exact ⟨hc, trivial, List.forall_mem_nil _⟩
  | slider flag range =>
    simp only [fields, List.forall_mem_cons]
    exact ⟨hc, ⟨_, rfl⟩, ⟨_, rfl⟩, ⟨_, rfl⟩, hdecimals _ rfl, List.forall_mem_nil _⟩
  | dropdown flag options =>
    simp only [fields, List.forall_mem_cons]
    exact ⟨hc.1, storable_array hc.2, List.forall_mem_nil _⟩

theorem Element.storable_toValue {e : Element} (he : e.Encodable)
    (hdecimals : ∀ n ∈ e.control.decimals?, (decimalDigits n).length ≤ digits) :
    (e.toValue s).Storable digits := by
  refine storable_spellFields s e.pairwise_apart_fields ?_
  simp only [fields, List.forall_mem_append, List.forall_mem_cons]
  refine ⟨⟨Text.encodable_ofString _, he.id, he.text, ?_, List.forall_mem_nil _⟩,
    Control.storable_fields he.control hdecimals⟩
  cases hlogic : e.logic with
  | none => trivial
  | some t => exact he.logic t hlogic

theorem Folder.storable_toValue {f : Folder} (hf : f.Encodable)
    (hdecimals : ∀ e ∈ f.elements, ∀ n ∈ e.control.decimals?, (decimalDigits n).length ≤ digits) :
    (f.toValue s).Storable digits := by
  refine storable_spellFields s (f.pairwise_apart_fields s) ?_
  simp only [fields, List.forall_mem_cons]
  exact ⟨hf.id, hf.text,
    storable_array fun e he => Element.storable_toValue s (hf.elements e he) (hdecimals e he),
    List.forall_mem_nil _⟩

theorem Window.storable_toValue {w : Window} (hw : w.Encodable) (hdecimals : w.DecimalsWithin digits) :
    (w.toValue s).Storable digits := by
  refine storable_spellFields s (w.pairwise_apart_fields s) ?_
  simp only [fields, List.forall_mem_cons]
  refine ⟨hw.title, storable_array fun f hf => Folder.storable_toValue s (hw.folders f hf) ?_,
    List.forall_mem_nil _⟩
  exact fun e he => hdecimals e (List.mem_flatMap.2 ⟨f, hf, he⟩)

end Storable

/-! ### How deep windows nest -/

section Depth

variable {n : ℕ} (s : Spelling)

theorem depth_spellFields_le {fields : List (FieldName × Value)} (h : ∀ field ∈ fields, field.2.depth ≤ n) :
    (Value.object (spellFields s fields)).depth ≤ n + 1 :=
  Nat.succ_le_succ (Value.depthOfFields_le_iff.2 (List.forall_mem_map.2 h))

theorem depth_array_le {α : Type} {toValue : α → Value} {as : List α} (h : ∀ a ∈ as, (toValue a).depth ≤ n) :
    (Value.array (as.map toValue)).depth ≤ n + 1 :=
  Nat.succ_le_succ (Value.depthOfItems_le_iff.2 (List.forall_mem_map.2 h))

theorem Control.depth_fields_le (c : Control) : ∀ field ∈ c.fields, field.2.depth ≤ 2 := by
  cases c with
  | dropdown flag options =>
    simp only [fields, List.forall_mem_cons]
    exact ⟨by simp [Value.depth], depth_array_le fun t _ => by simp [Value.depth], List.forall_mem_nil _⟩
  | _ => simp [fields, Value.depth]

theorem Element.depth_toValue_le (e : Element) : (e.toValue s).depth ≤ 3 := by
  refine depth_spellFields_le s ?_
  simp only [fields, List.forall_mem_append]
  refine ⟨?_, e.control.depth_fields_le⟩
  cases e.logic <;> simp [Value.depth]

theorem Folder.depth_toValue_le (f : Folder) : (f.toValue s).depth ≤ 5 := by
  refine depth_spellFields_le s ?_
  simp only [fields, List.forall_mem_cons]
  exact ⟨by simp [Value.depth], by simp [Value.depth], depth_array_le fun e _ => e.depth_toValue_le s,
    List.forall_mem_nil _⟩

/-- A window, its folders, a folder, its elements, an element, its options and an option. -/
theorem Window.depth_toValue_le (w : Window) : (w.toValue s).depth ≤ 7 := by
  refine depth_spellFields_le s ?_
  simp only [fields, List.forall_mem_cons]
  exact ⟨by simp [Value.depth], depth_array_le fun f _ => f.depth_toValue_le s, List.forall_mem_nil _⟩

end Depth

/-! ### Canonical JSON -/

namespace Window

variable {v w : Window}

/-- **A window is read back from its canonical JSON.** -/
theorem ofJson?_canonical (limits : Json.Limits) (hw : w.Encodable) (hdepth : 7 ≤ limits.depth)
    (hdecimals : w.DecimalsWithin limits.digits) : ofJson? limits w.canonical = some w := by
  have hread : Json.readWithin limits w.canonical = .ok (w.toValue .json) :=
    Json.readWithin_inline limits (storable_toValue .json hw hdecimals)
      ((depth_toValue_le .json w).trans hdepth)
  rw [ofJson?, hread]
  exact Checked.toOption_eq_some.2 (ofValue_toValue .json hw)

/-- The canonical JSON of an encodable window has a UTF-8 form. -/
theorem encodable_canonical (hw : w.Encodable) : w.canonical.Encodable := by
  obtain ⟨digits, hdecimals⟩ := w.exists_decimalsWithin
  exact Json.encodable_inline (storable_toValue .json hw hdecimals)

/-- **Windows with one canonical JSON are equal.** -/
theorem canonical_injective (hv : v.Encodable) (hw : w.Encodable) (h : v.canonical = w.canonical) :
    v = w := by
  obtain ⟨m, hm⟩ := v.exists_decimalsWithin
  obtain ⟨n, hn⟩ := w.exists_decimalsWithin
  have hstorev : (v.toValue .json).Storable (max m n) :=
    storable_toValue .json hv fun e he d hd => (hm e he d hd).trans (Nat.le_max_left m n)
  have hstorew : (w.toValue .json).Storable (max m n) :=
    storable_toValue .json hw fun e he d hd => (hn e he d hd).trans (Nat.le_max_right m n)
  have hvalue : v.toValue .json = w.toValue .json := Json.inline_injective hstorev hstorew h
  have hread := ofValue_toValue .json hv
  rw [hvalue, ofValue_toValue .json hw] at hread
  exact (Checked.ok.inj hread).symm

/-- **Checking and writing are inverse on what the check accepts.** Whatever data a window came from, it
passes the check again under either names and comes back as it was; so it does from its canonical JSON,
for every reader that takes seven levels and the integers of its sliders, and from a saved script if no
number of decimals has more than 4300 digits. No other checked window has the same canonical JSON. -/
theorem ofValue_inverse {v : Value} {w : Window} (h : ofValue v = .ok w) :
    (∀ s, ofValue (w.toValue s) = .ok w) ∧
    (∀ limits : Json.Limits, 7 ≤ limits.depth → w.DecimalsWithin limits.digits →
      ofJson? limits w.canonical = some w) ∧
    (w.DecimalsWithin 4300 → ∀ number id name,
      (⟨number, id, name, w.canonical⟩ : Shelf.Row).script? = some ⟨id, name, w⟩) ∧
    ∀ v' w', ofValue v' = .ok w' → w'.canonical = w.canonical → w' = w := by
  have hw := encodable_of_ofValue h
  refine ⟨fun s => ofValue_toValue s hw, fun limits => ofJson?_canonical limits hw, ?_, ?_⟩
  · intro hdecimals number id name
    have hread : ofJson? Shelf.Row.limits w.canonical = some w :=
      ofJson?_canonical Shelf.Row.limits hw (by decide) hdecimals
    rw [Shelf.Row.script?, hread, Option.map_some]
  · intro v' w' h'
    exact canonical_injective (encodable_of_ofValue h') hw

/-- Data as it may come from elsewhere: a folder without a text, numbers and truth values as texts, and
fields under either names. -/
def looseData : Value :=
  .object [("title", .text "A \"B\"\n"), ("folders", .array [.object [("id", .text "f"), ("elements", .array
    [.object [("type", .text "Slider"), ("id", .text "a"), ("flag", .text "s"), ("min", .text " -0.0 "),
        ("value", .bool true), ("decimals", .text "+02")],
      .object [("type", .text "Toggle"), ("id", .text "b"), ("flag", .text "t"), ("default_state", .text "YES"),
        ("customLogic", .text "print(1)")]])]])]

/-- The window that the data stands for comes back from a saved script. -/
theorem ofValue_inverse_loose :
    ∃ w, ofValue looseData = .ok w ∧ w.DecimalsWithin 4300 ∧
      (⟨1, "k", "n", w.canonical⟩ : Shelf.Row).script? = some ⟨"k", "n", w⟩ := by
  have hread : ((ofValue looseData).toOption.any fun w => decide (w.DecimalsWithin 4300)) = true := by
    decide +kernel
  obtain ⟨w, hw, hdecimals⟩ := (Option.any_eq_true _ _).1 hread
  have h : ofValue looseData = .ok w := Checked.toOption_eq_some.1 hw
  have hfits : w.DecimalsWithin 4300 := of_decide_eq_true hdecimals
  exact ⟨w, h, hfits, (ofValue_inverse h).2.2.1 hfits 1 "k" "n"⟩

end Window

end GuiBuilder
