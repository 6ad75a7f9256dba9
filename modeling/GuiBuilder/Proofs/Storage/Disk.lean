import GuiBuilder.Storage.Disk
import Mathlib.Data.List.Basic

/-!
# Directories that are made

Before a file is exported, its directory is made, and those on the way to it. A directory that could be made is one
that is found afterwards (`Disk.find_of_provide`), whether it was there or not: to be made it has to be reached, the
directories on the way stay directories, and it is one of those that were made. Where something stands in the way,
or the path is none, nothing is provided.
-/

namespace GuiBuilder

theorem bind_eq_ok {ε α β : Type} {x : Except ε α} {f : α → Except ε β} {b : β} :
    x >>= f = .ok b ↔ ∃ a, x = .ok a ∧ f a = .ok b := by
  cases x with
  | error e => exact ⟨nofun, nofun⟩
  | ok a =>
    constructor
    · intro h
      exact ⟨a, rfl, h⟩
    · rintro ⟨_, ⟨⟩, h⟩
      exact h

namespace Disk

variable {d d' : Disk} {path : Text}

theorem obstacle?_eq_none_iff {place : List Text} : d.obstacle? place = none ↔ d.isDirectory place = true := by
  unfold obstacle?
  split
  · next h => simp [h]
  · next h =>
    split <;> simp [h]

/-- What is not obstructed is reached: the path is not empty or too long, and leads through directories only. -/
theorem way_of_find (h : ∀ e, d.find path ≠ .obstructed e) :
    path.isEmpty = false ∧ Path.byteLength path ≤ Path.lengthLimit ∧
      (Path.passed (Path.withoutSlashes (d.absolute path))).findSome? d.obstacle? = none := by
  unfold find at h
  dsimp only at h
  split at h
  · exact absurd rfl (h _)
  · next hempty =>
    split at h
    · exact absurd rfl (h _)
    · next hlength =>
      split at h
      · exact absurd rfl (h _)
      · next hway => exact ⟨by simpa using hempty, Nat.not_lt.1 hlength, hway⟩

/-- A directory stays one when another is made. -/
theorem isDirectory_made {place : List Text} (h : d.isDirectory place = true) (new : List Text) :
    ({ d with made := new :: d.made } : Disk).isDirectory place = true := by
  simp only [isDirectory, Bool.or_eq_true, List.any_cons] at h ⊢
  tauto

/-- A directory that was made is there. -/
theorem find_of_makeDirectory (h : d.makeDirectory path = .ok d') : d'.find path = .directory := by
  unfold makeDirectory at h
  split at h
  · cases h
  · have hmade (hreach : ∀ e, d.find path ≠ .obstructed e) :
        ({ d with made := d.place path :: d.made } : Disk).find path = .directory := by
      obtain ⟨hempty, hlength, hway⟩ := way_of_find hreach
      have hway' : (Path.passed (Path.withoutSlashes (d.absolute path))).findSome?
          ({ d with made := d.place path :: d.made } : Disk).obstacle? = none := by
        rw [List.findSome?_eq_none_iff] at hway ⊢
        exact fun place hplace => obstacle?_eq_none_iff.2
          (isDirectory_made (obstacle?_eq_none_iff.1 (hway place hplace)) _)
      have hplace : ({ d with made := d.place path :: d.made } : Disk).isDirectory (d.place path) = true := by
        simp [isDirectory]
      unfold find
      dsimp only [absolute, place] at hway' hplace ⊢
      rw [if_neg (by simp [hempty]), if_neg (Nat.not_lt.2 hlength), hway']
      exact if_pos hplace
    split at h
    · next hfound =>
      cases h
      exact hmade (by rw [hfound]; exact nofun)
    · next hfound =>
      cases h
      exact hmade (by rw [hfound]; exact nofun)
    all_goals cases h

/-- **A directory that is provided is there.** -/
theorem find_of_provide {find : Text → Found} (h : d.provide path = .ok find) : find path = .directory := by
  unfold provide at h
  cases hmake : d.makeDirectories path with
  | error f =>
    rw [hmake] at h
    cases h
  | ok d' =>
    rw [hmake] at h
    cases h
    unfold makeDirectories at hmake
    obtain ⟨u, -, hu⟩ := bind_eq_ok.1 hmake
    -- the last step makes the directory itself, unless it is there
    split at hu
    · next hfound =>
      cases hu
      exact hfound
    · exact find_of_makeDirectory hu

end Disk

end GuiBuilder
