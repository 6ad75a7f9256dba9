import GuiBuilder.Proofs.Widget.Decimals
import GuiBuilder.Script.Generate

/-!
# Which windows have a script

Only the decimals of a slider can keep a window from having a script, when they have more digits than an integer
may have. The text that would be the script otherwise is `Window.fullText`, in which no part can fail: a window
whose decimals can all be written has it as its script, and every other window has none (`Window.scriptFrom_eq`).
What is to be said of scripts is said of this text first.
-/

namespace GuiBuilder

open Script

/-- Where each item has a result or the same fault, so has a list of items: the results in order, unless one is
missing. -/
theorem mapM_ite {α β ε : Type} {f : α → Except ε β} {g : α → β} {e : ε} {P : α → Prop} [DecidablePred P]
    (h : ∀ a, f a = if P a then .ok (g a) else .error e) (as : List α) :
    as.mapM f = if ∀ a ∈ as, P a then .ok (as.map g) else .error e := by
  induction as with
  | nil => rfl
  | cons a as ih =>
    rw [List.mapM_cons, ih, h a]
    by_cases ha : P a
    · by_cases hall : ∀ a ∈ as, P a
      · rw [if_pos ha, if_pos hall, if_pos (List.forall_mem_cons.2 ⟨ha, hall⟩)]
        rfl
      · rw [if_pos ha, if_neg hall, if_neg fun hcons => hall (List.forall_mem_cons.1 hcons).2]
        rfl
    · rw [if_neg ha, if_neg fun hcons => ha (List.forall_mem_cons.1 hcons).1]
      rfl

/-- The decimals of a control can be written: they have no more digits than an integer may have. -/
def Control.Writable (c : Control) : Prop := c.DecimalsWithin Numeral.maxIntegerDigits

instance (c : Control) : Decidable c.Writable :=
  inferInstanceAs (Decidable (c.DecimalsWithin Numeral.maxIntegerDigits))

/-- The decimals of all sliders of a window can be written. -/
def Window.Writable (w : Window) : Prop := w.DecimalsWithin Numeral.maxIntegerDigits

instance (w : Window) : Decidable w.Writable :=
  inferInstanceAs (Decidable (w.DecimalsWithin Numeral.maxIntegerDigits))

/-! ### Scripts in full -/

/-- The settings of a control, however long its decimals are. -/
def Control.fullSettings : Control → List (Text × Text)
  | button => []
  | toggle flag initially => [("flag", quoted flag), ("state", boolean initially)]
  | slider flag r =>
    [("flag", quoted flag), ("min", number r.min), ("max", number r.max), ("value", number r.value),
      ("decimals", Text.ofNat r.decimals)]
  | dropdown flag options =>
    [("flag", quoted flag), ("values", .char '{' :: Text.join ", " (options.map quoted) ++ [.char '}'])]

theorem Control.settings_eq (c : Control) :
    c.settings = if c.Writable then .ok c.fullSettings else .error .unwritableInteger := by
  cases c with
  | button => exact (if_pos nofun).symm
  | toggle flag initially => exact (if_pos nofun).symm
  | dropdown flag options => exact (if_pos nofun).symm
  | slider flag r =>
    by_cases h : Numeral.maxIntegerDigits < (decimalDigits r.decimals).length
    · have hlong : ¬ (slider flag r).Writable := fun hwritable => Nat.not_lt.2 (hwritable _ rfl) h
      rw [settings, integer, if_pos h, if_neg hlong]
      rfl
    · have hshort : (slider flag r).Writable := by
        rintro _ ⟨⟩
        exact Nat.not_lt.1 h
      rw [settings, integer, if_neg h, if_pos hshort]
      rfl

/-- The block of an element in the folder that a variable holds, however long its decimals are. -/
def Element.fullLines (owner : Text) (e : Element) : List Text := e.block owner e.control.fullSettings

theorem Element.scriptLines_eq (owner : Text) (e : Element) :
    e.scriptLines owner = if e.control.Writable then .ok (e.fullLines owner) else .error .unwritableInteger := by
  rw [scriptLines, Control.settings_eq]
  split <;> rfl

namespace Folder

/-- The block of a folder, however long its decimals are. -/
def fullLines (f : Folder) : List Text :=
  f.heading ++ f.elements.flatMap fun e => [] :: e.fullLines (folderVariable f.id)

theorem scriptLines_eq (f : Folder) : f.scriptLines
    = if ∀ e ∈ f.elements, e.control.Writable then .ok f.fullLines else .error .unwritableInteger := by
  rw [scriptLines, mapM_ite (Element.scriptLines_eq (folderVariable f.id))]
  split
  · rw [fullLines, ← List.flatMap_map]
    rfl
  · rfl

end Folder

namespace Window

/-- The lines of a script, however long its decimals are. -/
def fullLines (url : Text) (w : Window) : List Text :=
  w.headLines url ++ w.folders.flatMap Folder.fullLines ++ [[], "library:Init()"]

/-- The text of a script, however long its decimals are. -/
def fullText (url : Text) (w : Window) : Text := Text.join "\n" (w.fullLines url) ++ "\n"

/-- **A window has a script if its decimals can be written, and has none otherwise.** -/
theorem scriptFrom_eq (url : Text) (w : Window) :
    w.scriptFrom url = if w.Writable then .ok (w.fullText url) else .error .unwritableInteger := by
  have hwritable : w.Writable ↔ ∀ f ∈ w.folders, ∀ e ∈ f.elements, e.control.Writable := decimalsWithin_iff
  rw [scriptFrom, scriptLines, mapM_ite Folder.scriptLines_eq]
  by_cases h : w.Writable
  · rw [if_pos h, if_pos (hwritable.1 h), fullText, fullLines, List.flatMap_def]
    rfl
  · rw [if_neg h, if_neg fun hall => h (hwritable.2 hall)]
    rfl

variable {url : Text} {w : Window} {t : Text}

theorem scriptFrom_of_writable (h : w.Writable) (url : Text) : w.scriptFrom url = .ok (w.fullText url) := by
  rw [scriptFrom_eq, if_pos h]

theorem scriptFrom_of_not_writable (h : ¬ w.Writable) (url : Text) :
    w.scriptFrom url = .error .unwritableInteger := by
  rw [scriptFrom_eq, if_neg h]

theorem scriptFrom_eq_error {f : Fault} : w.scriptFrom url = .error f ↔ ¬ w.Writable ∧ f = .unwritableInteger := by
  rw [scriptFrom_eq]
  by_cases h : w.Writable
  · rw [if_pos h]
    exact ⟨nofun, fun hboth => absurd h hboth.1⟩
  · rw [if_neg h, Except.error.injEq, and_iff_right h, eq_comm]

theorem scriptFrom_eq_ok : w.scriptFrom url = .ok t ↔ w.Writable ∧ t = w.fullText url := by
  rw [scriptFrom_eq]
  by_cases h : w.Writable
  · rw [if_pos h, Except.ok.injEq, and_iff_right h, eq_comm]
  · rw [if_neg h]
    exact ⟨nofun, fun hboth => absurd hboth.1 h⟩

end Window

end GuiBuilder
