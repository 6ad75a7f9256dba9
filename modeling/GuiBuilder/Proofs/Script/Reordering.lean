import GuiBuilder.Proofs.Script.ReadBack
import Mathlib.Data.List.Perm.Basic

/-!
# Reordering moves blocks

The lines of a script are six that name the window and count its parts, a block for each folder, and the closing
lines (`Window.lines_fullText_eq`); the block of a folder is a heading and a block for each element
(`Folder.blockLines_eq`). Nothing in a block depends on its place: the variable of a folder is made from its id, and
the six lines at the top only count. So folders and elements in another order make the same lines, and exchanged
folders exchange their blocks (`Window.reordering_moves_blocks`).

A script is joined from entries, and its lines are those of the text: logic in which a long bracket opens is one
entry and may be many lines. So blocks are made of lines here, and hold for logic of any shape.
-/

namespace GuiBuilder

open LineDiff (lines lines_join_eq_flatMap flatMap_lines)
open Script

/-- The lines of a script behind its blocks. A line feed ends the script, and nothing stands on the line after it. -/
def Script.closingLines : List Text := [[], "library:Init()", []]

/-- The lines of an element in the folder that a variable holds. -/
def Element.blockLines (owner : Text) (e : Element) : List Text :=
  lines (Text.join "\n" ([] :: e.fullLines owner))

namespace Folder

/-- The lines of a folder. -/
def blockLines (f : Folder) : List Text := lines (Text.join "\n" f.fullLines)

theorem blockLines_eq_flatMap (f : Folder) : f.blockLines = f.fullLines.flatMap lines :=
  lines_join_eq_flatMap (by simp [fullLines, heading])

/-- A block is a heading and the blocks of the elements. -/
theorem blockLines_eq (f : Folder) :
    f.blockLines = f.heading ++ f.elements.flatMap (Element.blockLines (folderVariable f.id)) := by
  have helements : Element.blockLines (folderVariable f.id)
      = fun e => ([] :: e.fullLines (folderVariable f.id)).flatMap lines :=
    funext fun e => lines_join_eq_flatMap (List.cons_ne_nil _ _)
  rw [blockLines_eq_flatMap, fullLines, List.flatMap_append, flatMap_lines (lineFeed_not_mem_heading f),
    List.flatMap_assoc, helements]

/-! ### Other orders -/

/-- The folder with its elements in another order. -/
structure Reordered (f g : Folder) : Prop where
  id_eq : g.id = f.id
  text_eq : g.text = f.text
  elements_perm : g.elements.Perm f.elements

theorem Reordered.refl (f : Folder) : f.Reordered f := ⟨rfl, rfl, .refl _⟩

theorem Reordered.blockLines_perm {f g : Folder} (h : f.Reordered g) : g.blockLines.Perm f.blockLines := by
  have hheading : g.heading = f.heading := by
    rw [heading, heading, h.id_eq, h.text_eq]
  rw [blockLines_eq, blockLines_eq, hheading, h.id_eq]
  exact (h.elements_perm.flatMap_right _).append_left _

end Folder

namespace Window

/-- The window with its folders in another order, and in each folder its elements. -/
structure Reordered (v w : Window) : Prop where
  title_eq : w.title = v.title
  folders_moved : ∃ moved, moved.Perm v.folders ∧ List.Forall₂ Folder.Reordered moved w.folders

namespace Reordered

variable {v w : Window}

theorem of_perm (htitle : w.title = v.title) (hfolders : w.folders.Perm v.folders) : v.Reordered w :=
  ⟨htitle, w.folders, hfolders, List.forall₂_same.2 fun f _ => .refl f⟩

/-- Two folders that change places are a reordering. -/
theorem of_exchange (title : Text) (before between after : List Folder) (f g : Folder) :
    Reordered ⟨title, before ++ f :: between ++ g :: after⟩
      ⟨title, before ++ g :: between ++ f :: after⟩ := by
  refine of_perm rfl ?_
  rw [List.append_assoc, List.append_assoc, List.cons_append, List.cons_append]
  refine List.Perm.append_left before ?_
  -- the folder that stands further down comes up, changes places with the upper one, and that one goes down
  calc (g :: (between ++ f :: after)).Perm (g :: f :: (between ++ after)) := List.perm_middle.cons g
    List.Perm _ (f :: g :: (between ++ after)) := .swap f g _
    List.Perm _ (f :: (between ++ g :: after)) := List.perm_middle.symm.cons f

/-- What folders have in any order of their elements, windows have in any order of their folders. -/
theorem flatMap_perm {α : Type} {part : Folder → List α}
    (hpart : ∀ f g : Folder, f.Reordered g → (part g).Perm (part f)) (h : v.Reordered w) :
    (w.folders.flatMap part).Perm (v.folders.flatMap part) := by
  obtain ⟨moved, hmoved, hfolders⟩ := h.folders_moved
  have hparts : (moved.flatMap part).Perm (w.folders.flatMap part) := by
    rw [List.flatMap_def, List.flatMap_def]
    apply List.Perm.flatten_congr
    rw [List.forall₂_map_left_iff, List.forall₂_map_right_iff]
    exact hfolders.imp fun f g hfg => (hpart f g hfg).symm
  exact hparts.symm.trans (hmoved.flatMap_right part)

theorem elements_perm (h : v.Reordered w) : w.elements.Perm v.elements :=
  h.flatMap_perm fun _ _ hfg => hfg.elements_perm

/-- Decimals that can be written can be written in any order. -/
theorem writable_iff (h : v.Reordered w) : w.Writable ↔ v.Writable :=
  forall_congr' fun _ => imp_congr_left h.elements_perm.mem_iff

theorem length_folders (h : v.Reordered w) : w.folders.length = v.folders.length := by
  obtain ⟨moved, hmoved, hfolders⟩ := h.folders_moved
  exact hfolders.length_eq.symm.trans hmoved.length_eq

/-- The top of a script counts, and does not say in which order. -/
theorem headLines_eq (h : v.Reordered w) (url : Text) : w.headLines url = v.headLines url := by
  rw [headLines, headLines, h.title_eq, h.length_folders, h.elements_perm.length_eq]

end Reordered

/-! ### Scripts by lines -/

/-- A script is the lines at its top, the blocks of the folders, and the closing lines. -/
theorem lines_fullText_eq (url : Text) (w : Window) :
    lines (w.fullText url) = w.headLines url ++ w.folders.flatMap Folder.blockLines ++ closingLines := by
  have hne : w.fullLines url ≠ [] := by
    simp [fullLines]
  have hclosing : ∀ l ∈ closingLines, .char '\n' ∉ l := by
    simp [closingLines, Text.ofString]
  have hentries : w.fullLines url ++ [[]]
      = w.headLines url ++ w.folders.flatMap Folder.fullLines ++ closingLines := by
    rw [fullLines, List.append_assoc]
    rfl
  calc lines (w.fullText url)
    _ = (w.fullLines url ++ [[]]).flatMap lines := by
      rw [fullText, ← Text.join_append_nil _ hne, lines_join_eq_flatMap (by simp)]
    _ = w.headLines url ++ (w.folders.flatMap Folder.fullLines).flatMap lines ++ closingLines := by
      rw [hentries, List.flatMap_append, List.flatMap_append, flatMap_lines hclosing,
        flatMap_lines (lineFeed_not_mem_headLines url w)]
    _ = w.headLines url ++ w.folders.flatMap Folder.blockLines ++ closingLines := by
      rw [List.flatMap_assoc, ← funext Folder.blockLines_eq_flatMap]

theorem take_lines_fullText (url : Text) (w : Window) :
    (lines (w.fullText url)).take 6 = w.headLines url := by
  rw [lines_fullText_eq, List.append_assoc]
  exact List.take_left' rfl

theorem closingLines_suffix (url : Text) (w : Window) : closingLines <:+ lines (w.fullText url) := by
  rw [lines_fullText_eq]
  exact List.suffix_append _ _

/-- **Reordering moves blocks.** Whatever the logic and the ids of a window are, in any order of its folders and
their elements it has a script if its decimals can be written, and that script has the same lines, each as often, the
same six lines at the top and the same closing lines. With decimals that cannot be written it has no script in any
order. Between its top and its closing lines a script has the blocks of the folders, one after the other, each made
from its folder alone. So two folders that are exchanged exchange their blocks, and everything around these stays. -/
theorem reordering_moves_blocks (url : Text) :
    (∀ v w : Window, v.Reordered w →
      (v.Writable → ∃ old new, v.scriptFrom url = .ok old ∧ w.scriptFrom url = .ok new ∧
        (lines new).Perm (lines old) ∧ (lines new).take 6 = (lines old).take 6 ∧
        closingLines <:+ lines old ∧ closingLines <:+ lines new) ∧
      (¬ v.Writable → v.scriptFrom url = .error .unwritableInteger ∧
        w.scriptFrom url = .error .unwritableInteger)) ∧
    (∀ (w : Window) (t : Text), w.scriptFrom url = .ok t →
      lines t = (lines t).take 6 ++ w.folders.flatMap Folder.blockLines ++ closingLines) ∧
    ∀ (title : Text) (before between after : List Folder) (f g : Folder) (old : Text),
      scriptFrom url ⟨title, before ++ f :: between ++ g :: after⟩ = .ok old →
      ∃ new top middle bottom, scriptFrom url ⟨title, before ++ g :: between ++ f :: after⟩ = .ok new ∧
        lines old = top ++ f.blockLines ++ middle ++ g.blockLines ++ bottom ∧
        lines new = top ++ g.blockLines ++ middle ++ f.blockLines ++ bottom := by
  refine ⟨fun v w h => ⟨fun hv => ?_, fun hv => ?_⟩, fun w t ht => ?_, ?_⟩
  · refine ⟨v.fullText url, w.fullText url, scriptFrom_of_writable hv url,
      scriptFrom_of_writable (h.writable_iff.2 hv) url, ?_, ?_, closingLines_suffix url v, closingLines_suffix url w⟩
    · rw [lines_fullText_eq, lines_fullText_eq, h.headLines_eq]
      have hblocks := h.flatMap_perm fun f g hfg => hfg.blockLines_perm
      exact (hblocks.append_left _).append_right _
    · rw [take_lines_fullText, take_lines_fullText, h.headLines_eq]
  · exact ⟨scriptFrom_of_not_writable hv url,
      scriptFrom_of_not_writable (fun hw => hv (h.writable_iff.1 hw)) url⟩
  · obtain ⟨-, rfl⟩ := scriptFrom_eq_ok.1 ht
    rw [take_lines_fullText]
    exact lines_fullText_eq url w
  · intro title before between after f g old hold
    obtain ⟨hwritable, rfl⟩ := scriptFrom_eq_ok.1 hold
    have hexchange := Reordered.of_exchange title before between after f g
    refine ⟨_, headLines url ⟨title, before ++ f :: between ++ g :: after⟩ ++ before.flatMap Folder.blockLines,
      between.flatMap Folder.blockLines, after.flatMap Folder.blockLines ++ closingLines,
      scriptFrom_of_writable (hexchange.writable_iff.2 hwritable) url, ?_, ?_⟩
    · rw [lines_fullText_eq]
      simp only [List.flatMap_append, List.flatMap_cons, List.append_assoc]
    · rw [lines_fullText_eq, hexchange.headLines_eq url]
      simp only [List.flatMap_append, List.flatMap_cons, List.append_assoc]

/-- A folder of two elements, the first with logic in a long bracket. -/
def bracketedFolder : Folder :=
  ⟨"a b", "One", [⟨"1", "Go", some "--[[\nkept\n]]", .button⟩, ⟨"2", "On", none, .toggle "f" true⟩]⟩

/-- Its elements are exchanged, and so is its place with that of a folder whose variable is the same. -/
theorem reordering_moves_blocks_bracketed :
    let v : Window := ⟨"Hub", [bracketedFolder, ⟨"a\nb", "Two", []⟩]⟩
    let w : Window :=
      ⟨"Hub", [⟨"a\nb", "Two", []⟩, { bracketedFolder with elements := bracketedFolder.elements.reverse }]⟩
    v.Reordered w ∧ v.Writable ∧ w.script ≠ v.script ∧ Text.ofString "kept" ∈ bracketedFolder.blockLines ∧
      ∃ old new, v.script = .ok old ∧ w.script = .ok new ∧ (lines new).Perm (lines old) ∧
        (lines new).take 6 = (lines old).take 6 ∧ closingLines <:+ lines new := by
  intro v w
  have h : v.Reordered w := by
    refine ⟨rfl, [⟨"a\nb", "Two", []⟩, bracketedFolder], .swap _ _ _, .cons (.refl _) (.cons ?_ .nil)⟩
    exact ⟨rfl, rfl, List.reverse_perm _⟩
  have hwritable : v.Writable := by decide
  obtain ⟨old, new, hold, hnew, hlines, htop, -, hclosing⟩ :=
    ((reordering_moves_blocks defaultLibraryUrl).1 v w h).1 hwritable
  exact ⟨h, hwritable, by decide +kernel, by decide +kernel, old, new, hold, hnew, hlines, htop, hclosing⟩

end Window

end GuiBuilder
