import GuiBuilder.Text.Utf8
import Mathlib.Data.Nat.Notation

/-!
# UTF-8 is read back

The bytes of a text spell that text, and bytes spell no text that has no UTF-8 form. It keeps that form when its
line ends are unified.
-/

namespace GuiBuilder.Text

theorem encodable_of_ofUtf8? {t : Text} {bytes : ByteArray} (h : ofUtf8? bytes = some t) : t.Encodable := by
  obtain ⟨s, -, rfl⟩ := Option.map_eq_some_iff.1 h
  exact encodable_ofString s

theorem encodable_unifyLineEnds {t : Text} (ht : t.Encodable) : (unifyLineEnds t).Encodable := by
  induction t using unifyLineEnds.induct with
  | case1 => exact ht
  | case2 t ih =>
    rw [Text.Encodable, List.forall_mem_cons, List.forall_mem_cons] at ht
    exact List.forall_mem_cons.2 ⟨rfl, ih ht.2.2⟩
  | case3 t hpair ih =>
    rw [unifyLineEnds.eq_3 _ hpair]
    exact List.forall_mem_cons.2 ⟨rfl, ih (List.forall_mem_cons.1 ht).2⟩
  | case4 p t hpair hfirst ih =>
    rw [Text.Encodable, List.forall_mem_cons] at ht
    rw [unifyLineEnds.eq_4 _ _ hpair hfirst]
    exact List.forall_mem_cons.2 ⟨ht.1, ih ht.2⟩

end GuiBuilder.Text
