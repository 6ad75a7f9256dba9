import GuiBuilder.Proofs.Widget.RoundTrip
import Mathlib.Data.List.Forall2
import Mathlib.Data.List.Nodup

/-!
# The shelf is a bounded list

A ledger is the list of the saved scripts, newest first, with the limit that counts now. Saving puts a script
in front and keeps so many of the first ones as the limit says, deleting takes out what has an id, and
closing and opening again leave the list alone (`Shelf.Ledger.answer`). It has no numbers, and nothing is
sorted.

The shelf keeps numbered rows, and the numbers of the newest ones are given out again when those rows have
gone. The order still comes out right because a new row always takes a number above all that are there: the
table stands in the order of its numbers (`Shelf.Numbered`), so that it is the ledger read backwards, and
pruning cuts its front off. `Shelf.Keeps` relates the two, each request preserves it and answers the
same (`Shelf.Keeps.answer`), and so does every run (`Shelf.Keeps.after`).

Integers are the limits here, and the windows are checked ones with numbers of decimals of up to 4300 digits,
which are those that can be read back.
-/

namespace GuiBuilder

/-- A text without surrogate halves is not refused, and no other one is accepted. -/
theorem Text.firstSurrogates?_eq_none_iff {t : Text} : t.firstSurrogates? = none ↔ t.Encodable := by
  induction t with
  | nil => simp [firstSurrogates?, Encodable]
  | cons p t ih =>
    cases p with
    | char c => simpa [firstSurrogates?, Encodable, CodePoint.isChar] using ih
    | surrogate i => simp [firstSurrogates?, Encodable, CodePoint.isChar]

namespace Shelf

/-! ### Numbered rows -/

/-- The rows stand in the order of their numbers, and no two have one number. -/
def Numbered (rows : List Row) : Prop := rows.Pairwise fun r r' => r.number < r'.number

section Rows

variable {rows : List Row}

theorem Numbered.eq_of_number (h : Numbered rows) {r r' : Row} (hr : r ∈ rows) (hr' : r' ∈ rows)
    (hnumber : r.number = r'.number) : r = r' := by
  have hnumbers : (rows.map Row.number).Nodup :=
    List.pairwise_map.2 (h.imp fun hlt => Nat.ne_of_lt hlt)
  exact List.inj_on_of_nodup_map hnumbers hr hr' hnumber

/-- Sorting numbered rows turns them around. -/
theorem newestFirst_eq_reverse (h : Numbered rows) : newestFirst rows = rows.reverse := by
  set le : Row → Row → Bool := fun a b => decide (b.number ≤ a.number) with hle
  have hsorted : (newestFirst rows).Pairwise fun a b => le a b = true := by
    refine List.pairwise_mergeSort ?_ ?_ rows
    · intro a b c hab hbc
      simp only [hle, decide_eq_true_eq] at hab hbc ⊢
      omega
    · intro a b
      simp only [hle, Bool.or_eq_true, decide_eq_true_eq]
      omega
  have hreverse : rows.reverse.Pairwise fun a b => le a b = true := by
    rw [List.pairwise_reverse]
    exact h.imp fun hlt => decide_eq_true (Nat.le_of_lt hlt)
  have hperm : (newestFirst rows).Perm rows.reverse :=
    (List.mergeSort_perm rows _).trans (List.reverse_perm rows).symm
  refine hperm.eq_of_pairwise (fun a b ha hb hab hba => ?_) hsorted hreverse
  have ha' : a ∈ rows := (List.mergeSort_perm rows _).subset ha
  have hnumber : a.number = b.number := by
    simp only [hle, decide_eq_true_eq] at hab hba
    omega
  exact h.eq_of_number ha' (List.mem_reverse.1 hb) hnumber

/-- A new row takes a number above all others. -/
theorem number_lt_nextNumber {r : Row} (hr : r ∈ rows) : r.number < nextNumber rows := by
  have hmax : (0 :: rows.map Row.number).max? = some ((rows.map Row.number).foldl max 0) := List.max?_cons'
  have hle := (List.max?_eq_some_iff.1 hmax).2 r.number (List.mem_cons_of_mem 0 (List.mem_map_of_mem hr))
  exact Nat.lt_succ_of_le hle

theorem Numbered.append (h : Numbered rows) (id name content : Text) :
    Numbered (rows ++ [⟨nextNumber rows, id, name, content⟩]) := by
  rw [Numbered, List.pairwise_append]
  refine ⟨h, List.pairwise_singleton _ _, fun r hr r' hr' => ?_⟩
  rw [List.mem_singleton.1 hr']
  exact number_lt_nextNumber hr

/-- Of rows that stand in the order of their numbers, those that have the number of one of the last rows are
the last rows. -/
theorem Numbered.filter_mem_drop (h : Numbered rows) (k : ℕ) :
    (rows.filter fun r => r.number ∈ (rows.drop k).map Row.number) = rows.drop k := by
  have hsplit : rows.take k ++ rows.drop k = rows := List.take_append_drop k rows
  have hfront : (rows.take k).filter (fun r => decide (r.number ∈ (rows.drop k).map Row.number)) = [] := by
    rw [List.filter_eq_nil_iff]
    intro r hr hmem
    obtain ⟨r', hr', hnumber⟩ := List.mem_map.1 (of_decide_eq_true hmem)
    rw [← hsplit, Numbered, List.pairwise_append] at h
    have := h.2.2 r hr r' hr'
    omega
  have hback : (rows.drop k).filter (fun r => decide (r.number ∈ (rows.drop k).map Row.number))
      = rows.drop k := by
    rw [List.filter_eq_self]
    intro r hr
    exact decide_eq_true (List.mem_map_of_mem hr)
  calc rows.filter (fun r => decide (r.number ∈ (rows.drop k).map Row.number))
    _ = (rows.take k ++ rows.drop k).filter (fun r => decide (r.number ∈ (rows.drop k).map Row.number)) := by
      rw [hsplit]
    _ = rows.drop k := by rw [List.filter_append, hfront, hback, List.nil_append]

/-- So many of some items as a limit allows, from the front on; all of them if it is negative. -/
def bounded {α : Type} (limit : ℤ) (items : List α) : List α :=
  if limit < 0 then items else items.take limit.toNat

/-- Pruning keeps the last rows, so many of them as the limit allows. -/
theorem reverse_prune (h : Numbered rows) (limit : ℤ) :
    (prune limit rows).reverse = bounded limit rows.reverse := by
  unfold prune bounded
  split
  · rfl
  · have hkept : ((newestFirst rows).take limit.toNat).map Row.number
        = ((rows.drop (rows.length - limit.toNat)).map Row.number).reverse := by
      rw [newestFirst_eq_reverse h, List.take_reverse, List.map_reverse]
    simp only [hkept, List.mem_reverse]
    rw [h.filter_mem_drop, List.take_reverse]

theorem prune_sublist (limit : ℤ) (rows : List Row) : (prune limit rows).Sublist rows := by
  unfold prune
  split
  · exact List.Sublist.refl _
  · exact List.filter_sublist

end Rows

/-! ### Ledgers -/

/-- The saved scripts as a list. -/
structure Ledger where
  /-- The scripts, newest first. -/
  scripts : List SavedScript
  /-- How many scripts a save keeps; all of them if it is negative. -/
  limit : ℤ
  isOpen : Bool

/-- What can be asked of a shelf. -/
inductive Request where
  | save (id : Text) (name : Value) (window : Window)
  | delete (id : Text)
  | list
  | get (id : Text)
  | close
  | reopen (limit : ℤ)

/-- What a shelf answers. -/
inductive Answer where
  | saved (script : SavedScript)
  | deleted (b : Bool)
  | listed (scripts : List SavedScript)
  | found (script : Option SavedScript)
  | done
  /-- The request ends in a fault. -/
  | refused
deriving DecidableEq

/-- What came of a request that may end in a fault. -/
def Answer.ofResult {α : Type} (answer : α → Answer) : Except Fault α → Answer
  | .ok a => answer a
  | .error _ => refused

/-- Makes a request of the shelf. -/
def answer (s : Shelf) : Request → Shelf × Answer
  | .save id name w =>
    let (s, result) := s.save id name (.window w)
    (s, .ofResult .saved result)
  | .delete id =>
    let (s, result) := s.delete (.text id)
    (s, .ofResult .deleted result)
  | .list =>
    let (s, result) := s.list
    (s, .ofResult .listed result)
  | .get id =>
    let (s, result) := s.get (.text id)
    (s, .ofResult .found result)
  | .close => (s.close, .done)
  | .reopen limit => (s.reopen (.ofValue (.int limit)), .done)

/-- The shelf after some requests. -/
def after (s : Shelf) (requests : List Request) : Shelf := requests.foldl (fun s r => (s.answer r).1) s

namespace Ledger

/-- The script that a save puts on an open ledger: its name is a text, name and id are encodable, and no
script has the id. -/
def new? (l : Ledger) (id : Text) (name : Value) (w : Window) : Option SavedScript :=
  (name.text?.filter fun t => l.isOpen && decide t.Encodable && decide id.Encodable
    && decide (∀ script ∈ l.scripts, script.id ≠ id)).map fun t => ⟨id, t, w⟩

/-- A ledger without scripts. -/
def empty (limit : ℤ) : Ledger := ⟨[], limit, true⟩

/-- Makes a request of the ledger. -/
def answer (l : Ledger) : Request → Ledger × Answer
  | .save id name w =>
    match l.new? id name w with
    | some script => ({ l with scripts := bounded l.limit (script :: l.scripts) }, .saved script)
    | none => (l, .refused)
  | .delete id =>
    if l.isOpen ∧ id.Encodable then
      ({ l with scripts := l.scripts.filter fun script => decide (script.id ≠ id) },
        .deleted (decide (∃ script ∈ l.scripts, script.id = id)))
    else (l, .refused)
  | .list => (l, if l.isOpen then .listed l.scripts else .refused)
  | .get id =>
    (l, if l.isOpen ∧ id.Encodable then .found (l.scripts.find? fun script => decide (script.id = id))
      else .refused)
  | .close => ({ l with isOpen := false }, .done)
  | .reopen limit => ({ l with limit := limit, isOpen := true }, .done)

/-- The ledger after some requests. -/
def after (l : Ledger) (requests : List Request) : Ledger := requests.foldl (fun l r => (l.answer r).1) l

end Ledger

/-- A request that the shelf can stand: a window that is saved is a checked one whose numbers of decimals
have at most 4300 digits, and a limit has 64 bits. -/
def Request.Proper : Request → Prop
  | .save _ _ w => w.Encodable ∧ w.DecimalsWithin 4300
  | .reopen limit => Schema.fitsWord limit = true
  | _ => True

/-! ### The shelf keeps a ledger -/

/-- A row is read back as a script. -/
def Reads (r : Row) (script : SavedScript) : Prop := r.script? = some script

/-- The shelf keeps what the ledger says: its rows stand in the order of their numbers, all of them are
stored, and from the last one on they are read back as the scripts. -/
structure Keeps (s : Shelf) (l : Ledger) : Prop where
  numbered : Numbered s.rows
  stored : s.stored = s.rows
  reads : List.Forall₂ Reads s.rows.reverse l.scripts
  nodup : (l.scripts.map SavedScript.id).Nodup
  limit : s.limit = .rows l.limit
  isOpen : s.isOpen = l.isOpen

section Reads

variable {rows : List Row} {scripts : List SavedScript} {id : Text}

theorem Reads.id_eq {r : Row} {script : SavedScript} (h : Reads r script) : r.id = script.id := by
  obtain ⟨w, -, rfl⟩ := Option.map_eq_some_iff.1 h
  rfl

theorem map_id_of_reads (h : List.Forall₂ Reads rows scripts) :
    rows.map Row.id = scripts.map SavedScript.id := by
  induction h with
  | nil => rfl
  | cons hr h ih => rw [List.map_cons, List.map_cons, Reads.id_eq hr, ih]

theorem filterMap_script? (h : List.Forall₂ Reads rows scripts) : rows.filterMap Row.script? = scripts := by
  induction h with
  | nil => rfl
  | cons hr h ih => rw [List.filterMap_cons_some hr, ih]

theorem filter_reads (h : List.Forall₂ Reads rows scripts) :
    List.Forall₂ Reads (rows.filter fun r => decide (r.id ≠ id))
      (scripts.filter fun script => decide (script.id ≠ id)) := by
  refine List.rel_filter ?_ h
  intro r script hr
  simp [Reads.id_eq hr]

theorem exists_id_iff (h : List.Forall₂ Reads rows scripts) :
    (∃ r ∈ rows, r.id = id) ↔ ∃ script ∈ scripts, script.id = id := by
  induction h with
  | nil => simp
  | cons hr h ih => simp only [List.exists_mem_cons_iff, ih, Reads.id_eq hr]

theorem find?_reads (h : List.Forall₂ Reads rows scripts) :
    (rows.find? fun r => decide (r.id = id)).bind Row.script?
      = scripts.find? fun script => decide (script.id = id) := by
  induction h with
  | nil => rfl
  | @cons r script rows scripts hr h ih =>
    rw [List.find?_cons, List.find?_cons, Reads.id_eq hr]
    by_cases hid : script.id = id
    · simp only [hid, decide_true, Option.bind_some]
      exact hr
    · simpa only [hid, decide_false] using ih

/-- Where ids are told apart, it does not matter from which end one is looked for. -/
theorem find?_reverse_of_nodup (h : (scripts.map SavedScript.id).Nodup) :
    (scripts.reverse.find? fun script => decide (script.id = id))
      = scripts.find? fun script => decide (script.id = id) := by
  induction scripts with
  | nil => rfl
  | cons script scripts ih =>
    rw [List.map_cons, List.nodup_cons] at h
    rw [List.reverse_cons, List.find?_append, ih h.2, List.find?_cons]
    by_cases hid : script.id = id
    · have hnone : (scripts.find? fun script => decide (script.id = id)) = none := by
        rw [List.find?_eq_none]
        intro other hother
        have hne : other.id ≠ script.id := fun heq => h.1 (heq ▸ List.mem_map_of_mem hother)
        simpa [hid] using hne
      simp [hid, hnone]
    · simp [hid]

end Reads

/-! ### Requests -/

/-- Nothing has changed that a later request could show, but for the failure that it may report. -/
structure Unchanged (s s' : Shelf) : Prop where
  rows : s'.rows = s.rows
  stored : s'.stored = s.stored
  limit : s'.limit = s.limit
  isOpen : s'.isOpen = s.isOpen

variable {s s' : Shelf} {l : Ledger} {id : Text}

theorem unchanged_prepare (s : Shelf) (q : Question) : s.Unchanged (s.prepare q) := by
  unfold prepare
  split <;> exact ⟨rfl, rfl, rfl, rfl⟩

theorem Keeps.of_unchanged (h : s.Keeps l) (hs : s.Unchanged s') : s'.Keeps l where
  numbered := hs.rows ▸ h.numbered
  stored := by rw [hs.stored, hs.rows, h.stored]
  reads := hs.rows ▸ h.reads
  nodup := h.nodup
  limit := hs.limit.trans h.limit
  isOpen := hs.isOpen.trans h.isOpen

/-- Some rows are kept, and the scripts that they are read back as. -/
theorem Keeps.store (h : s.Keeps l) {rows : List Row} {scripts : List SavedScript} (hrows : Numbered rows)
    (hreads : List.Forall₂ Reads rows.reverse scripts) (hnodup : (scripts.map SavedScript.id).Nodup) :
    (s.settle.store rows).Keeps { l with scripts := scripts } where
  numbered := hrows
  stored := rfl
  reads := hreads
  nodup := hnodup
  limit := h.limit
  isOpen := h.isOpen

/-! #### Saving -/

theorem bounded_sublist {α : Type} (limit : ℤ) (items : List α) : (bounded limit items).Sublist items := by
  unfold bounded
  split
  · exact List.Sublist.refl _
  · exact List.take_sublist _ _

theorem forall₂_bounded {rows : List Row} {scripts : List SavedScript} (h : List.Forall₂ Reads rows scripts)
    (limit : ℤ) : List.Forall₂ Reads (bounded limit rows) (bounded limit scripts) := by
  unfold bounded
  split
  · exact h
  · exact List.forall₂_take _ h

namespace Ledger

theorem new?_eq_some {name : Value} {w : Window} {script : SavedScript} :
    l.new? id name w = some script ↔ ∃ t, name = .text t ∧ l.isOpen = true ∧ t.Encodable ∧ id.Encodable ∧
      (∀ script ∈ l.scripts, script.id ≠ id) ∧ script = ⟨id, t, w⟩ := by
  unfold new?
  constructor
  · intro h
    obtain ⟨t, ht, rfl⟩ := Option.map_eq_some_iff.1 h
    obtain ⟨hname, hfit⟩ := Option.filter_eq_some_iff.1 ht
    cases name with
    | text t' =>
      cases hname
      simp only [Bool.and_eq_true, decide_eq_true_eq] at hfit
      obtain ⟨⟨⟨hopen, ht⟩, hid⟩, hnew⟩ := hfit
      exact ⟨t, rfl, hopen, ht, hid, hnew, rfl⟩
    | _ => cases hname
  · rintro ⟨t, rfl, hopen, ht, hid, hnew, rfl⟩
    refine Option.map_eq_some_iff.2 ⟨t, Option.filter_eq_some_iff.2 ⟨rfl, ?_⟩, rfl⟩
    simp only [Bool.and_eq_true, decide_eq_true_eq]
    exact ⟨⟨⟨hopen, ht⟩, hid⟩, hnew⟩

end Ledger

theorem readScript_window (name : Value) (w : Window) :
    (∃ t, name = .text t ∧ readScript name (.window w) = .ok (t, w)) ∨
      name.text? = none ∧ ∃ r, readScript name (.window w) = .error r := by
  cases name with
  | text t => exact .inl ⟨t, rfl, rfl⟩
  | _ => exact .inr ⟨rfl, _, rfl⟩

/-- A save that the ledger takes puts a row at the end of the table, and prunes. -/
theorem Keeps.save_eq (h : s.Keeps l) {name : Value} {w : Window} {script : SavedScript}
    (hnew : l.new? id name w = some script) :
    s.save id name (.window w) = (s.settle.store (prune l.limit
      (s.rows ++ [⟨nextNumber s.rows, script.id, script.name, script.window.canonical⟩])), .ok script) := by
  obtain ⟨t, rfl, hopen, ht, hid, hother, rfl⟩ := Ledger.new?_eq_some.1 hnew
  have hread : readScript (.text t) (.window w) = .ok (t, w) := rfl
  have hnone : (s.rows.any fun r => decide (r.id = id)) = false := by
    rw [List.any_eq_false]
    intro r hr heq
    obtain ⟨script, hscript, hscriptId⟩ := (exists_id_iff h.reads).1
      ⟨r, List.mem_reverse.2 hr, of_decide_eq_true heq⟩
    exact hother script hscript hscriptId
  rw [save, hread]
  simp only [h.isOpen, hopen, Bool.not_true, Bool.false_eq_true, if_false,
    Text.firstSurrogates?_eq_none_iff.2 hid, Text.firstSurrogates?_eq_none_iff.2 ht]
  simp only [insert, settle, hnone, Bool.false_eq_true, if_false, h.limit]

/-- Any other save ends in a fault, and changes nothing. -/
theorem Keeps.save_refused (h : s.Keeps l) {name : Value} {w : Window} (hnew : l.new? id name w = none) :
    ∃ s' f, s.save id name (.window w) = (s', .error f) ∧ s.Unchanged s' := by
  rcases readScript_window name w with ⟨t, rfl, hread⟩ | ⟨-, r, hread⟩
  · rw [save, hread]
    dsimp only
    by_cases hopen : s.isOpen = true
    · rw [hopen, Bool.not_true, if_neg Bool.false_ne_true]
      split
      · exact ⟨_, _, rfl, rfl, rfl, rfl, rfl⟩
      · exact ⟨_, _, rfl, rfl, rfl, rfl, rfl⟩
      · next hid ht =>
        -- nothing but the id can be wrong here, so a row has it
        have htaken : (s.settle.rows.any fun r => decide (r.id = id)) = true := by
          by_contra hfree
          rw [Bool.not_eq_true, List.any_eq_false] at hfree
          have hother : ∀ script ∈ l.scripts, script.id ≠ id := by
            intro script hscript heq
            obtain ⟨r, hr, hrid⟩ := (exists_id_iff h.reads).2 ⟨script, hscript, heq⟩
            exact hfree r (List.mem_reverse.1 hr) (decide_eq_true hrid)
          have hsome : l.new? id (.text t) w = some ⟨id, t, w⟩ :=
            Ledger.new?_eq_some.2 ⟨t, rfl, h.isOpen ▸ hopen, Text.firstSurrogates?_eq_none_iff.1 ht,
              Text.firstSurrogates?_eq_none_iff.1 hid, hother, rfl⟩
          rw [hnew] at hsome
          cases hsome
        rw [insert, if_pos htaken]
        exact ⟨_, _, rfl, rfl, rfl, rfl, rfl⟩
    · rw [Bool.not_eq_true] at hopen
      rw [hopen, Bool.not_false, if_pos rfl]
      exact ⟨s, _, rfl, rfl, rfl, rfl, rfl⟩
  · rw [save, hread]
    exact ⟨s, _, rfl, rfl, rfl, rfl, rfl⟩

theorem Keeps.save (h : s.Keeps l) {name : Value} {w : Window} (hw : w.Encodable)
    (hdecimals : w.DecimalsWithin 4300) :
    (s.answer (.save id name w)).1.Keeps (l.answer (.save id name w)).1 ∧
      (s.answer (.save id name w)).2 = (l.answer (.save id name w)).2 := by
  cases hnew : l.new? id name w with
  | none =>
    obtain ⟨s', f, hsave, hs⟩ := h.save_refused hnew
    simp only [answer, Ledger.answer, hsave, hnew]
    exact ⟨h.of_unchanged hs, rfl⟩
  | some script =>
    obtain ⟨t, -, -, -, -, hother, rfl⟩ := Ledger.new?_eq_some.1 hnew
    simp only [answer, Ledger.answer, h.save_eq hnew, hnew]
    refine ⟨h.store ?_ ?_ ?_, rfl⟩
    · exact List.Pairwise.sublist (prune_sublist _ _) (h.numbered.append _ _ _)
    · rw [reverse_prune (h.numbered.append _ _ _), List.reverse_append]
      refine forall₂_bounded (.cons ?_ h.reads) l.limit
      have hread : Window.ofJson? Row.limits w.canonical = some w :=
        Window.ofJson?_canonical Row.limits hw (by decide) hdecimals
      rw [Reads, Row.script?, hread, Option.map_some]
    · refine List.Nodup.sublist ((bounded_sublist _ _).map _) ?_
      rw [List.map_cons, List.nodup_cons]
      refine ⟨fun hmem => ?_, h.nodup⟩
      obtain ⟨script, hscript, heq⟩ := List.mem_map.1 hmem
      exact hother script hscript heq

/-! #### Searching and the rest -/

theorem idText?_text (hid : id.Encodable) : idText? (.text id) = .ok (some id) := by
  rw [idText?, Text.firstSurrogates?_eq_none_iff.2 hid]

/-- A question with an id that is a text is answered on an open shelf if the id is encodable. -/
theorem ask_eq (hopen : s.isOpen = true) (hid : id.Encodable) (q : Question) :
    s.ask q (.text id) = ((s.prepare q).settle, .ok (some id)) := by
  rw [ask, hopen, Bool.not_true, if_neg Bool.false_ne_true, idText?_text hid]

theorem ask_refused (h : ¬ (s.isOpen = true ∧ id.Encodable)) (q : Question) :
    ∃ s' f, s.ask q (.text id) = (s', .error f) ∧ s.Unchanged s' := by
  by_cases hopen : s.isOpen = true
  · have hid : ¬ id.Encodable := fun hid => h ⟨hopen, hid⟩
    rw [← Text.firstSurrogates?_eq_none_iff] at hid
    obtain ⟨refusal, hrefusal⟩ := Option.ne_none_iff_exists'.1 hid
    rw [ask, hopen, Bool.not_true, if_neg Bool.false_ne_true, idText?, hrefusal]
    exact ⟨_, _, rfl, unchanged_prepare s q⟩
  · rw [Bool.not_eq_true] at hopen
    rw [ask, hopen, Bool.not_false, if_pos rfl]
    exact ⟨s, _, rfl, rfl, rfl, rfl, rfl⟩

theorem Keeps.delete (h : s.Keeps l) (id : Text) :
    (s.answer (.delete id)).1.Keeps (l.answer (.delete id)).1 ∧
      (s.answer (.delete id)).2 = (l.answer (.delete id)).2 := by
  by_cases hfit : s.isOpen = true ∧ id.Encodable
  · obtain ⟨hopen, hid⟩ := hfit
    obtain ⟨hrows, hstored, hlimit, hisOpen⟩ := unchanged_prepare s .remove
    have hk : (s.prepare .remove).Keeps l := h.of_unchanged ⟨hrows, hstored, hlimit, hisOpen⟩
    have hfilter : (s.prepare .remove).settle.rows.filter (fun r => decide (some r.id ≠ some id))
        = s.rows.filter fun r => decide (r.id ≠ id) := by simp [settle, hrows]
    have hany : ((s.prepare .remove).settle.rows.any fun r => decide (some r.id = some id))
        = decide (∃ script ∈ l.scripts, script.id = id) := by
      rw [Bool.eq_iff_iff, List.any_eq_true, decide_eq_true_eq, ← exists_id_iff h.reads]
      simp [settle, hrows]
    have hl : l.isOpen = true ∧ id.Encodable := ⟨h.isOpen ▸ hopen, hid⟩
    simp only [answer, Shelf.delete, ask_eq hopen hid, Ledger.answer, if_pos hl, hfilter, hany]
    refine ⟨hk.store ?_ ?_ ?_, rfl⟩
    · exact List.Pairwise.sublist List.filter_sublist h.numbered
    · rw [← List.filter_reverse]
      exact filter_reads h.reads
    · exact List.Nodup.sublist (List.filter_sublist.map _) h.nodup
  · obtain ⟨s', f, hask, hs⟩ := ask_refused hfit .remove
    rw [h.isOpen] at hfit
    simp only [answer, Shelf.delete, hask, Ledger.answer, hfit, if_false]
    exact ⟨h.of_unchanged hs, rfl⟩

theorem Keeps.get (h : s.Keeps l) (id : Text) :
    (s.answer (.get id)).1.Keeps (l.answer (.get id)).1 ∧
      (s.answer (.get id)).2 = (l.answer (.get id)).2 := by
  by_cases hfit : s.isOpen = true ∧ id.Encodable
  · obtain ⟨hopen, hid⟩ := hfit
    have hprepared := unchanged_prepare s .find
    have hfind : ((s.rows.find? fun r => decide (r.id = id)).bind Row.script?)
        = l.scripts.find? fun script => decide (script.id = id) := by
      have hreads : List.Forall₂ Reads s.rows l.scripts.reverse := by
        rw [← List.forall₂_reverse_iff, List.reverse_reverse]
        exact h.reads
      rw [find?_reads hreads, find?_reverse_of_nodup h.nodup]
    have hl : l.isOpen = true ∧ id.Encodable := ⟨h.isOpen ▸ hopen, hid⟩
    simp only [answer, Shelf.get, ask_eq hopen hid, Ledger.answer, if_pos hl]
    refine ⟨h.of_unchanged ⟨hprepared.rows, hprepared.stored, hprepared.limit, hprepared.isOpen⟩, ?_⟩
    rw [← hfind]
    simp [Answer.ofResult, Except.map, settle, hprepared.rows]
  · obtain ⟨s', f, hask, hs⟩ := ask_refused hfit .find
    rw [h.isOpen] at hfit
    simp only [answer, Shelf.get, hask, Ledger.answer, hfit, if_false]
    exact ⟨h.of_unchanged hs, rfl⟩

theorem Keeps.list (h : s.Keeps l) :
    (s.answer .list).1.Keeps (l.answer .list).1 ∧ (s.answer .list).2 = (l.answer .list).2 := by
  by_cases hopen : s.isOpen = true
  · simp only [answer, Shelf.list, Ledger.answer, hopen, h.isOpen ▸ hopen, if_true,
      newestFirst_eq_reverse h.numbered, filterMap_script? h.reads]
    exact ⟨h.of_unchanged ⟨rfl, rfl, rfl, rfl⟩, rfl⟩
  · rw [Bool.not_eq_true] at hopen
    simp only [answer, Shelf.list, Ledger.answer, hopen, h.isOpen ▸ hopen, Bool.false_eq_true, if_false]
    exact ⟨h, rfl⟩

theorem Limit.ofValue_int {n : ℤ} (h : Schema.fitsWord n = true) : Limit.ofValue (.int n) = .rows n :=
  if_pos h

/-- **Each request does to the shelf what it does to the ledger**, and is answered the same. -/
theorem Keeps.answer (h : s.Keeps l) {r : Request} (hr : r.Proper) :
    (s.answer r).1.Keeps (l.answer r).1 ∧ (s.answer r).2 = (l.answer r).2 := by
  have hnumbered : Numbered s.stored := by rw [h.stored]; exact h.numbered
  have hreads : List.Forall₂ Reads s.stored.reverse l.scripts := by rw [h.stored]; exact h.reads
  cases r with
  | save id name w => exact h.save hr.1 hr.2
  | delete id => exact h.delete id
  | list => exact h.list
  | get id => exact h.get id
  | close => exact ⟨⟨hnumbered, rfl, hreads, h.nodup, h.limit, rfl⟩, rfl⟩
  | reopen limit => exact ⟨⟨hnumbered, rfl, hreads, h.nodup, Limit.ofValue_int hr, rfl⟩, rfl⟩

theorem Keeps.after (h : s.Keeps l) {requests : List Request} (hrequests : ∀ r ∈ requests, r.Proper) :
    (s.after requests).Keeps (l.after requests) := by
  induction requests generalizing s l with
  | nil => exact h
  | cons r requests ih =>
    rw [List.forall_mem_cons] at hrequests
    exact ih (h.answer hrequests.1).1 hrequests.2

theorem keeps_empty {limit : ℤ} (h : Schema.fitsWord limit = true) :
    (empty (.ofValue (.int limit))).Keeps (.empty limit) where
  numbered := List.Pairwise.nil
  stored := rfl
  reads := .nil
  nodup := List.nodup_nil
  limit := Limit.ofValue_int h
  isOpen := rfl

/-! ### Runs -/

namespace Ledger

/-- A script of a ledger after a request was there before, or is the one that is saved. -/
theorem scripts_answer (l : Ledger) (r : Request) : ∀ script ∈ (l.answer r).1.scripts,
    script ∈ l.scripts ∨ r = .save script.id (.text script.name) script.window := by
  intro script hscript
  cases r with
  | save id name w =>
    simp only [answer] at hscript
    split at hscript
    · next new hnew =>
      rcases List.mem_cons.1 ((bounded_sublist _ _).subset hscript) with rfl | hold
      · obtain ⟨t, rfl, -, -, -, -, rfl⟩ := new?_eq_some.1 hnew
        exact .inr rfl
      · exact .inl hold
    · exact .inl hscript
  | delete id =>
    simp only [answer] at hscript
    split at hscript
    · exact .inl (List.mem_of_mem_filter hscript)
    · exact .inl hscript
  | _ => exact .inl hscript

/-- The scripts of a ledger are those that have been saved. -/
theorem scripts_after (l : Ledger) (requests : List Request) : ∀ script ∈ (l.after requests).scripts,
    script ∈ l.scripts ∨ .save script.id (.text script.name) script.window ∈ requests := by
  induction requests generalizing l with
  | nil => exact fun script hscript => .inl hscript
  | cons r requests ih =>
    intro script hscript
    rcases ih (l.answer r).1 script hscript with hold | hlater
    · rcases l.scripts_answer r script hold with hold | rfl
      · exact .inl hold
      · exact .inr List.mem_cons_self
    · exact .inr (List.mem_cons_of_mem r hlater)

end Ledger

/-- **The shelf of saved scripts is a bounded list.** Take any requests of an empty shelf, with limits of 64
bits. Every further request is answered as the ledger after the same requests answers it, where a save puts
the script in front and keeps so many as the limit says, a deletion takes out what has the id, and a request
that is refused changes nothing. So what is listed on an open shelf is the ledger, and what is found with an
id is the script that is listed under it. No two rows have one id, closing and opening again loses no row,
and each script is listed with the very window that it was saved with. -/
theorem answers_of_ledger {limit : ℤ} (hlimit : Schema.fitsWord limit = true) {requests : List Request}
    (hrequests : ∀ r ∈ requests, r.Proper) :
    let s := (empty (.ofValue (.int limit))).after requests
    let l := (Ledger.empty limit).after requests
    (∀ r : Request, r.Proper → (s.answer r).2 = (l.answer r).2) ∧
    (s.isOpen = l.isOpen ∧ (l.isOpen = true → s.list.2 = .ok l.scripts)) ∧
    (∀ id : Text, l.isOpen = true → id.Encodable →
      (s.get (.text id)).2 = .ok (l.scripts.find? fun script => decide (script.id = id))) ∧
    ((s.rows.map Row.id).Nodup ∧ s.stored = s.rows) ∧
    ∀ script ∈ l.scripts, .save script.id (.text script.name) script.window ∈ requests := by
  intro s l
  have hk : s.Keeps l := (keeps_empty hlimit).after hrequests
  refine ⟨fun r hr => (hk.answer hr).2, ⟨hk.isOpen, fun hopen => ?_⟩, fun id hopen hid => ?_, ⟨?_, hk.stored⟩,
    fun script hscript => ?_⟩
  · rw [list, if_pos (hk.isOpen.trans hopen), newestFirst_eq_reverse hk.numbered, filterMap_script? hk.reads]
  · have hget := (hk.get id).2
    simp only [answer, Ledger.answer, if_pos (And.intro hopen hid)] at hget
    cases hresult : (s.get (.text id)).2 with
    | ok script =>
      rw [hresult] at hget
      rw [Answer.found.inj hget]
    | error f =>
      rw [hresult] at hget
      cases hget
  · have hids : (s.rows.map Row.id).reverse = l.scripts.map SavedScript.id := by
      rw [← List.map_reverse]
      exact map_id_of_reads hk.reads
    rw [← List.nodup_reverse, hids]
    exact hk.nodup
  · rcases (Ledger.empty limit).scripts_after requests script hscript with hold | hsaved
    · cases hold
    · exact hsaved

/-- The newest script is deleted and its number taken again; the shelf is closed and opened again with a
smaller limit, and an id is saved twice. -/
def reopeningRequests : List Request :=
  [.save "a" (.text "A") ⟨"One", []⟩, .save "b" (.text "B") ⟨"Two", []⟩, .delete "b",
    .save "c" (.text "C") ⟨"Three", []⟩, .close, .reopen 2, .save "c" (.text "D") ⟨"Four", []⟩,
    .save "e" (.text "E") ⟨"Five", []⟩]

theorem answers_of_ledger_reopening :
    Schema.fitsWord 3 = true ∧ (∀ r ∈ reopeningRequests, r.Proper) ∧
    ((empty (.ofValue (.int 3))).after reopeningRequests).list.2
      = .ok [⟨"e", "E", ⟨"Five", []⟩⟩, ⟨"c", "C", ⟨"Three", []⟩⟩] := by
  have hwindow (title : String) : (⟨Text.ofString title, []⟩ : Window).Encodable ∧
      (⟨Text.ofString title, []⟩ : Window).DecimalsWithin 4300 :=
    ⟨⟨Text.encodable_ofString title, nofun⟩, nofun⟩
  have hproper : ∀ r ∈ reopeningRequests, r.Proper := by
    simp only [reopeningRequests, List.forall_mem_cons, Request.Proper]
    exact ⟨hwindow _, hwindow _, trivial, hwindow _, trivial, by decide, hwindow _, hwindow _, nofun⟩
  have h := @answers_of_ledger 3 (by decide) _ hproper
  exact ⟨by decide, hproper, h.2.1.2 (by decide)⟩

end Shelf

end GuiBuilder
