import GuiBuilder.Proofs.Analysis.Report
import GuiBuilder.Proofs.Text.Lines

/-!
# Balanced parentheses

Parentheses are balanced when they come in pairs, one inside of another or one after another
(`Text.Balanced`). That is so exactly if there are as many of both kinds and no beginning of the text closes
more of them than it opens (`Text.balanced_iff`), as a scan from left to right shows that keeps the number of
those that are open (`Text.openAfter`).

The analysis only compares the two numbers. Whatever it reports is not balanced, but where a parenthesis is
closed before it is opened, and opened later, the numbers agree and nothing is reported
(`Window.parentheses_reported_unless_closed_early`).
-/

namespace GuiBuilder

namespace Text

/-- The parentheses of a text come in pairs. -/
inductive Balanced : Text → Prop where
  | nil : Balanced []
  /-- A code point that is no parenthesis. -/
  | other {p : CodePoint} {t : Text} (hopen : p ≠ .char '(') (hclose : p ≠ .char ')') (ht : Balanced t) :
      Balanced (p :: t)
  /-- A pair of parentheses, with balanced texts inside of it and behind it. -/
  | pair {t u : Text} (ht : Balanced t) (hu : Balanced u) : Balanced (.char '(' :: (t ++ .char ')' :: u))

/-- Some beginning of a text closes more parentheses than it opens. -/
def ClosesEarly (t : Text) : Prop := ∃ u, u <+: t ∧ u.count (.char '(') < u.count (.char ')')

/-- How many parentheses are open after a text, if so many are open before it; none where one is closed that
is not open. -/
def openAfter : ℕ → Text → Option ℕ
  | n, [] => some n
  | n, p :: t =>
    if p = .char '(' then openAfter (n + 1) t
    else if p = .char ')' then if n = 0 then none else openAfter (n - 1) t
    else openAfter n t

variable {m n : ℕ} {p : CodePoint} {t u : Text}

/-! ### The scan -/

theorem openAfter_open (n : ℕ) (t : Text) : openAfter n (.char '(' :: t) = openAfter (n + 1) t := by
  rw [openAfter, if_pos rfl]

theorem openAfter_close (n : ℕ) (t : Text) : openAfter (n + 1) (.char ')' :: t) = openAfter n t := by
  rw [openAfter, if_neg (by decide), if_pos rfl, if_neg n.succ_ne_zero, Nat.add_sub_cancel]

theorem openAfter_zero_close (t : Text) : openAfter 0 (.char ')' :: t) = none := by
  rw [openAfter, if_neg (by decide), if_pos rfl, if_pos rfl]

theorem openAfter_other (hopen : p ≠ .char '(') (hclose : p ≠ .char ')') (n : ℕ) (t : Text) :
    openAfter n (p :: t) = openAfter n t := by
  rw [openAfter, if_neg hopen, if_neg hclose]

/-- The scan counts, where no beginning closes what is not open. -/
theorem openAfter_eq_some_iff : openAfter n t = some m ↔
    n + t.count (.char '(') = m + t.count (.char ')') ∧
    ∀ u, u <+: t → u.count (.char ')') ≤ n + u.count (.char '(') := by
  induction t generalizing n with
  | nil => simp [openAfter]
  | cons p t ih =>
    rw [forall_prefix_cons]
    by_cases hopen : p = .char '('
    · have hclose : p ≠ .char ')' := by
        rw [hopen]
        decide
      rw [hopen, openAfter_open, ih]
      simp [hopen ▸ hclose, Nat.add_assoc, Nat.add_comm 1]
    · by_cases hclose : p = .char ')'
      · have hne : CodePoint.char ')' ≠ .char '(' := by decide
        cases n with
        | zero =>
          rw [hclose, openAfter_zero_close]
          refine iff_of_false nofun fun h => ?_
          have hfirst := h.2.2 [] List.nil_prefix
          simp [hne] at hfirst
        | succ n =>
          have hcount : n + t.count (.char '(') = m + t.count (.char ')') ↔
              n + 1 + t.count (.char '(') = m + (t.count (.char ')') + 1) := by omega
          rw [hclose, openAfter_close, ih, hcount]
          simp only [List.count_cons_self, List.count_cons_of_ne hne, List.count_nil, Nat.zero_le, true_and]
          refine and_congr_right fun _ => forall_congr' fun u => imp_congr_right fun _ => ?_
          omega
      · rw [openAfter_other hopen hclose, ih]
        simp [hopen, hclose]

/-- The scan stops where a beginning closes what is not open. -/
theorem closesEarly_iff : t.ClosesEarly ↔ openAfter 0 t = none := by
  rw [← not_iff_not, ← ne_eq (openAfter 0 t), Option.ne_none_iff_exists']
  simp only [openAfter_eq_some_iff, ClosesEarly, not_exists, not_and, Nat.not_lt, Nat.zero_add,
    exists_and_right, iff_and_self]
  intro h
  have hle := h t (List.prefix_refl t)
  exact ⟨t.count (.char '(') - t.count (.char ')'), by omega⟩

instance : DecidablePred ClosesEarly := fun _ => decidable_of_iff _ closesEarly_iff.symm

/-! ### Pairs -/

/-- A balanced text leaves as many parentheses open as were open before it. -/
theorem Balanced.openAfter_append (h : t.Balanced) (n : ℕ) (rest : Text) :
    openAfter n (t ++ rest) = openAfter n rest := by
  induction h generalizing n rest with
  | nil => rfl
  | other hopen hclose ht ih => rw [List.cons_append, openAfter_other hopen hclose, ih]
  | pair ht hu iht ihu =>
    rw [List.cons_append, List.append_assoc, openAfter_open, iht, List.cons_append, openAfter_close, ihu]

/-- A text that closes one parenthesis more than it opens closes the last one that is open behind a balanced
text. -/
theorem exists_balanced_of_openAfter (h : openAfter (n + 1) t = some 0) :
    ∃ inside rest, t = inside ++ .char ')' :: rest ∧ Balanced inside ∧ openAfter n rest = some 0 := by
  induction hlength : t.length using Nat.strong_induction_on generalizing t n with
  | _ length ih =>
    subst hlength
    cases t with
    | nil => cases h
    | cons p t =>
      by_cases hopen : p = .char '('
      · -- the parenthesis that is opened here is closed first, and then the other one
        rw [hopen, openAfter_open] at h
        obtain ⟨inside, rest, rfl, hinside, hrest⟩ := ih _ (Nat.lt_succ_self _) h rfl
        obtain ⟨inside', rest', rfl, hinside', hrest'⟩ := ih _ (by simp; omega) hrest rfl
        exact ⟨.char '(' :: (inside ++ .char ')' :: inside'), rest', by simp [hopen],
          .pair hinside hinside', hrest'⟩
      · by_cases hclose : p = .char ')'
        · rw [hclose, openAfter_close] at h
          exact ⟨[], t, by rw [hclose, List.nil_append], .nil, h⟩
        · rw [openAfter_other hopen hclose] at h
          obtain ⟨inside, rest, rfl, hinside, hrest⟩ := ih _ (Nat.lt_succ_self _) h rfl
          exact ⟨p :: inside, rest, rfl, .other hopen hclose hinside, hrest⟩

theorem balanced_of_openAfter (h : openAfter 0 t = some 0) : t.Balanced := by
  induction hlength : t.length using Nat.strong_induction_on generalizing t with
  | _ length ih =>
    subst hlength
    cases t with
    | nil => exact .nil
    | cons p t =>
      by_cases hopen : p = .char '('
      · rw [hopen, openAfter_open] at h
        obtain ⟨inside, rest, rfl, hinside, hrest⟩ := exists_balanced_of_openAfter h
        rw [hopen]
        exact .pair hinside (ih _ (by simp; omega) hrest rfl)
      · by_cases hclose : p = .char ')'
        · rw [hclose, openAfter_zero_close] at h
          cases h
        · rw [openAfter_other hopen hclose] at h
          exact .other hopen hclose (ih _ (Nat.lt_succ_self _) h rfl)

theorem balanced_iff_openAfter : t.Balanced ↔ openAfter 0 t = some 0 := by
  refine ⟨fun h => ?_, balanced_of_openAfter⟩
  have hscan := h.openAfter_append 0 []
  rwa [List.append_nil] at hscan

instance : DecidablePred Balanced := fun _ => decidable_of_iff _ balanced_iff_openAfter.symm

/-- **Balanced texts have as many parentheses of both kinds, and close none early.** -/
theorem balanced_iff : t.Balanced ↔ t.count (.char '(') = t.count (.char ')') ∧ ¬ t.ClosesEarly := by
  rw [balanced_iff_openAfter, openAfter_eq_some_iff]
  simp only [Nat.zero_add, ClosesEarly, not_exists, not_and, Nat.not_lt]

end Text

/-! ### What is reported -/

/-- The issue about the parentheses of an element. -/
def Element.parenthesesIssue (e : Element) : Issue := ⟨.unevenParentheses e.text, e.id⟩

namespace Window

/-- The issues are made of one block for each element, in document order. -/
theorem exists_blocks (seen : List Text) (l : List (Folder × Element)) :
    ∃ blocks : List (List Issue), issuesAfter seen l = blocks.flatten ∧
      List.Forall₂ (fun placed block => ∃ seen,
        block = (placed.2.findings seen placed.1).map (Issue.mk · placed.2.id)) l blocks := by
  induction l generalizing seen with
  | nil => exact ⟨[], rfl, .nil⟩
  | cons placed l ih =>
    obtain ⟨f, e⟩ := placed
    obtain ⟨blocks, hissues, hblocks⟩ := ih (e.givenFlag?.toList ++ seen)
    exact ⟨_ :: blocks, by rw [issuesAfter, hissues, List.flatten_cons], .cons ⟨seen, rfl⟩ hblocks⟩

/-- The issue about its parentheses is in the block of an element if their numbers differ. -/
theorem parenthesesIssue_mem (seen : List Text) (f : Folder) (e : Element) :
    e.parenthesesIssue ∈ (e.findings seen f).map (Issue.mk · e.id) ↔
      ∃ t ∈ e.logic, t.count (.char '(') ≠ t.count (.char ')') := by
  have hmem : e.parenthesesIssue ∈ (e.findings seen f).map (Issue.mk · e.id) ↔
      0 < ((e.findings seen f).map (Issue.mk · e.id)).countP fun issue => issue = e.parenthesesIssue := by
    simp only [List.countP_pos_iff, decide_eq_true_eq, exists_eq_right]
  rw [hmem, countP_findings, ← Element.hasUnevenParentheses_iff]
  cases e.hasUnevenParentheses <;> simp [Element.parenthesesIssue]

/-- **Unbalanced parentheses are reported unless one is closed early.** -/
theorem parentheses_reported_unless_closed_early (w : Window) :
    ∃ blocks : List (List Issue), w.issues = blocks.flatten ∧
      List.Forall₂ (fun placed block =>
        (∀ issue ∈ block, issue.element = placed.2.id) ∧
        (placed.2.logic = none → placed.2.parenthesesIssue ∉ block) ∧
        ∀ t, placed.2.logic = some t →
          (placed.2.parenthesesIssue ∈ block ↔ t.count (.char '(') ≠ t.count (.char ')')) ∧
          (¬ t.Balanced ↔ t.count (.char '(') ≠ t.count (.char ')') ∨ t.ClosesEarly) ∧
          (¬ t.ClosesEarly → (placed.2.parenthesesIssue ∈ block ↔ ¬ t.Balanced)))
        w.placedElements blocks := by
  obtain ⟨blocks, hissues, hblocks⟩ := exists_blocks [] w.placedElements
  refine ⟨blocks, hissues, hblocks.imp ?_⟩
  rintro ⟨f, e⟩ _ ⟨seen, rfl⟩
  refine ⟨List.forall_mem_map.2 fun _ _ => rfl, fun hnone => ?_, fun t ht => ?_⟩
  · rw [parenthesesIssue_mem, hnone]
    rintro ⟨t, ⟨⟩, -⟩
  · have hreported : e.parenthesesIssue ∈ (e.findings seen f).map (Issue.mk · e.id) ↔
        t.count (.char '(') ≠ t.count (.char ')') := by
      rw [parenthesesIssue_mem, show e.logic = some t from ht]
      simp
    have hbalanced : ¬ t.Balanced ↔ t.count (.char '(') ≠ t.count (.char ')') ∨ t.ClosesEarly := by
      rw [Text.balanced_iff, not_and_or, not_not]
    refine ⟨hreported, hbalanced, fun hearly => ?_⟩
    rw [hreported, hbalanced, or_iff_left hearly]

/-- A window with one button, that has some logic. -/
def buttonWindow (logic : Text) : Window := ⟨"T", [⟨"f1", "Main", [⟨"e1", "Go", some logic, .button⟩]⟩]⟩

/-- A parenthesis that is left open is reported. -/
theorem parentheses_reported_unless_closed_early_open :
    ¬ Text.ClosesEarly "print((1)" ∧ ⟨.unevenParentheses "Go", "e1"⟩ ∈ (buttonWindow "print((1)").issues := by
  have hearly : ¬ Text.ClosesEarly "print((1)" := by decide
  obtain ⟨blocks, hissues, hblocks⟩ := parentheses_reported_unless_closed_early (buttonWindow "print((1)")
  cases hblocks with
  | cons hblock hrest =>
    obtain ⟨-, -, hreported⟩ := hblock
    have hmem := ((hreported "print((1)" rfl).2.2 hearly).2 (by decide)
    rw [hissues, List.flatten_cons]
    exact ⟨hearly, List.mem_append_left _ hmem⟩

/-- One that is closed before it is opened is not. -/
theorem closed_early_not_reported : (buttonWindow ")(").issues = [] ∧ ¬ Text.Balanced ")(" := by
  exact ⟨by decide, by decide⟩

end Window

end GuiBuilder
