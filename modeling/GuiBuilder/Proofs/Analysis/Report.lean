import GuiBuilder.Analysis
import Mathlib.Data.Finset.Card
import Mathlib.Data.List.Perm.Basic

/-!
# What the analysis reports

The analysis goes through the elements with the flags that it has seen so far. Here it is compared with
what is to be found about an element on its own, given the elements before it (`Finding.Holds`): the issues
are these findings and nothing else, in document order (`issuesAfter_eq`).

How many duplicate flags are found is said without the order of the elements: together with the flags that
are distinct, the duplicates are all flags that are given (`countP_duplicates_add_card`). Hence a flag has
one issue fewer than it has uses, and nothing is reported exactly where nothing is wrong with any element
and no flag has a second use (`issues_exact`).
-/

namespace GuiBuilder

/-! ### What is to be found -/

/-- What a finding is about. -/
inductive Concern where
  | flag
  | text
  | logic
deriving DecidableEq

namespace Finding

def concern : Finding → Concern
  | duplicateFlag .. => .flag
  | blankText _ => .text
  | unevenParentheses _ => .logic

/-- Whether a finding is right about an element that has some elements before it. -/
def Holds (before : List Element) (e : Element) : Finding → Prop
  | duplicateFlag flag _ => flag ≠ [] ∧ e.flag? = some flag ∧ ∃ d ∈ before, d.flag? = some flag
  | blankText _ => ∀ p ∈ e.text, p.isBlank = true
  | unevenParentheses _ => ∃ t ∈ e.logic, t.count (.char '(') ≠ t.count (.char ')')

instance (before : List Element) (e : Element) : DecidablePred (Holds before e)
  | duplicateFlag flag _ =>
    inferInstanceAs (Decidable (flag ≠ [] ∧ e.flag? = some flag ∧ ∃ d ∈ before, d.flag? = some flag))
  | blankText _ => inferInstanceAs (Decidable (∀ p ∈ e.text, p.isBlank = true))
  | unevenParentheses _ =>
    inferInstanceAs (Decidable (∃ t ∈ e.logic, t.count (.char '(') ≠ t.count (.char ')')))

end Finding

/-- All that can be found about an element of a folder, in the order of the report. -/
def Element.possibleFindings (f : Folder) (e : Element) : List Finding :=
  e.flag?.toList.map (.duplicateFlag · e.text) ++ [.blankText f.text, .unevenParentheses e.text]

/-! ### The findings about an element -/

theorem Text.isBlank_iff {t : Text} : t.isBlank = true ↔ ∀ p ∈ t, p.isBlank = true := List.all_eq_true

namespace Element

variable {before : List Element} {seen : List Text} {f : Folder} {e : Element} {flag : Text}

theorem givenFlag?_eq_some : e.givenFlag? = some flag ↔ flag ≠ [] ∧ e.flag? = some flag := by
  simp [givenFlag?, Option.filter_eq_some_iff, and_comm]

theorem hasUnevenParentheses_iff :
    e.hasUnevenParentheses = true ↔ ∃ t ∈ e.logic, t.count (.char '(') ≠ t.count (.char ')') := by
  unfold hasUnevenParentheses
  cases e.logic <;> simp

/-- Whether some flags are those of some elements, apart from the empty ones. -/
def FlagsOf (seen : List Text) (before : List Element) : Prop :=
  ∀ flag, flag ∈ seen ↔ flag ≠ [] ∧ ∃ d ∈ before, d.flag? = some flag

theorem flagsOf_nil : FlagsOf [] [] := by simp [FlagsOf]

theorem FlagsOf.snoc (h : FlagsOf seen before) (e : Element) :
    FlagsOf (e.givenFlag?.toList ++ seen) (before ++ [e]) := by
  intro flag
  rw [List.mem_append, Option.mem_toList, givenFlag?_eq_some, h flag, ← and_or_left, or_comm]
  simp only [List.mem_append, List.mem_singleton, or_and_right, exists_or, exists_eq_left]

/-- What is found about the flag of an element. -/
theorem filter_duplicateFlag (h : FlagsOf seen before) (e : Element) :
    ((e.flag?.toList.map (Finding.duplicateFlag · e.text)).filter fun finding => finding.Holds before e)
      = match e.givenFlag? with
        | some flag => if flag ∈ seen then [.duplicateFlag flag e.text] else []
        | none => [] := by
  cases hflag : e.flag? with
  | none => simp [givenFlag?, hflag]
  | some flag =>
    by_cases hempty : flag = []
    · have hgiven : e.givenFlag? = none := by simp [givenFlag?, hflag, hempty, Option.filter]
      simp [hgiven, hempty, Finding.Holds]
    · have hgiven : e.givenFlag? = some flag := givenFlag?_eq_some.2 ⟨hempty, hflag⟩
      simp [hgiven, List.filter_singleton, Finding.Holds, hempty, hflag, h flag]

/-- **The findings about an element are those that hold.** -/
theorem findings_eq (h : FlagsOf seen before) (f : Folder) (e : Element) :
    e.findings seen f = (e.possibleFindings f).filter fun finding => finding.Holds before e := by
  have hsingle (finding : Finding) {b : Bool} (hholds : finding.Holds before e ↔ b = true) :
      ([finding].filter fun finding => finding.Holds before e) = if b then [finding] else [] := by
    cases b <;> simp [hholds]
  have htext := hsingle (.blankText f.text) Text.isBlank_iff.symm
  have hlogic := hsingle (.unevenParentheses e.text) hasUnevenParentheses_iff.symm
  have hparts : e.possibleFindings f = e.flag?.toList.map (.duplicateFlag · e.text)
      ++ [.blankText f.text] ++ [.unevenParentheses e.text] := by
    rw [possibleFindings, List.append_assoc]
    rfl
  rw [hparts, List.filter_append, List.filter_append, filter_duplicateFlag h, htext, hlogic]
  rfl

end Element

namespace Window

variable {before : List Element} {seen : List Text} {l : List (Folder × Element)}

theorem map_snd_placedElements (w : Window) : w.placedElements.map Prod.snd = w.elements := by
  simp [placedElements, elements, List.map_flatMap, Function.comp_def]

/-- **The issues are the findings that hold**, in document order, each about its element. -/
theorem issuesAfter_eq (h : Element.FlagsOf seen before) (l : List (Folder × Element)) :
    issuesAfter seen l = (l.zipIdx before.length).flatMap fun ((f, e), i) =>
      ((e.possibleFindings f).filter fun finding =>
        finding.Holds ((before ++ l.map Prod.snd).take i) e).map (Issue.mk · e.id) := by
  induction l generalizing seen before with
  | nil => rfl
  | cons placed l ih =>
    obtain ⟨f, e⟩ := placed
    have hlength : (before ++ [e]).length = before.length + 1 := List.length_append
    rw [issuesAfter, ih (h.snoc e), Element.findings_eq h, List.zipIdx_cons, List.flatMap_cons, hlength]
    simp only [List.map_cons, List.append_assoc, List.singleton_append, List.take_left]

/-! ### How much is found -/

/-- The flags that some elements are given, in order. -/
def givenFlags (l : List (Folder × Element)) : List Text := l.filterMap fun placed => placed.2.givenFlag?

/-- Whether an issue is about a duplicate of one of some flags. -/
def duplicates (P : Text → Bool) (issue : Issue) : Bool :=
  match issue.finding with
  | .duplicateFlag flag _ => P flag
  | _ => false

/-- About one element, each of the three findings is there or not. -/
theorem countP_findings (q : Issue → Bool) (seen : List Text) (f : Folder) (e : Element) :
    ((e.findings seen f).map (Issue.mk · e.id)).countP q
      = (if ∃ flag ∈ e.givenFlag?, flag ∈ seen ∧ q ⟨.duplicateFlag flag e.text, e.id⟩ then 1 else 0)
        + (if e.text.isBlank ∧ q ⟨.blankText f.text, e.id⟩ then 1 else 0)
        + if e.hasUnevenParentheses ∧ q ⟨.unevenParentheses e.text, e.id⟩ then 1 else 0 := by
  have hsingle (b : Bool) (finding : Finding) :
      ((if b then [finding] else []).map (Issue.mk · e.id)).countP q
        = if b ∧ q ⟨finding, e.id⟩ then 1 else 0 := by
    cases b <;> simp [List.countP_cons]
  rw [Element.findings, List.map_append, List.map_append, List.countP_append, List.countP_append, hsingle,
    hsingle]
  congr 2
  cases e.givenFlag? with
  | none => simp
  | some flag => simpa using hsingle (decide (flag ∈ seen)) (.duplicateFlag flag e.text)

theorem card_filter_cons (P : Text → Bool) (flag : Text) (seen : List Text) :
    ((flag :: seen).toFinset.filter fun flag => P flag).card
      = (seen.toFinset.filter fun flag => P flag).card + if flag ∉ seen ∧ P flag then 1 else 0 := by
  rw [List.toFinset_cons, Finset.filter_insert]
  by_cases hP : P flag = true
  · by_cases hseen : flag ∈ seen <;> simp [hP, hseen]
  · simp [hP]

/-- With any selection of flags, each one given is a duplicate or is seen for the first time. -/
theorem countP_duplicates_issuesAfter (P : Text → Bool) (seen : List Text) (l : List (Folder × Element)) :
    (issuesAfter seen l).countP (duplicates P) + ((givenFlags l ++ seen).toFinset.filter fun flag => P flag).card
      = (givenFlags l).countP P + (seen.toFinset.filter fun flag => P flag).card := by
  induction l generalizing seen with
  | nil => simp [issuesAfter, givenFlags]
  | cons placed l ih =>
    obtain ⟨f, e⟩ := placed
    have hrest := ih (e.givenFlag?.toList ++ seen)
    have hfirst : ((e.findings seen f).map (Issue.mk · e.id)).countP (duplicates P)
        = if ∃ flag ∈ e.givenFlag?, flag ∈ seen ∧ P flag then 1 else 0 := by
      rw [countP_findings]
      simp [duplicates]
    rw [issuesAfter, List.countP_append, hfirst]
    cases hflag : e.givenFlag? with
    | none =>
      rw [hflag] at hrest
      simpa [givenFlags, hflag] using hrest
    | some flag =>
      have hgiven : givenFlags ((f, e) :: l) = flag :: givenFlags l := List.filterMap_cons_some hflag
      have hsame : (flag :: givenFlags l ++ seen).toFinset = (givenFlags l ++ flag :: seen).toFinset := by
        simp
      rw [hflag, Option.toList_some, List.singleton_append, card_filter_cons] at hrest
      rw [hgiven, hsame, List.countP_cons, Option.toList_some, List.singleton_append]
      by_cases hseen : flag ∈ seen <;> by_cases hP : P flag = true <;> simp [hseen, hP] at hrest ⊢ <;> omega

/-- Issues that do not depend on earlier elements, one at most about each, are those of the elements. -/
theorem countP_issuesAfter {q : Issue → Bool} {b : Element → Bool}
    (h : ∀ seen f e, ((e.findings seen f).map (Issue.mk · e.id)).countP q = if b e then 1 else 0)
    (seen : List Text) (l : List (Folder × Element)) :
    (issuesAfter seen l).countP q = (l.map Prod.snd).countP b := by
  induction l generalizing seen with
  | nil => rfl
  | cons placed l ih =>
    rw [issuesAfter, List.countP_append, h, ih, List.map_cons, List.countP_cons, Nat.add_comm]

theorem countP_text (w : Window) :
    w.issues.countP (fun issue => issue.finding.concern = .text) = w.elements.countP (·.text.isBlank) := by
  rw [issues, countP_issuesAfter (b := (·.text.isBlank)), map_snd_placedElements]
  intro seen f e
  rw [countP_findings]
  simp [Finding.concern]

theorem countP_logic (w : Window) :
    w.issues.countP (fun issue => issue.finding.concern = .logic)
      = w.elements.countP Element.hasUnevenParentheses := by
  rw [issues, countP_issuesAfter (b := Element.hasUnevenParentheses), map_snd_placedElements]
  intro seen f e
  rw [countP_findings]
  simp [Finding.concern]

/-- The flags of a window that are not empty, in document order. -/
def flags (w : Window) : List Text := (w.elements.filterMap Element.flag?).filter fun flag => flag ≠ []

theorem givenFlags_placedElements (w : Window) : givenFlags w.placedElements = w.flags := by
  rw [flags, List.filter_filterMap, ← map_snd_placedElements, List.filterMap_map]
  refine List.filterMap_congr fun placed _ => ?_
  cases h : placed.2.flag? with
  | none => simp [Element.givenFlag?, h]
  | some flag => cases flag <;> simp [Element.givenFlag?, h, Option.filter]

/-- **Duplicates and distinct flags make up all flags that are given.** So it is with any selection of
flags. -/
theorem countP_duplicates_add_card (P : Text → Bool) (w : Window) :
    w.issues.countP (duplicates P) + (w.flags.toFinset.filter fun flag => P flag).card = w.flags.countP P := by
  have hcount := countP_duplicates_issuesAfter P [] w.placedElements
  rwa [givenFlags_placedElements, List.append_nil, List.toFinset_nil, Finset.filter_empty, Finset.card_empty,
    Nat.add_zero] at hcount

theorem countP_flag_add_card (w : Window) :
    w.issues.countP (fun issue => issue.finding.concern = .flag) + w.flags.toFinset.card = w.flags.length := by
  have hsame : (fun issue : Issue => decide (issue.finding.concern = .flag)) = duplicates fun _ => true := by
    funext ⟨finding, id⟩
    cases finding <;> rfl
  have hcount := countP_duplicates_add_card (fun _ => true) w
  rwa [Finset.filter_true_of_mem fun _ _ => rfl, List.countP_true, ← hsame] at hcount

theorem countP_flags {flag : Text} (hne : flag ≠ []) (w : Window) :
    w.flags.countP (fun other => other = flag) = w.elements.countP fun e => e.flag? = some flag := by
  rw [flags, List.countP_filter, List.countP_filterMap]
  refine List.countP_congr fun e _ => ?_
  cases e.flag? with
  | none => simp
  | some other =>
    have h : other = flag ∧ other ≠ [] ↔ other = flag :=
      ⟨And.left, fun heq => ⟨heq, fun hempty => hne (heq.symm.trans hempty)⟩⟩
    simpa using h

/-- A flag that is used has one duplicate fewer than it has uses. -/
theorem countP_duplicates_eq {flag : Text} (hne : flag ≠ []) (w : Window) :
    w.issues.countP (duplicates fun other => other = flag)
      = w.elements.countP (fun e => e.flag? = some flag) - 1 := by
  have hcount := countP_duplicates_add_card (fun other => decide (other = flag)) w
  rw [← countP_flags hne]
  simp only [decide_eq_true_eq, Finset.filter_eq'] at hcount
  by_cases hmem : flag ∈ w.flags
  · rw [if_pos (List.mem_toFinset.2 hmem), Finset.card_singleton] at hcount
    omega
  · have hnone : w.flags.countP (fun other => decide (other = flag)) = 0 :=
      List.countP_eq_zero.2 fun other hother heq => hmem (of_decide_eq_true heq ▸ hother)
    omega

/-- No flag is found twice exactly where all flags are distinct. -/
theorem countP_flag_eq_zero_iff (w : Window) :
    w.issues.countP (fun issue => issue.finding.concern = .flag) = 0 ↔ w.flags.Nodup := by
  have hcount := countP_flag_add_card w
  constructor
  · intro h
    have hlength : w.flags.dedup.length = w.flags.length := by
      rw [← List.card_toFinset]
      omega
    exact (List.dedup_sublist w.flags).eq_of_length hlength ▸ List.nodup_dedup w.flags
  · intro h
    rw [List.toFinset_card_of_nodup h] at hcount
    omega

theorem issues_eq_nil_iff_concern (w : Window) :
    w.issues = [] ↔ ∀ c, w.issues.countP (fun issue => issue.finding.concern = c) = 0 := by
  constructor
  · intro h c
    rw [h, List.countP_nil]
  · intro h
    refine List.eq_nil_iff_forall_not_mem.2 fun issue hmem => ?_
    exact List.countP_eq_zero.1 (h issue.finding.concern) issue hmem (decide_eq_true rfl)

/-- Nothing is found exactly where all flags are distinct, and the text and the logic of each element are in
order. -/
theorem issues_eq_nil_iff (w : Window) :
    w.issues = [] ↔ w.flags.Nodup ∧ ∀ e ∈ w.elements, ¬ (∀ p ∈ e.text, p.isBlank = true) ∧
      ∀ t ∈ e.logic, t.count (.char '(') = t.count (.char ')') := by
  have htext (e : Element) : ¬ e.text.isBlank = true ↔ ¬ ∀ p ∈ e.text, p.isBlank = true :=
    not_congr Text.isBlank_iff
  have hlogic (e : Element) : ¬ e.hasUnevenParentheses = true ↔
      ∀ t ∈ e.logic, t.count (.char '(') = t.count (.char ')') := by
    simp [Element.hasUnevenParentheses_iff]
  simp only [← htext, ← hlogic]
  rw [issues_eq_nil_iff_concern]
  constructor
  · intro h
    refine ⟨(countP_flag_eq_zero_iff w).1 (h .flag), fun e he => ⟨?_, ?_⟩⟩
    · exact List.countP_eq_zero.1 ((countP_text w).symm.trans (h .text)) e he
    · exact List.countP_eq_zero.1 ((countP_logic w).symm.trans (h .logic)) e he
  · rintro ⟨hflags, helements⟩ c
    cases c with
    | flag => exact (countP_flag_eq_zero_iff w).2 hflags
    | text => exact (countP_text w).trans (List.countP_eq_zero.2 fun e he => (helements e he).1)
    | logic => exact (countP_logic w).trans (List.countP_eq_zero.2 fun e he => (helements e he).2)

/-- Reordering elements does not change how much is found of each concern. -/
theorem countP_concern_of_perm {v w : Window} (h : v.elements.Perm w.elements) (c : Concern) :
    v.issues.countP (fun issue => issue.finding.concern = c)
      = w.issues.countP fun issue => issue.finding.concern = c := by
  cases c with
  | flag =>
    have hflags : v.flags.Perm w.flags := (h.filterMap _).filter _
    have hv := countP_flag_add_card v
    have hw := countP_flag_add_card w
    rw [List.toFinset_eq_of_perm _ _ hflags, hflags.length_eq] at hv
    omega
  | text => rw [countP_text, countP_text, h.countP_eq]
  | logic => rw [countP_logic, countP_logic, h.countP_eq]

/-- **The report is exact.** The issues are, in document order and for each element in the order of flag, text
and parentheses, the findings that hold about it: its flag is not empty and an earlier element in any folder
has it, its text is empty or blank, or its logic has unequal numbers of parentheses. A flag with any uses has
one duplicate fewer. Nothing is reported exactly where the flags that are not empty are distinct and the texts
and the logic of all elements are in order. And however elements are reordered, inside a folder or across
folders, there are as many issues of each concern. -/
theorem issues_exact (w : Window) :
    (w.issues = w.placedElements.zipIdx.flatMap fun ((f, e), i) =>
      ((e.possibleFindings f).filter fun finding => finding.Holds (w.elements.take i) e).map (Issue.mk · e.id)) ∧
    (∀ flag, flag ≠ [] → w.issues.countP (duplicates fun other => other = flag)
      = w.elements.countP (fun e => e.flag? = some flag) - 1) ∧
    (w.issues = [] ↔ ((w.elements.filterMap Element.flag?).filter fun flag => flag ≠ []).Nodup ∧
      ∀ e ∈ w.elements, ¬ (∀ p ∈ e.text, p.isBlank = true) ∧
        ∀ t ∈ e.logic, t.count (.char '(') = t.count (.char ')')) ∧
    ∀ v : Window, v.elements.Perm w.elements → ∀ c : Concern,
      v.issues.countP (fun issue => issue.finding.concern = c)
        = w.issues.countP fun issue => issue.finding.concern = c := by
  have hissues := issuesAfter_eq Element.flagsOf_nil w.placedElements
  rw [map_snd_placedElements] at hissues
  exact ⟨hissues, fun flag hne => countP_duplicates_eq hne w, issues_eq_nil_iff w,
    fun v h c => countP_concern_of_perm h c⟩

/-- Elements with one flag in two folders. -/
def sharedFlag : Window :=
  ⟨"W", [⟨"a", "One", [⟨"1", "Run", none, .toggle "k" true⟩, ⟨"2", " \t", some "f((", .dropdown "k" []⟩]⟩,
    ⟨"b", "Two", [⟨"3", "", some ")(", .toggle "k" false⟩]⟩]⟩

/-- The same elements in one folder, in another order. -/
def sharedFlagMoved : Window :=
  ⟨"V", [⟨"c", "All", [⟨"3", "", some ")(", .toggle "k" false⟩, ⟨"1", "Run", none, .toggle "k" true⟩,
    ⟨"2", " \t", some "f((", .dropdown "k" []⟩]⟩]⟩

/-- A flag that is used three times is found twice, wherever its elements stand. -/
theorem issues_exact_moved :
    Text.ofString "k" ≠ [] ∧ sharedFlag.issues.countP (duplicates fun other => other = Text.ofString "k") = 2 ∧
    sharedFlagMoved.elements.Perm sharedFlag.elements ∧
    sharedFlagMoved.issues.countP (fun issue => issue.finding.concern = .text) = 2 := by
  have hne : Text.ofString "k" ≠ [] := by decide
  have hperm : sharedFlagMoved.elements.Perm sharedFlag.elements := by decide
  refine ⟨hne, ?_, hperm, ?_⟩
  · rw [(issues_exact sharedFlag).2.1 _ hne]
    decide
  · rw [(issues_exact sharedFlag).2.2.2 _ hperm]
    decide

end Window

end GuiBuilder
