import GuiBuilder.Path
import GuiBuilder.Proofs.Text.Lines
import Mathlib.Data.List.Infix

/-!
# Names that stay inside a directory

The place of a relative name in a directory is found by going on from the place of the directory, component by
component. That stays inside, whatever the directory is, as long as the components never take away more names
than they have added (`Path.Climbs`); otherwise there is a directory that is left. An absolute name leaves the
directory at once (`Path.forall_isInside_join_iff`).
-/

namespace GuiBuilder

namespace Path

/-- A component that names something. -/
def IsName (component : Text) : Prop :=
  component ≠ [] ∧ component ≠ Text.ofString "." ∧ component ≠ Text.ofString ".."

instance : DecidablePred IsName := fun _ => inferInstanceAs (Decidable (_ ∧ _ ∧ _))

/-- Some beginning of the components takes away more names than it adds. -/
def Climbs (components : List Text) : Prop :=
  ∃ us, us <+: components ∧ us.countP (IsName ·) < us.count (Text.ofString "..")

instance : DecidablePred Climbs := fun components =>
  decidable_of_iff (∃ us ∈ components.inits, us.countP (IsName ·) < us.count (Text.ofString ".."))
    (by simp only [List.mem_inits, Climbs])

variable {directory name path z : Text} {place below : List Text} {component : Text} {cs : List Text}

/-! ### Joining -/

theorem isAbsolute_iff : isAbsolute path = true ↔ ∃ rest, path = .char '/' :: rest := by
  cases path <;> simp [isAbsolute]

theorem ne_nil_of_isAbsolute (h : isAbsolute path = true) : path ≠ [] := by
  rintro rfl
  cases h

theorem isAbsolute_append (h : directory ≠ []) (rest : Text) :
    isAbsolute (directory ++ rest) = isAbsolute directory := by
  rw [isAbsolute, List.head?_append_of_ne_nil _ h, isAbsolute]

theorem join_of_isAbsolute (directory : Text) (h : isAbsolute name = true) : join directory name = name := by
  rw [join, h, Bool.true_or, if_pos rfl]

theorem join_nil (name : Text) : join [] name = name := by
  rw [join, List.isEmpty_nil, Bool.or_true, if_pos rfl]

/-- A path with a slash at its end. -/
def withSlash (path : Text) : Text :=
  if path.getLast? = some (.char '/') then path else path ++ [.char '/']

theorem exists_withSlash (path : Text) :
    ∃ front, withSlash path = front ++ [.char '/'] ∧ (path = front ∨ path = front ++ [.char '/']) := by
  unfold withSlash
  split
  · next hlast =>
    obtain ⟨front, rfl⟩ := List.getLast?_eq_some_iff.1 hlast
    exact ⟨front, rfl, .inr rfl⟩
  · exact ⟨path, rfl, .inl rfl⟩

theorem withSlash_append (outer : Text) (h : path ≠ []) :
    withSlash (outer ++ path) = outer ++ withSlash path := by
  rw [withSlash, List.getLast?_append_of_ne_nil _ h, withSlash]
  split
  · rfl
  · rw [List.append_assoc]

theorem withSlash_ne_nil (path : Text) : withSlash path ≠ [] := by
  obtain ⟨front, h, -⟩ := exists_withSlash path
  rw [h]
  exact List.append_ne_nil_of_right_ne_nil _ (List.cons_ne_nil _ _)

theorem withSlash_withSlash (path : Text) : withSlash (withSlash path) = withSlash path := by
  obtain ⟨front, h, -⟩ := exists_withSlash path
  rw [h, withSlash, List.getLast?_concat, if_pos rfl]

/-- A relative name comes behind the directory and its slash. -/
theorem join_of_relative (hdirectory : directory ≠ []) (hname : isAbsolute name = false) :
    join directory name = withSlash directory ++ name := by
  rw [join, hname, List.isEmpty_eq_false_iff.2 hdirectory, Bool.or_false, if_neg Bool.false_ne_true, withSlash]
  split <;> rfl

theorem isAbsolute_join (hdirectory : directory ≠ []) (name : Text) :
    isAbsolute (join directory name) = (isAbsolute name || isAbsolute directory) := by
  cases hname : isAbsolute name with
  | true => rw [join_of_isAbsolute _ hname, hname, Bool.true_or]
  | false =>
    rw [Bool.false_or, join, hname, List.isEmpty_eq_false_iff.2 hdirectory]
    split
    · next h => cases h
    · split
      · exact isAbsolute_append hdirectory _
      · rw [List.append_assoc, isAbsolute_append hdirectory]

/-- A name in a directory that is in another one. -/
theorem join_assoc (outer inner name : Text) : join outer (join inner name) = join (join outer inner) name := by
  cases hname : isAbsolute name with
  | true => simp only [join_of_isAbsolute _ hname]
  | false =>
    by_cases houter : outer = []
    · rw [houter, join_nil, join_nil]
    have hslashed : join outer [] = withSlash outer := by rw [join_of_relative houter rfl, List.append_nil]
    by_cases hinner : inner = []
    · rw [hinner, join_nil, hslashed, join_of_relative houter hname,
        join_of_relative (withSlash_ne_nil outer) hname, withSlash_withSlash]
    cases habsolute : isAbsolute inner with
    | true =>
      rw [join_of_isAbsolute outer habsolute, join_of_isAbsolute]
      rw [isAbsolute_join hinner, habsolute, Bool.or_true]
    | false =>
      have hjoined : isAbsolute (join inner name) = false := by
        rw [isAbsolute_join hinner, hname, habsolute, Bool.or_false]
      have hne : withSlash outer ++ inner ≠ [] := List.append_ne_nil_of_right_ne_nil _ hinner
      rw [join_of_relative houter hjoined, join_of_relative hinner hname, join_of_relative houter habsolute,
        join_of_relative hne hname, withSlash_append _ hinner, List.append_assoc]

/-! ### Going along components -/

theorem step_up (place : List Text) : step place (Text.ofString "..") = place.dropLast := by
  rw [step, if_neg (by decide), if_pos rfl]

theorem step_isName (place : List Text) (h : IsName component) :
    step place component = place ++ [component] := by
  rw [step, if_neg (by simpa using ⟨h.1, h.2.1⟩), if_neg h.2.2]

/-- A component names something, leads up or leads nowhere. -/
theorem isName_or (component : Text) :
    IsName component ∨ component = Text.ofString ".." ∨
      ¬ IsName component ∧ component ≠ Text.ofString ".." ∧ ∀ place, step place component = place := by
  by_cases hname : IsName component
  · exact .inl hname
  by_cases hup : component = Text.ofString ".."
  · exact .inr (.inl hup)
  refine .inr (.inr ⟨hname, hup, fun place => ?_⟩)
  have hidle : component = [] ∨ component = Text.ofString "." := by
    by_contra h
    rw [not_or] at h
    exact hname ⟨h.1, h.2, hup⟩
  rcases hidle with rfl | rfl <;> rfl

theorem not_isName_up : ¬ IsName (Text.ofString "..") := fun h => h.2.2 rfl

/-- The place of a relative name is found from that of the directory. -/
theorem resolve_join (hdirectory : directory ≠ []) (hname : isAbsolute name = false) :
    resolve (join directory name) = (components name).foldl step (resolve directory) := by
  obtain ⟨front, hslash, hfront⟩ := exists_withSlash directory
  have hresolve : resolve front = resolve directory := by
    rcases hfront with rfl | rfl
    · rfl
    · rw [resolve, resolve, components, components, Text.split_append_cons, List.foldl_append]
      rfl
  rw [join_of_relative hdirectory hname, hslash, List.append_assoc, List.singleton_append, ← hresolve, resolve,
    components, Text.split_append_cons, List.foldl_append, resolve, components, components]

/-- Where no beginning takes away more names than there are below a place and than it adds, the way does not
leave that place. -/
theorem exists_foldl_step
    (h : ∀ us, us <+: cs → us.count (Text.ofString "..") ≤ below.length + us.countP (IsName ·)) :
    ∃ below', cs.foldl step (place ++ below) = place ++ below' := by
  induction cs generalizing below with
  | nil => exact ⟨below, rfl⟩
  | cons component cs ih =>
    rw [forall_prefix_cons] at h
    obtain ⟨-, hrest⟩ := h
    rw [List.foldl_cons]
    rcases isName_or component with hname | rfl | ⟨hname, hup, hstep⟩
    · rw [step_isName _ hname, List.append_assoc]
      refine ih fun us hus => ?_
      have hle := hrest us hus
      rw [List.count_cons_of_ne hname.2.2, List.countP_cons_of_pos (by simpa using hname)] at hle
      simp only [List.length_append, List.length_singleton]
      omega
    · have hfirst := hrest [] List.nil_prefix
      simp only [List.count_cons_self, List.countP_cons, not_isName_up, List.count_nil, List.countP_nil] at hfirst
      have hne : below ≠ [] := by
        rintro rfl
        simp at hfirst
      rw [step_up, List.dropLast_append_of_ne_nil hne]
      refine ih fun us hus => ?_
      have hle := hrest us hus
      rw [List.count_cons_self, List.countP_cons_of_neg (by simpa using not_isName_up)] at hle
      rw [List.length_dropLast]
      omega
    · rw [hstep]
      refine ih fun us hus => ?_
      have hle := hrest us hus
      rwa [List.count_cons_of_ne hup, List.countP_cons_of_neg (by simpa using hname)] at hle

theorem not_mem_step (hplace : z ∉ place) (hz : z ≠ component) : z ∉ step place component := by
  rcases isName_or component with hname | rfl | ⟨-, -, hstep⟩
  · rw [step_isName _ hname, List.mem_append, List.mem_singleton, not_or]
    exact ⟨hplace, hz⟩
  · rw [step_up]
    exact fun h => hplace (List.mem_of_mem_dropLast h)
  · rwa [hstep]

theorem not_mem_foldl_step (hplace : z ∉ place) (hcs : z ∉ cs) : z ∉ cs.foldl step place := by
  induction cs generalizing place with
  | nil => exact hplace
  | cons component cs ih =>
    rw [List.mem_cons, not_or] at hcs
    exact ih (not_mem_step hplace hcs.1) hcs.2

/-- Otherwise it leaves that place, and does not come back to it unless it is named again. -/
theorem not_mem_foldl_step_of_climbing (hbelow : z ∉ below) (hcs : z ∉ cs)
    (h : ∃ us, us <+: cs ∧ below.length + us.countP (IsName ·) < us.count (Text.ofString "..")) :
    z ∉ cs.foldl step (z :: below) := by
  obtain ⟨us, hus, hlt⟩ := h
  induction cs generalizing below us with
  | nil =>
    rw [List.prefix_nil.1 hus] at hlt
    cases hlt
  | cons component cs ih =>
    rw [List.mem_cons, not_or] at hcs
    rcases List.prefix_cons_iff.1 hus with rfl | ⟨us, rfl, hrest⟩
    · cases hlt
    rw [List.foldl_cons]
    rcases isName_or component with hname | rfl | ⟨hname, hup, hstep⟩
    · rw [List.count_cons_of_ne hname.2.2, List.countP_cons_of_pos (by simpa using hname)] at hlt
      rw [step_isName _ hname, List.cons_append]
      refine ih ?_ hcs.2 us hrest ?_
      · rw [List.mem_append, List.mem_singleton, not_or]
        exact ⟨hbelow, hcs.1⟩
      · rw [List.length_append, List.length_singleton]
        omega
    · rw [List.count_cons_self, List.countP_cons_of_neg (by simpa using not_isName_up)] at hlt
      rw [step_up]
      cases below with
      | nil => exact not_mem_foldl_step List.not_mem_nil hcs.2
      | cons b below =>
        rw [List.dropLast_cons_cons]
        refine ih (fun h => hbelow (List.mem_of_mem_dropLast h)) hcs.2 us hrest ?_
        rw [List.length_dropLast]
        simp only [List.length_cons] at hlt ⊢
        omega
    · rw [List.count_cons_of_ne hup, List.countP_cons_of_neg (by simpa using hname)] at hlt
      rw [hstep]
      exact ih hbelow hcs.2 us hrest hlt

/-! ### Which names stay inside -/

/-- A relative name that does not climb stays inside. -/
theorem isInside_join (hdirectory : directory ≠ []) (hrelative : isAbsolute name = false)
    (hclimbs : ¬ Climbs (components name)) {last : Text} (hlast : (components name).getLast? = some last)
    (hname : IsName last) : IsInside directory (join directory name) := by
  obtain ⟨front, hcs⟩ := List.getLast?_eq_some_iff.1 hlast
  have hfront : ∃ below, front.foldl step (resolve directory ++ []) = resolve directory ++ below := by
    refine exists_foldl_step fun us hus => ?_
    by_contra hlt
    refine hclimbs ⟨us, hus.trans (hcs ▸ List.prefix_append front [last]), ?_⟩
    simpa using hlt
  obtain ⟨below, hbelow⟩ := hfront
  rw [List.append_nil] at hbelow
  have hresolve : resolve (join directory name) = resolve directory ++ (below ++ [last]) := by
    rw [resolve_join hdirectory hrelative, hcs, List.foldl_append, hbelow, List.foldl_cons, List.foldl_nil,
      step_isName _ hname, List.append_assoc]
  rw [IsInside, hresolve]
  refine ⟨List.prefix_append _ _, ?_⟩
  simp

/-- An absolute name leads out of some directory. -/
theorem exists_not_isInside_of_isAbsolute (h : isAbsolute name = true) :
    ∃ directory, isAbsolute directory = true ∧ ¬ IsInside directory (join directory name) := by
  have hne := ne_nil_of_isAbsolute h
  refine ⟨join name (Text.ofString "a"), by rw [isAbsolute_join hne, h, Bool.or_true], ?_⟩
  rintro ⟨hpre, -⟩
  rw [join_of_isAbsolute _ h, resolve_join hne rfl] at hpre
  have hlength := hpre.length_le
  have hstep : (components (Text.ofString "a")).foldl step (resolve name)
      = resolve name ++ [Text.ofString "a"] := rfl
  rw [hstep, List.length_append, List.length_singleton] at hlength
  omega

/-- So does a name that climbs, namely out of one that it does not name itself. -/
theorem exists_not_isInside_of_climbs (hrelative : isAbsolute name = false) (h : Climbs (components name)) :
    ∃ directory, isAbsolute directory = true ∧ ¬ IsInside directory (join directory name) := by
  let z : Text := List.replicate (name.length + 1) (.char 'a')
  have hfresh : z ∉ components name := by
    intro hz
    have hlength := (Text.sublist_of_mem_split hz).length_le
    rw [List.length_replicate] at hlength
    omega
  have hslash : .char '/' ∉ z := fun h => absurd (List.eq_of_mem_replicate h) (by decide)
  have hname : IsName z := by
    refine ⟨List.cons_ne_nil _ _, fun h => ?_, fun h => ?_⟩ <;> exact absurd (List.cons.inj h).1 (by decide)
  have hz : resolve (.char '/' :: z) = [z] := by
    rw [resolve, components, Text.split, if_pos rfl, Text.split_of_not_mem hslash]
    exact step_isName [] hname
  refine ⟨.char '/' :: z, rfl, ?_⟩
  rintro ⟨hpre, -⟩
  rw [resolve_join (List.cons_ne_nil _ _) hrelative, hz] at hpre
  have hleaves : z ∉ (components name).foldl step [z] := by
    refine not_mem_foldl_step_of_climbing List.not_mem_nil hfresh ?_
    simpa [Climbs] using h
  exact hleaves (hpre.subset List.mem_cons_self)

/-- **The names that stay inside every directory** are the relative ones that do not climb, as far as they end
in a name. -/
theorem forall_isInside_join_iff {last : Text} (hlast : (components name).getLast? = some last)
    (hname : IsName last) :
    (∀ directory, isAbsolute directory = true → IsInside directory (join directory name)) ↔
      isAbsolute name = false ∧ ¬ Climbs (components name) := by
  constructor
  · intro h
    have hrelative : isAbsolute name = false := by
      by_contra habsolute
      obtain ⟨directory, hdirectory, hnot⟩ := exists_not_isInside_of_isAbsolute (Bool.not_eq_false _ ▸ habsolute)
      exact hnot (h directory hdirectory)
    refine ⟨hrelative, fun hclimbs => ?_⟩
    obtain ⟨directory, hdirectory, hnot⟩ := exists_not_isInside_of_climbs hrelative hclimbs
    exact hnot (h directory hdirectory)
  · rintro ⟨hrelative, hclimbs⟩ directory hdirectory
    exact isInside_join (ne_nil_of_isAbsolute hdirectory) hrelative hclimbs hlast hname

/-- What comes last in a path is in a name, unless it is a slash or a point. -/
theorem exists_last_isName {p : CodePoint} (h : path.getLast? = some p) (hslash : p ≠ .char '/')
    (hpoint : p ≠ .char '.') : ∃ last, (components path).getLast? = some last ∧ IsName last := by
  obtain ⟨start, rfl⟩ := List.getLast?_eq_some_iff.1 h
  obtain ⟨front, last, hcs⟩ := Text.exists_split_concat hslash start
  refine ⟨last ++ [p], by rw [components, hcs, List.getLast?_concat], ?_⟩
  have hne (t : Text) (ht : t.getLast? = some (.char '.')) : last ++ [p] ≠ t := by
    rintro rfl
    rw [List.getLast?_concat] at ht
    exact hpoint (Option.some.inj ht)
  exact ⟨List.append_ne_nil_of_right_ne_nil _ (List.cons_ne_nil _ _), hne _ rfl, hne _ rfl⟩

theorem not_climbs_of_not_mem (h : Text.ofString ".." ∉ cs) : ¬ Climbs cs := by
  rintro ⟨us, hus, hlt⟩
  rw [List.count_eq_zero.2 fun hmem => h (hus.subset hmem)] at hlt
  cases hlt

end Path

end GuiBuilder
