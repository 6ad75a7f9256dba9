import GuiBuilder.Proofs.Script.Complete
import GuiBuilder.Proofs.Session.Contents
import GuiBuilder.Proofs.Widget.RoundTrip

/-!
# The kept script is never stale

A session keeps one script, under the fingerprint of the window that it was generated from, and no edit
touches it. What is kept belongs to a window that was read before (`Session.CacheOf`), and is given out for
a window with the same fingerprint only. When no two windows that are read have one fingerprint and
different canonical JSON, that window has the canonical JSON of the one that is active, so it is the same
window: the canonical JSON of an encodable window determines it.
-/

namespace GuiBuilder

/-- No two of some windows have one fingerprint and different canonical JSON. -/
def FingerprintsApart (ws : List Window) : Prop :=
  ∀ v ∈ ws, ∀ w ∈ ws, ∀ d, v.fingerprint? = some d → w.fingerprint? = some d → v.canonical = w.canonical

theorem Window.exists_fingerprint? {w : Window} (hw : w.Encodable) :
    ∃ bytes d, Text.utf8? w.canonical = some bytes ∧ w.fingerprint? = some d := by
  obtain ⟨bytes, hbytes⟩ := Option.isSome_iff_exists.1 (Text.utf8?_isSome.2 (encodable_canonical hw))
  exact ⟨bytes, _, hbytes, by rw [Window.fingerprint?, Text.digest?, hbytes, Option.map_some]⟩

namespace Session

/-- The windows whose script is read along some calls. -/
def windowsRead (s : Session) : List Call → List Window
  | [] => []
  | c :: calls =>
    (if c.generates then s.activeWindow?.toList else []) ++ windowsRead (s.call c).session calls

/-- What is kept is the script of one of some windows, under its fingerprint. -/
def CacheOf (ws : List Window) (cache : Option (Text × Text)) : Prop :=
  ∀ kept ∈ cache, ∃ w ∈ ws, w.fingerprint? = some kept.1 ∧ w.script = .ok kept.2

variable {s : Session} {w : Window}

/-! ### One read -/

/-- A read answers what is kept for the fingerprint of the active window, or generates the script and
keeps it, or fails and keeps nothing where there is no script. -/
theorem code_eq (h : s.activeWindow? = some w) (hw : w.Encodable) :
    ∃ d, w.fingerprint? = some d ∧
      ((∃ script, s.cache = some (d, script) ∧ s.code = s.answer script) ∨
        (∃ script, w.script = .ok script ∧
          s.code = ({ s with cache := some (d, script) } : Session).answer script) ∨
        ∃ f, w.script = .error f ∧ s.code = s.fault f) := by
  obtain ⟨file, hfile, hcontent⟩ := exists_of_activeWindow? h
  obtain ⟨bytes, d, hbytes, hd⟩ := Window.exists_fingerprint? hw
  refine ⟨d, hd, ?_⟩
  simp only [code, withWindow, withActive, hfile, hcontent, hbytes, hd]
  split
  · next kept hkept =>
    obtain ⟨hcache, hsame⟩ := Option.filter_eq_some_iff.1 hkept
    refine .inl ⟨_, ?_, rfl⟩
    rw [hcache, ← of_decide_eq_true hsame]
  · split
    · next f hscript => exact .inr (.inr ⟨f, hscript, rfl⟩)
    · next script hscript => exact .inr (.inl ⟨script, hscript, rfl⟩)

/-- Where the active file holds no window, nothing is kept anew. -/
theorem cache_code_of_none (h : s.activeWindow? = none) : s.code.session.cache = s.cache := by
  unfold code
  refine withWindow_induction (P := fun o => o.session.cache = s.cache) rfl rfl fun file w hfile hw => ?_
  rw [activeWindow?_of_activeFile? hfile hw] at h
  cases h

/-- The content of an export is the script that is read for it. -/
theorem result_code_of_exportTo {provide : Text → Except Fault (Text → Found)} {directory : Text}
    {extension : Value} {e : Exported} (h : (s.exportTo provide directory extension).result = .ok e) :
    s.code.result = .ok e.content := by
  unfold exportTo at h
  generalize s.code = o at h ⊢
  obtain ⟨u, content | content⟩ := o
  · cases h
  · simp only [Outcome.andThen, withActive] at h
    split at h
    · split at h
      · cases h
      · split at h
        · cases h
        · split at h
          · cases h
          · cases h
            rfl
    · cases h

/-! ### What is kept along a run -/

variable {ws : List Window}

theorem CacheOf.mono {cache : Option (Text × Text)} {ws' : List Window} (h : CacheOf ws cache)
    (hsub : ws ⊆ ws') : CacheOf ws' cache := by
  intro kept hkept
  obtain ⟨w, hw, hscript⟩ := h kept hkept
  exact ⟨w, hsub hw, hscript⟩

theorem cacheOf_code (hall : s.AllContents Content.Encodable) (hcache : CacheOf ws s.cache) :
    CacheOf (ws ++ s.activeWindow?.toList) s.code.session.cache := by
  cases hactive : s.activeWindow? with
  | none =>
    rw [cache_code_of_none hactive]
    exact hcache.mono (List.subset_append_left _ _)
  | some w =>
    have hold : CacheOf (ws ++ [w]) s.cache := hcache.mono (List.subset_append_left _ _)
    obtain ⟨d, hd, ⟨script, -, hcode⟩ | ⟨script, hscript, hcode⟩ | ⟨f, -, hcode⟩⟩ :=
      code_eq hactive (hall.encodable_activeWindow hactive)
    · rw [hcode]
      exact hold
    · rw [hcode]
      rintro _ ⟨⟩
      exact ⟨w, List.mem_append_right _ List.mem_cons_self, hd, hscript⟩
    · rw [hcode]
      exact hold

/-- One call keeps what belongs to a window that has been read. -/
theorem cacheOf_call (hall : s.AllContents Content.Encodable) (hcache : CacheOf ws s.cache) (c : Call) :
    CacheOf (ws ++ if c.generates then s.activeWindow?.toList else []) (s.call c).session.cache := by
  cases hc : c.generates with
  | false =>
    rw [call_cache s hc]
    exact hcache.mono (List.subset_append_left _ _)
  | true =>
    rw [if_pos rfl]
    have hcode := cacheOf_code hall hcache
    cases c with
    | command c =>
      cases c with
      | code => exact hcode
      | exportTo provide directory extension =>
        have hkept := (kept_exportTo s provide directory extension).cache
        exact hkept.symm ▸ hcode
      | _ => cases hc
    | applyData id data => cases hc

/-- **What is kept belongs to a window that has been read**, after any calls. -/
theorem cacheOf_afterCalls {calls : List Call} (hall : s.AllContents Content.Encodable)
    (hcalls : ∀ c ∈ calls, ∀ w ∈ c.windows, w.Encodable) (hcache : CacheOf ws s.cache) :
    CacheOf (ws ++ s.windowsRead calls) (s.afterCalls calls).cache := by
  induction calls generalizing s ws with
  | nil => exact hcache.mono (List.subset_append_left _ _)
  | cons c calls ih =>
    rw [List.forall_mem_cons] at hcalls
    have h := ih (hall.call (allows_encodable hall hcalls.1)) hcalls.2 (cacheOf_call hall hcache c)
    rw [List.append_assoc] at h
    exact h

theorem cacheOf_of_begin {given : Option File} {capacity : Value} {ids : IdSupply} {preferences : Preferences}
    (hbegin : begin given capacity ids preferences = .ok s) (hgiven : ∀ file ∈ given, file.content.Encodable)
    {calls : List Call} (hcalls : ∀ c ∈ calls, ∀ w ∈ c.windows, w.Encodable) :
    CacheOf (s.windowsRead calls) (s.afterCalls calls).cache := by
  obtain ⟨-, -, -, -, -, -, hcache⟩ := exists_of_begin hbegin
  have hnone : CacheOf [] s.cache := by
    rw [hcache]
    exact nofun
  exact cacheOf_afterCalls (encodable_of_begin hbegin hgiven) hcalls hnone

theorem encodable_windowsRead {calls : List Call} (hall : s.AllContents Content.Encodable)
    (hcalls : ∀ c ∈ calls, ∀ w ∈ c.windows, w.Encodable) : ∀ w ∈ s.windowsRead calls, w.Encodable := by
  induction calls generalizing s with
  | nil => exact nofun
  | cons c calls ih =>
    rw [List.forall_mem_cons] at hcalls
    intro w hw
    rcases List.mem_append.1 hw with hw | hw
    · split at hw
      · exact hall.encodable_activeWindow (Option.mem_toList.1 hw)
      · cases hw
    · exact ih (hall.call (allows_encodable hall hcalls.1)) hcalls.2 w hw

theorem windowsRead_append (s : Session) (calls calls' : List Call) :
    s.windowsRead (calls ++ calls') = s.windowsRead calls ++ (s.afterCalls calls).windowsRead calls' := by
  induction calls generalizing s with
  | nil => rfl
  | cons c calls ih => rw [List.cons_append, windowsRead, ih, windowsRead, List.append_assoc]; rfl

/-- A read answers the script of the active window, or fails as that does, if what is kept belongs to one of
some encodable windows whose fingerprints tell them apart from the active one. -/
theorem result_code_of_cacheOf (hactive : s.activeWindow? = some w) (hw : w.Encodable)
    (hws : ∀ v ∈ ws, v.Encodable) (hcache : CacheOf ws s.cache) (hapart : FingerprintsApart (ws ++ [w])) :
    s.code.result = w.script := by
  obtain ⟨d, hd, ⟨script, hkept, hcode⟩ | ⟨script, hscript, hcode⟩ | ⟨f, hscript, hcode⟩⟩ := code_eq hactive hw
  · obtain ⟨v, hv, hvd, hscript⟩ := hcache _ hkept
    have hcanonical : v.canonical = w.canonical :=
      hapart v (List.mem_append_left _ hv) w (List.mem_append_right _ List.mem_cons_self) d hvd hd
    rw [hcode, result_answer, ← Window.canonical_injective (hws v hv) hw hcanonical, hscript]
  · rw [hcode, result_answer, hscript]
  · rw [hcode, hscript]
    rfl

/-- **The kept script is never stale.** Take any run of calls on a session that was begun with an encodable
file or none, in which all windows that are brought in are encodable and no two windows that are read have
one fingerprint and different canonical JSON. Then at every read, by the script being asked for or exported,
the answer is the script of the window that is active there, whatever was edited, undone, restored or closed
before; and the read fails exactly as making that script does, should the window have none. -/
theorem code_never_stale {given : Option File} {capacity : Value} {ids : IdSupply}
    {preferences : Preferences} {first : Session} (hbegin : begin given capacity ids preferences = .ok first)
    (hgiven : ∀ file ∈ given, file.content.Encodable) {calls : List Call}
    (hcalls : ∀ c ∈ calls, ∀ w ∈ c.windows, w.Encodable)
    (hapart : FingerprintsApart (first.windowsRead calls)) {before after : List Call} {read : Call}
    (hrun : calls = before ++ read :: after) (hread : read.generates = true) {w : Window}
    (hactive : (first.afterCalls before).activeWindow? = some w) :
    (first.afterCalls before).code.result = w.script ∧
    ∀ provide directory extension e,
      ((first.afterCalls before).exportTo provide directory extension).result = .ok e →
        w.script = .ok e.content := by
  subst hrun
  have hfirst : first.AllContents Content.Encodable := encodable_of_begin hbegin hgiven
  have hbefore : ∀ c ∈ before, ∀ w ∈ c.windows, w.Encodable :=
    fun c hc => hcalls c (List.mem_append_left _ hc)
  have hkept : CacheOf (first.windowsRead before) (first.afterCalls before).cache :=
    cacheOf_of_begin hbegin hgiven hbefore
  have hreads : first.windowsRead before ++ [w] ⊆ first.windowsRead (before ++ read :: after) := by
    rw [windowsRead_append, windowsRead, if_pos hread, hactive]
    exact List.append_subset.2 ⟨List.subset_append_left _ _,
      List.subset_append_of_subset_right _ (List.subset_append_left [w] _)⟩
  have hcode : (first.afterCalls before).code.result = w.script :=
    result_code_of_cacheOf hactive ((encodable_afterCalls hfirst hbefore).encodable_activeWindow hactive)
      (encodable_windowsRead hfirst hbefore) hkept
      fun u hu v hv => hapart u (hreads hu) v (hreads hv)
  refine ⟨hcode, fun provide directory extension e he => ?_⟩
  rw [← hcode, result_code_of_exportTo he]

/-- A file whose window is empty. -/
def emptyFile : File := ⟨"f", "f.lua", .window ⟨[], []⟩⟩

/-- The window is read, given a title and read again. -/
def titledRun : List Call :=
  [.command .code, .command (.updateSelected [(Text.ofString "title", .text "b")]), .command .code]

theorem code_never_stale_titled :
    ∃ first, begin (some emptyFile) (.int 2) .initial .defaults = .ok first ∧
      FingerprintsApart (first.windowsRead titledRun) ∧
      ∃ script, Window.script ⟨"b", []⟩ = .ok script ∧
        (first.afterCalls (titledRun.take 2)).code.result = .ok script := by
  have hencodable : Window.Encodable ⟨[], []⟩ := ⟨Text.encodable_nil, nofun⟩
  have hdigests : Window.fingerprint? ⟨[], []⟩ ≠ Window.fingerprint? ⟨"b", []⟩ := by
    decide +kernel
  refine ⟨_, rfl, ?_⟩
  have hapart : FingerprintsApart [⟨[], []⟩, ⟨"b", []⟩] := by
    intro v hv w hw d hvd hwd
    simp only [List.mem_cons, List.not_mem_nil, or_false] at hv hw
    rcases hv with rfl | rfl <;> rcases hw with rfl | rfl
    · rfl
    · exact absurd (hvd.trans hwd.symm) hdigests
    · exact absurd (hwd.trans hvd.symm) hdigests
    · rfl
  have hgiven : ∀ file ∈ some emptyFile, file.content.Encodable := by
    rintro _ ⟨⟩
    exact hencodable
  have hcalls : ∀ c ∈ titledRun, ∀ w ∈ c.windows, w.Encodable := by
    simp [titledRun, Call.windows]
  have hread := (@code_never_stale (some emptyFile) (.int 2) .initial .defaults _ rfl hgiven titledRun hcalls
    (by exact hapart) (titledRun.take 2) [] (.command .code) rfl rfl ⟨"b", []⟩ rfl).1
  have hscript : Window.script ⟨"b", []⟩ = .ok (Window.fullText Script.defaultLibraryUrl ⟨"b", []⟩) :=
    Window.scriptFrom_of_writable (by decide) _
  exact ⟨hapart, _, hscript, hread.trans hscript⟩

end Session

end GuiBuilder
