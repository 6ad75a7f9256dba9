import GuiBuilder.Proofs.Script.Complete
import GuiBuilder.Proofs.Script.Reader
import GuiBuilder.Proofs.Text.Lines
import Mathlib.Data.List.TakeWhile

/-!
# Reading the block of an element

Each line of a script is read as what it was written for, and with it each run of lines: the lines of
a body are taken up without their indentation, and the settings describe the control of the element.
So the block of an element puts the outline of the element into the folder that its variable holds
(`foldlM_block`), as long as the logic is indented line by line (`Element.Unbracketed`).
-/

namespace GuiBuilder

namespace Script

/-! ### Lines that are read -/

theorem dropPrefix?_append (t rest : Text) : (t ++ rest).dropPrefix? t = some rest :=
  List.dropPrefix?_append_of_beq rest (beq_self_eq_true t)

/-- A name ends where something else begins. -/
theorem spanVariable {name : Text} (hname : ∀ p ∈ name, isVariablePoint p = true) (rest : Text)
    (hrest : ∀ p ∈ rest.head?, isVariablePoint p = false) :
    (name ++ rest).takeWhile isVariablePoint = name ∧ (name ++ rest).dropWhile isVariablePoint = rest := by
  rw [List.takeWhile_append_of_pos hname, List.dropWhile_append_of_pos hname]
  cases rest with
  | nil => simp
  | cons p rest => simp [hrest p rfl]

theorem isVariablePoint_of_mem_folderVariable (id : Text) :
    ∀ p ∈ folderVariable id, isVariablePoint p = true := by
  intro p hp
  rw [folderVariable, List.mem_append] at hp
  rcases hp with hp | hp
  · revert p
    decide
  · obtain ⟨q, -, rfl⟩ := List.mem_map.1 hp
    split
    · assumption
    · decide

theorem readCall_append (before after t : Text) :
    readCall before after (before ++ quoted t ++ after) = some t := by
  rw [readCall, List.append_assoc, dropPrefix?_append, Option.bind_some, readQuoted_append]
  exact if_pos rfl

theorem readStatement_nil : readStatement [] = some .nothing := by
  simp [readStatement]

theorem readStatement_comment {line : Text} (h : (line.dropPrefix? "--").isSome = true) :
    readStatement line = some .nothing := by
  rw [readStatement, if_pos (.inr (.inl h))]

theorem readStatement_init : readStatement "library:Init()" = some .nothing := by
  simp [readStatement]

theorem readStatement_library (url : Text) :
    readStatement ("local library = loadstring(game:HttpGet(" ++ quoted url ++ ", true))()")
      = some (.library url) := by
  rw [readStatement, if_neg, readCall_append]
  · rfl
  · simp [Text.ofString, List.dropPrefix?]

theorem readStatement_window (title : Text) :
    readStatement ("local window = library:CreateWindow(" ++ quoted title ++ ")")
      = some (.window title) := by
  have hlibrary : readCall "local library = loadstring(game:HttpGet(" ", true))()"
      ("local window = library:CreateWindow(" ++ quoted title ++ ")") = none := by
    simp [readCall, Text.ofString, List.dropPrefix?]
  rw [readStatement, if_neg, hlibrary, readCall_append]
  · rfl
  · simp [Text.ofString, List.dropPrefix?]

theorem readFolder_append {owner : Text} (howner : ∀ p ∈ owner, isVariablePoint p = true) (text : Text) :
    readFolder ("local " ++ owner ++ " = window:AddFolder(" ++ quoted text ++ ")") = some (owner, text) := by
  have hspan := spanVariable howner (" = window:AddFolder(" ++ quoted text ++ ")")
    (by simp [Text.ofString, isVariablePoint])
  have hline : ("local " ++ owner ++ " = window:AddFolder(" ++ quoted text ++ ")" : Text)
      = "local " ++ (owner ++ (" = window:AddFolder(" ++ quoted text ++ ")")) := by
    simp only [List.append_assoc]
  rw [hline, readFolder, dropPrefix?_append, Option.bind_some, hspan.1, hspan.2, readCall_append]
  rfl

theorem readOpening_append {owner : Text} (howner : ∀ p ∈ owner, isVariablePoint p = true) (kind : Kind) :
    readOpening (owner ++ ":Add" ++ Text.ofString kind.name ++ "(\x7b") = some (owner, kind) := by
  have hspan := spanVariable howner (":Add" ++ (Text.ofString kind.name ++ "(\x7b"))
    (by simp [Text.ofString, isVariablePoint])
  have hname : ∀ p ∈ Text.ofString kind.name, isVariablePoint p = true := by
    cases kind <;> decide
  have hkind := spanVariable hname "(\x7b" (by simp [Text.ofString, isVariablePoint])
  rw [List.append_assoc, List.append_assoc, readOpening, hspan.1, hspan.2, dropPrefix?_append,
    Option.bind_some, hkind.1, hkind.2, if_pos rfl, Kind.ofName?_name]
  rfl

theorem readStatement_folder (id text : Text) :
    readStatement ("local " ++ folderVariable id ++ " = window:AddFolder(" ++ quoted text ++ ")")
      = some (.folder (folderVariable id) text) := by
  -- the variable starts with a `t`, where the other two assignments go on differently
  have hlibrary : readCall "local library = loadstring(game:HttpGet(" ", true))()"
      ("local " ++ folderVariable id ++ " = window:AddFolder(" ++ quoted text ++ ")") = none := by
    simp [readCall, folderVariable, Text.ofString, List.dropPrefix?]
  have hwindow : readCall "local window = library:CreateWindow(" ")"
      ("local " ++ folderVariable id ++ " = window:AddFolder(" ++ quoted text ++ ")") = none := by
    simp [readCall, folderVariable, Text.ofString, List.dropPrefix?]
  rw [readStatement, if_neg, hlibrary, hwindow,
    readFolder_append (isVariablePoint_of_mem_folderVariable id)]
  · rfl
  · simp [Text.ofString, List.dropPrefix?]

theorem readStatement_opening (id : Text) (kind : Kind) :
    readStatement (folderVariable id ++ ":Add" ++ Text.ofString kind.name ++ "(\x7b")
      = some (.element (folderVariable id) kind) := by
  obtain ⟨line, hline⟩ : ∃ line,
      line = folderVariable id ++ ":Add" ++ Text.ofString kind.name ++ "(\x7b" := ⟨_, rfl⟩
  obtain ⟨rest, hrest⟩ : ∃ rest, line = .char 't' :: rest := by
    rw [hline]
    exact ⟨_, rfl⟩
  have hopening : readOpening line = some (folderVariable id, kind) :=
    hline ▸ readOpening_append (isVariablePoint_of_mem_folderVariable id) kind
  rw [← hline]
  rw [hrest] at hopening ⊢
  have hcall (before after : Text) (h : before.head? = some (.char 'l')) :
      readCall before after (.char 't' :: rest) = none := by
    cases before with
    | nil => cases h
    | cons p before =>
      obtain rfl := Option.some.inj h
      simp [readCall, List.dropPrefix?]
  have hfolder : readFolder (.char 't' :: rest) = none := by
    simp [readFolder, Text.ofString, List.dropPrefix?]
  rw [readStatement, if_neg, hcall _ _ rfl, hcall _ _ rfl, hfolder, hopening]
  · rfl
  · simp [Text.ofString, List.dropPrefix?]

theorem readSetting_append {key value : Text} {l : Literal} (hkey : ∀ p ∈ key, isVariablePoint p = true)
    (hvalue : readLiteral value = some l) : readSetting (settingLine (key, value)) = some (key, l) := by
  have hspan := spanVariable hkey (" = " ++ (value ++ ",")) (by simp [Text.ofString, isVariablePoint])
  have hlast : (value ++ "," : Text).getLast? = some (.char ',') := by
    simp [Text.ofString]
  have hinit : (value ++ "," : Text).dropLast = value := by
    simp [Text.ofString]
  rw [settingLine, List.append_assoc, List.append_assoc, List.append_assoc, readSetting, dropPrefix?_append,
    Option.bind_some, hspan.1, hspan.2, dropPrefix?_append, Option.bind_some, if_pos hlast, hinit, hvalue]
  rfl

theorem readSetting_callbackLine (kind : Kind) : readSetting (callbackLine kind) = none := by
  cases kind <;> simp [readSetting, callbackLine, indent, Kind.parameter, Text.ofString, List.dropPrefix?,
    List.dropWhile, isVariablePoint]

theorem unindentedLine_indentedLine (line : Text) : unindentedLine (indentedLine line) = line := by
  rw [indentedLine]
  split
  · next hempty =>
    rw [List.isEmpty_iff.1 hempty]
    rfl
  · rw [unindentedLine, dropPrefix?_append, Option.getD_some]

/-- An indented line never ends a body: it is empty, or further in than the end. -/
theorem indentedLine_ne_endLine (line : Text) : indentedLine line ≠ endLine := by
  rw [indentedLine]
  split
  · simp [endLine, indent]
  · simp [endLine, indent, Text.ofString]

/-! ### Runs over several lines -/

theorem step_statement {p : Progress} (hp : p.place = .outside) {line : Text} {s : Statement}
    (h : readStatement line = some s) : p.step line = some (p.run s) := by
  rw [Progress.step, hp]
  dsimp only
  rw [h, Option.map_some]

theorem foldlM_cons {p q : Progress} {l : Text} {ls : List Text} (h : p.step l = some q) :
    (l :: ls).foldlM Progress.step p = ls.foldlM Progress.step q := by
  rw [List.foldlM_cons, h]
  rfl

theorem foldlM_append {p q : Progress} {ls ms : List Text} (h : ls.foldlM Progress.step p = some q) :
    (ls ++ ms).foldlM Progress.step p = ms.foldlM Progress.step q := by
  rw [List.foldlM_append, h]
  rfl

theorem step_nothing {p : Progress} (hp : p.place = .outside) {line : Text}
    (h : readStatement line = some .nothing) : p.step line = some p := step_statement hp h

/-! ### Bodies -/

section

variable {p : Progress} {owner : Text} {kind : Kind} {settings : List (Text × Literal)}

/-- The lines of a body are taken up one by one, without their indentation. -/
theorem foldlM_indentedLine (ls lines : List Text) (hp : p.place = .body owner kind settings lines) :
    (ls.map indentedLine).foldlM Progress.step p
      = some { p with place := .body owner kind settings (lines ++ ls) } := by
  induction ls generalizing p lines with
  | nil => rw [List.append_nil, ← hp]; rfl
  | cons l ls ih =>
    have hstep : p.step (indentedLine l)
        = some { p with place := .body owner kind settings (lines ++ [l]) } := by
      rw [Progress.step, hp]
      dsimp only
      rw [if_neg (indentedLine_ne_endLine l), unindentedLine_indentedLine]
    rw [List.map_cons, foldlM_cons hstep]
    refine (ih (lines ++ [l]) rfl).trans ?_
    rw [List.append_assoc, List.singleton_append]

/-! ### Settings -/

/-- Whether a setting is read as a literal under the same name. -/
def Reads (written : Text × Text) (read : Text × Literal) : Prop :=
  written.1 = read.1 ∧ (∀ p ∈ written.1, isVariablePoint p = true) ∧ readLiteral written.2 = some read.2

theorem foldlM_settingLine {ws : List (Text × Text)} {rs : List (Text × Literal)}
    (h : List.Forall₂ Reads ws rs) (hp : p.place = .settings owner kind settings) :
    (ws.map settingLine).foldlM Progress.step p
      = some { p with place := .settings owner kind (settings ++ rs) } := by
  induction h generalizing p settings with
  | nil => rw [List.append_nil, ← hp]; rfl
  | @cons w r ws rs hwr _ ih =>
    obtain ⟨hname, hkey, hvalue⟩ := hwr
    have hstep : p.step (settingLine w)
        = some { p with place := .settings owner kind (settings ++ [r]) } := by
      rw [Progress.step, hp]
      dsimp only
      rw [readSetting_append hkey hvalue, hname]
    rw [List.map_cons, foldlM_cons hstep]
    refine (ih rfl).trans ?_
    rw [List.append_assoc, List.singleton_append]

@[simp]
theorem setting_cons (key name : String) (l : Literal) (settings : List (Text × Literal)) :
    setting ((Text.ofString key, l) :: settings) name
      = if name = key then some l else setting settings name := by
  unfold setting
  rw [List.lookup_cons]
  by_cases h : name = key
  · simp [h]
  · have hne : (Text.ofString name == Text.ofString key) = false :=
      beq_false_of_ne fun e => h (Text.ofString_inj.1 e)
    rw [hne, if_neg h]

/-- The settings of an element are read, and describe the element. -/
theorem exists_readElement (e : Element) :
    ∃ rs, List.Forall₂ Reads (("text", quoted e.text) :: e.control.fullSettings) rs ∧
      ∀ body, readElement rs e.kind body = some ⟨e.text, e.control.normal, body⟩ := by
  have hreads (key : String) {t : Text} {l : Literal} (h : readLiteral t = some l)
      (hkey : ∀ p ∈ Text.ofString key, isVariablePoint p = true) :
      Reads (Text.ofString key, t) (Text.ofString key, l) := ⟨rfl, hkey, h⟩
  have htext := hreads "text" (readLiteral_quoted e.text) (by decide)
  unfold Element.kind
  cases e.control with
  | button =>
    refine ⟨_, .cons htext .nil, fun body => ?_⟩
    simp [readElement, readControl, Control.kind, Literal.text?, Control.normal]
  | toggle flag initially =>
    have hflag := hreads "flag" (readLiteral_quoted flag) (by decide)
    have hstate := hreads "state" (readLiteral_boolean initially) (by decide)
    refine ⟨_, .cons htext (.cons hflag (.cons hstate .nil)), fun body => ?_⟩
    simp [readElement, readControl, Control.kind, Literal.text?, Literal.boolean?, Control.normal]
  | slider flag r =>
    obtain ⟨min, hmin, hminValue⟩ := exists_readLiteral_number r.min
    obtain ⟨max, hmax, hmaxValue⟩ := exists_readLiteral_number r.max
    obtain ⟨value, hvalue, hvalueValue⟩ := exists_readLiteral_number r.value
    obtain ⟨decimals, hdecimals, hdecimalsValue⟩ := exists_readLiteral_ofNat r.decimals
    have hflag := hreads "flag" (readLiteral_quoted flag) (by decide)
    refine ⟨_, .cons htext (.cons hflag (.cons (hreads "min" hmin (by decide))
      (.cons (hreads "max" hmax (by decide)) (.cons (hreads "value" hvalue (by decide))
        (.cons (hreads "decimals" hdecimals (by decide)) .nil))))), fun body => ?_⟩
    simp [readElement, readControl, Control.kind, Literal.text?, Literal.finite?, Literal.nat?,
      Control.normal, hminValue, hmaxValue, hvalueValue, hdecimalsValue]
  | dropdown flag options =>
    have hflag := hreads "flag" (readLiteral_quoted flag) (by decide)
    have hvalues := hreads "values" (readLiteral_texts options) (by decide)
    refine ⟨_, .cons htext (.cons hflag (.cons hvalues .nil)), fun body => ?_⟩
    simp [readElement, readControl, Control.kind, Literal.text?, Literal.texts?, Control.normal]

end

/-! ### Long brackets -/

/-- Whether a long bracket opens in a text: two brackets with nothing but equals signs between. -/
def HoldsLongBracket (t : Text) : Prop :=
  ∃ (before : Text) (k : ℕ) (after : Text),
    t = before ++ .char '[' :: (List.replicate k (.char '=') ++ .char '[' :: after)

theorem opensLongBracket_iff (t : Text) :
    opensLongBracket t = true ↔
      ∃ (k : ℕ) (after : Text), t = .char '[' :: (List.replicate k (.char '=') ++ .char '[' :: after) := by
  constructor
  · intro h
    unfold opensLongBracket at h
    split at h
    · next rest =>
      have hhead := of_decide_eq_true h
      obtain ⟨after, hafter⟩ := List.head?_eq_some_iff.1 hhead
      have hsign : ∀ p ∈ rest.takeWhile fun p => decide (p = .char '='), p = .char '=' := by
        intro p hp
        exact of_decide_eq_true (List.mem_takeWhile_imp (p := fun p => decide (p = CodePoint.char '=')) hp)
      have hsigns := List.eq_replicate_of_mem hsign
      refine ⟨(rest.takeWhile fun p => decide (p = .char '=')).length, after, ?_⟩
      rw [← hsigns, ← hafter, List.takeWhile_append_dropWhile]
    · cases h
  · rintro ⟨k, after, rfl⟩
    have hsigns : ∀ p ∈ List.replicate k (CodePoint.char '='), decide (p = .char '=') = true := by
      intro p hp
      rw [List.eq_of_mem_replicate hp]
      rfl
    rw [opensLongBracket, List.dropWhile_append_of_pos hsigns]
    simp

/-- Logic is looked through for long brackets at every place. -/
theorem hasLongBracket_iff (t : Text) : hasLongBracket t = true ↔ HoldsLongBracket t := by
  induction t with
  | nil => simp [hasLongBracket, HoldsLongBracket]
  | cons p t ih =>
    rw [hasLongBracket, Bool.or_eq_true, opensLongBracket_iff, ih]
    constructor
    · rintro (⟨k, after, h⟩ | ⟨before, k, after, rfl⟩)
      · exact ⟨[], k, after, h⟩
      · exact ⟨p :: before, k, after, rfl⟩
    · rintro ⟨before, k, after, h⟩
      cases before with
      | nil => exact .inl ⟨k, after, h⟩
      | cons q before =>
        rw [List.cons_append, List.cons.injEq] at h
        exact .inr ⟨before, k, after, h.2⟩

end Script

/-- Whether no long bracket opens in the logic of an element. -/
def Element.Unbracketed (e : Element) : Prop := ∀ t ∈ e.logic, ¬ Script.HoldsLongBracket t

namespace Script

/-! ### Blocks -/

theorem lineFeed_not_mem_name (kind : Kind) : '\n' ∉ kind.name.toList := by
  cases kind <;> decide

theorem lineFeed_not_mem_parameter (kind : Kind) : '\n' ∉ kind.parameter.toList := by
  cases kind <;> decide

theorem lineFeed_not_mem_placeholder (e : Element) : .char '\n' ∉ e.placeholder := by
  unfold Element.placeholder
  split
  · simp [Text.ofString, lineFeed_not_mem_quoted]
  · next kind _ => simp [Text.ofString, lineFeed_not_mem_quoted, lineFeed_not_mem_parameter]

/-- The lines of a body are those of the text that it stands for, each of them indented. -/
theorem bodyLines_eq {e : Element} (h : e.Unbracketed) :
    bodyLines e.logic e.placeholder = (e.body.split (.char '\n')).map indentedLine := by
  have hplaceholder : (e.placeholder.split (.char '\n')).map indentedLine
      = [indent ++ indent ++ e.placeholder] := by
    have hne : e.placeholder.isEmpty = false := by
      unfold Element.placeholder
      split <;> rfl
    rw [Text.split_of_not_mem (lineFeed_not_mem_placeholder e), List.map_singleton, indentedLine, hne]
    rfl
  unfold bodyLines Element.body
  cases hlogic : e.logic with
  | none => exact hplaceholder.symm
  | some t =>
    have hbracket : ¬ hasLongBracket t = true := fun hb => h t hlogic ((hasLongBracket_iff t).1 hb)
    dsimp only
    by_cases hblank : t.isBlank = true
    · rw [if_pos hblank, if_pos hblank]
      exact hplaceholder.symm
    · rw [if_neg hblank, if_neg hblank, if_neg hbracket]

/-- The block of an element: settings between a first and a last line, and the body of its callback. -/
theorem fullLines_eq {e : Element} (h : e.Unbracketed) (owner : Text) :
    e.fullLines owner
      = (owner ++ ":Add" ++ Text.ofString e.kind.name ++ "(\x7b") ::
          (((Text.ofString "text", quoted e.text) :: e.control.fullSettings).map settingLine ++
            callbackLine e.kind :: ((e.body.split (.char '\n')).map indentedLine ++ [endLine, "\x7d)"])) := by
  rw [Element.fullLines, Element.block, bodyLines_eq h]
  simp only [List.cons_append, List.append_assoc]
  rfl

variable {p : Progress}

/-- The block of an element puts its outline into the folder that its variable holds. -/
theorem foldlM_block {e : Element} (h : e.Unbracketed) (id : Text)
    (hp : p.place = .outside) :
    (e.fullLines (folderVariable id)).foldlM Progress.step p
      = (attach (folderVariable id) e.outline p.folders).map fun folders => { p with folders } := by
  obtain ⟨rs, hrs, hread⟩ := exists_readElement e
  obtain ⟨owner, howner⟩ : ∃ owner, owner = folderVariable id := ⟨_, rfl⟩
  have hopening : p.step (owner ++ ":Add" ++ Text.ofString e.kind.name ++ "(\x7b")
      = some { p with place := .settings owner e.kind [] } :=
    step_statement hp (howner ▸ readStatement_opening id e.kind)
  have hsettings := foldlM_settingLine (p := { p with place := .settings owner e.kind [] }) hrs rfl
  have hcallback : Progress.step { p with place := .settings owner e.kind rs } (callbackLine e.kind)
      = some { p with place := .body owner e.kind rs [] } := by
    simp only [Progress.step, readSetting_callbackLine, if_pos]
  have hbody := foldlM_indentedLine (p := { p with place := .body owner e.kind rs [] })
    (e.body.split (.char '\n')) [] rfl
  have hend : Progress.step { p with place := .body owner e.kind rs (e.body.split (.char '\n')) } endLine
      = some { p with place := .closing owner e.outline } := by
    have hjoin : Text.join "\n" (e.body.split (.char '\n')) = e.body := Text.join_split _ e.body
    simp only [Progress.step, if_pos, hjoin, hread]
    rfl
  have hclosing : Progress.step { p with place := .closing owner e.outline } "\x7d)"
      = (attach owner e.outline p.folders).map fun folders => { p with folders } := by
    simp only [Progress.step, if_pos, hp]
  rw [← howner, fullLines_eq h, foldlM_cons hopening, foldlM_append hsettings, List.nil_append,
    foldlM_cons hcallback, foldlM_append hbody, List.nil_append, foldlM_cons hend, List.foldlM_cons, hclosing]
  cases attach owner e.outline p.folders <;> rfl

end Script

end GuiBuilder
