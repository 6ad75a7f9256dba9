import GuiBuilder.Proofs.Script.Blocks
import GuiBuilder.Proofs.Script.Lexer

/-!
# Indentation and the tokens of logic

The logic of an element is indented line by line in its script, unless a long bracket may open in it.
Both texts are read side by side. Where a line starts outside all strings, or among white space that an
escape skips, the indentation changes nothing (`State.Idle`), so the same tokens come out. The one other
place where a line may start is behind an escaped line end of a quoted string (`State.Midway`), and there
the indentation becomes part of the string. It is never lost again: from there on the second reading is
ahead of the first in the bytes of its string literals (`Reading.size`). So logic keeps its tokens exactly
if no line feed is escaped in a quoted string (`Script.lex_bodyLines_eq_iff`).
-/

namespace GuiBuilder

namespace Text

/-- What the first text starts with is what the join starts with. -/
theorem join_append_cons (separator start t : Text) (ts : List Text) :
    join separator ((start ++ t) :: ts) = start ++ join separator (t :: ts) := by
  cases ts with
  | nil => rfl
  | cons u ts => simp only [join, List.append_assoc]

end Text

namespace Script

/-! ### Indentation, one code point after the other -/

/-- A text with its lines indented, except for empty ones, and for the first one unless it is `fresh`. -/
def indentFrom : (fresh : Bool) → Text → Text
  | _, [] => []
  | fresh, p :: t =>
    (if fresh && decide (p ≠ .char '\n') then indent ++ indent else [])
      ++ p :: indentFrom (decide (p = .char '\n')) t

theorem join_indented (t : Text) :
    ∃ line lines, t.split (.char '\n') = line :: lines ∧
      Text.join "\n" (indentedLine line :: lines.map indentedLine) = indentFrom true t ∧
      Text.join "\n" (line :: lines.map indentedLine) = indentFrom false t := by
  induction t with
  | nil => exact ⟨[], [], rfl, rfl, rfl⟩
  | cons p t ih =>
    obtain ⟨line, lines, hsplit, hfresh, hlater⟩ := ih
    by_cases hp : p = .char '\n'
    · subst hp
      refine ⟨[], line :: lines, ?_, ?_, ?_⟩
      · rw [Text.split, if_pos rfl, hsplit]
      · exact congrArg (CodePoint.char '\n' :: ·) hfresh
      · exact congrArg (CodePoint.char '\n' :: ·) hfresh
    · refine ⟨p :: line, lines, ?_, ?_, ?_⟩
      · rw [Text.split, if_neg hp, hsplit]
      · have hline : indentedLine (p :: line) = (indent ++ indent ++ [p]) ++ line := by
          rw [List.append_assoc, List.singleton_append]
          rfl
        rw [hline, Text.join_append_cons, hlater]
        simp [indentFrom, hp]
      · show Text.join "\n" (([p] ++ line) :: lines.map indentedLine) = _
        rw [Text.join_append_cons, hlater]
        simp [indentFrom, hp]

theorem join_map_indentedLine (t : Text) :
    Text.join "\n" ((t.split (.char '\n')).map indentedLine) = indentFrom true t := by
  obtain ⟨line, lines, hsplit, hfresh, -⟩ := join_indented t
  rw [hsplit, List.map_cons, hfresh]

/-- The body of logic is the logic itself where a long bracket may open in it, and indented otherwise. -/
theorem join_bodyLines {t : Text} (hblank : ¬ t.isBlank = true) (placeholder : Text) :
    (HoldsLongBracket t → Text.join "\n" (bodyLines (some t) placeholder) = t) ∧
    (¬ HoldsLongBracket t → Text.join "\n" (bodyLines (some t) placeholder) = indentFrom true t) := by
  constructor
  · intro hlong
    rw [bodyLines, if_neg hblank, if_pos ((hasLongBracket_iff t).2 hlong), Text.join]
  · intro hlong
    rw [bodyLines, if_neg hblank, if_neg (fun h => hlong ((hasLongBracket_iff t).1 h)),
      join_map_indentedLine]

theorem HoldsLongBracket.append {t : Text} (h : HoldsLongBracket t) (before : Text) :
    HoldsLongBracket (before ++ t) := by
  obtain ⟨more, k, after, rfl⟩ := h
  exact ⟨before ++ more, k, after, by rw [List.append_assoc]⟩

end Script

namespace Lua

open Script

/-! ### Escaped line feeds -/

/-- Whether a line feed would belong to an escaped line end: it would be behind a backslash of a quoted
string, with or without a carriage return between. -/
def State.escapes : State → Bool
  | quoted _ _ .escape => true
  | quoted _ _ (.lineEnd other) => other = .char '\n'
  | _ => false

/-- Whether some line feed of a text belongs to an escaped line end of a quoted string. -/
def State.escapesLineFeed (s : State) : Text → Bool
  | [] => false
  | p :: t =>
    (decide (p = .char '\n') && s.escapes) ||
      match s.step p with
      | some (next, _) => next.escapesLineFeed t
      | none => false

/-! ### Where no long bracket opens -/

namespace State

/-- The part of a long bracket that has been read. -/
def opening : State → Text
  | bracket signs => .char '[' :: List.replicate signs (.char '=')
  | commentBracket signs => .char '[' :: List.replicate signs (.char '=')
  | _ => []

/-- Whether long brackets are open. -/
def isLong : State → Bool
  | longString .. => true
  | longComment .. => true
  | _ => false

/-- No long brackets are open, and none open in the rest of the text. -/
structure Clear (s : State) (rest : Text) : Prop where
  short : s.isLong = false
  unbracketed : ¬ HoldsLongBracket (s.opening ++ rest)

variable {s s' : State} {p : CodePoint} {t : Text} {tokens : List Token}

theorem Clear.rest (h : s.Clear t) : ¬ HoldsLongBracket t := fun ht => h.unbracketed (ht.append _)

theorem clear_start (h : ¬ HoldsLongBracket (p :: t)) : (start p).Clear t := by
  have ht : ¬ HoldsLongBracket t := fun ht => h (ht.append [p])
  unfold start
  split
  · exact ⟨rfl, ht⟩
  split
  · exact ⟨rfl, ht⟩
  split
  · exact ⟨rfl, ht⟩
  split
  · next hp =>
    subst hp
    exact ⟨rfl, h⟩
  split
  · exact ⟨rfl, ht⟩
  split
  · exact ⟨rfl, ht⟩
  · exact ⟨rfl, ht⟩

theorem clear_commentStep (h : ¬ HoldsLongBracket t) : (commentStep p).Clear t := by
  unfold commentStep
  split
  · exact ⟨rfl, h⟩
  · exact ⟨rfl, h⟩

theorem holdsLongBracket_complete (signs : ℕ) (t : Text) :
    HoldsLongBracket ((.char '[' :: List.replicate signs (.char '=')) ++ .char '[' :: t) :=
  ⟨[], signs, t, rfl⟩

/-- An equals sign behind an incomplete long bracket belongs to it. -/
theorem not_holdsLongBracket_sign {signs : ℕ}
    (h : ¬ HoldsLongBracket ((.char '[' :: List.replicate signs (.char '=')) ++ .char '=' :: t)) :
    ¬ HoldsLongBracket ((.char '[' :: List.replicate (signs + 1) (.char '=')) ++ t) := by
  rw [List.replicate_succ', List.cons_append, List.append_assoc, List.singleton_append]
  exact h

/-- A code point opens no long bracket where none opens in the text. -/
theorem Clear.step (h : s.Clear (p :: t)) (hstep : s.step p = some (s', tokens)) : s'.Clear t := by
  have hstart : (start p).Clear t := clear_start h.rest
  have ht : ¬ HoldsLongBracket t := fun ht => h.rest (ht.append [p])
  have hcomment : (commentStep p).Clear t := clear_commentStep ht
  cases s with
  | code =>
    cases hstep
    exact hstart
  | word spelled =>
    rw [State.step] at hstep
    split at hstep
    · cases hstep
      exact ⟨rfl, ht⟩
    · cases hstep
      exact hstart
  | numeral spelled =>
    rw [State.step] at hstep
    split at hstep
    · cases hstep
      exact ⟨rfl, ht⟩
    · cases hstep
      exact hstart
  | mark spelled =>
    rw [State.step] at hstep
    split at hstep
    · cases hstep
      exact ⟨rfl, ht⟩
    split at hstep
    · cases hstep
      exact ⟨rfl, ht⟩
    split at hstep
    · cases hstep
      exact ⟨rfl, ht⟩
    · cases hstep
      exact hstart
  | bracket signs =>
    rw [State.step] at hstep
    split at hstep
    · next hp =>
      subst hp
      exact absurd (holdsLongBracket_complete signs t) h.unbracketed
    split at hstep
    · next hp =>
      subst hp
      cases hstep
      exact ⟨rfl, not_holdsLongBracket_sign h.unbracketed⟩
    split at hstep
    · cases hstep
      exact hstart
    · cases hstep
  | dashes =>
    cases hstep
    split
    · next hp =>
      subst hp
      exact ⟨rfl, h.rest⟩
    · exact hcomment
  | commentBracket signs =>
    rw [State.step] at hstep
    split at hstep
    · next hp =>
      subst hp
      exact absurd (holdsLongBracket_complete signs t) h.unbracketed
    split at hstep
    · next hp =>
      subst hp
      cases hstep
      exact ⟨rfl, not_holdsLongBracket_sign h.unbracketed⟩
    · cases hstep
      exact hcomment
  | comment =>
    cases hstep
    exact hcomment
  | quoted quote value phase =>
    rcases step_quoted_cases hstep with ⟨bytes, next, -, rfl, -⟩ | ⟨bytes, -, rfl, -⟩
    · exact ⟨rfl, ht⟩
    · exact ⟨rfl, ht⟩
  | longString level value phase => cases h.short
  | longComment level phase => cases h.short

/-! ### Starts of lines -/

/-- Blanks change nothing. -/
inductive Idle : State → Prop where
  | code : Idle .code
  | skip (quote : Quote) (value : List UInt8) : Idle (.quoted quote value .skip)

/-- Blanks become part of a quoted string, and a line end is refused. -/
inductive Midway : State → Prop where
  | plain (quote : Quote) (value : List UInt8) : Midway (.quoted quote value .plain)
  | lineEnd (quote : Quote) (value : List UInt8) :
    Midway (.quoted quote value (.lineEnd (.char '\r')))

theorem plainStep_lineFeed (quote : Quote) : plainStep quote (.char '\n') = none := by
  cases quote <;> rfl

/-- A quoted string takes a line feed at three places only, and goes on. -/
theorem phase_step_lineFeed {quote : Quote} {phase : Phase} {bytes : List UInt8} {next? : Option Phase}
    (h : phase.step quote (.char '\n') = some (bytes, next?)) :
    (phase = .escape ∧ next? = some (.lineEnd (.char '\r'))) ∨
      (phase = .lineEnd (.char '\n') ∧ next? = some .plain) ∨ (phase = .skip ∧ next? = some .skip) := by
  cases phase with
  | plain =>
    rw [Phase.step, plainStep_lineFeed] at h
    cases h
  | escape =>
    cases h
    exact .inl ⟨rfl, rfl⟩
  | lineEnd other =>
    rw [Phase.step, plainStep_lineFeed] at h
    split at h
    · next hp =>
      cases h
      exact .inr (.inl ⟨hp ▸ rfl, rfl⟩)
    · cases h
  | skip =>
    cases h
    exact .inr (.inr ⟨rfl, rfl⟩)
  | decimal count value =>
    have hdigit : (CodePoint.char '\n').digit? = none := rfl
    simp [Phase.step, hdigit, plainStep_lineFeed] at h
  | hex first? =>
    cases first? with
    | none => cases h
    | some first => cases h
  | brace => cases h
  | scalar value? =>
    cases value? with
    | none => cases h
    | some value => cases h

theorem append_lineFeed_not_mem_longMarks (spelled : Text) : spelled ++ [.char '\n'] ∉ longMarks := by
  intro h
  have hlast : ∀ m ∈ longMarks, m.getLast? ≠ some (.char '\n') := by decide
  exact hlast _ h List.getLast?_concat

theorem Midway.step_lineFeed (h : s.Midway) : s.step (.char '\n') = none := by
  cases h with
  | plain quote value => cases quote <;> rfl
  | lineEnd quote value => cases quote <;> rfl

theorem Idle.not_midway (h : s.Idle) : ¬ s.Midway := by
  cases h <;> nofun

/-- Behind a line feed blanks change nothing, unless the line feed is escaped in a quoted string. -/
theorem step_lineFeed (hshort : s.isLong = false) (hstep : s.step (.char '\n') = some (s', tokens)) :
    (s.escapes = false → s'.Idle) ∧ (s.escapes = true → s'.Midway) := by
  have hcode (h : s.escapes = false) (hs : s' = .code) :
      (s.escapes = false → s'.Idle) ∧ (s.escapes = true → s'.Midway) :=
    ⟨fun _ => hs ▸ .code, fun h' => absurd h' (by simp [h])⟩
  cases s with
  | code =>
    cases hstep
    exact hcode rfl rfl
  | word spelled =>
    cases hstep
    exact hcode rfl rfl
  | numeral spelled =>
    rw [State.step, if_neg (by simp [goesOn, isVariablePoint])] at hstep
    cases hstep
    exact hcode rfl rfl
  | mark spelled =>
    rw [State.step, if_neg (by simp), if_neg (by simp [CodePoint.digit?]),
      if_neg (append_lineFeed_not_mem_longMarks spelled)] at hstep
    cases hstep
    exact hcode rfl rfl
  | bracket signs =>
    rw [State.step, if_neg (by simp), if_neg (by simp)] at hstep
    split at hstep
    · cases hstep
      exact hcode rfl rfl
    · cases hstep
  | dashes =>
    cases hstep
    exact hcode rfl rfl
  | commentBracket signs =>
    cases hstep
    exact hcode rfl rfl
  | comment =>
    cases hstep
    exact hcode rfl rfl
  | quoted quote value phase =>
    rcases step_quoted_cases hstep with ⟨bytes, next, hphase, rfl, -⟩ | ⟨bytes, hphase, -, -⟩
    · rcases phase_step_lineFeed hphase with ⟨rfl, hnext⟩ | ⟨rfl, hnext⟩ | ⟨rfl, hnext⟩
      · cases hnext
        exact ⟨fun h => absurd h (by simp [escapes]), fun _ => .lineEnd _ _⟩
      · cases hnext
        exact ⟨fun h => absurd h (by simp [escapes]), fun _ => .plain _ _⟩
      · cases hnext
        exact ⟨fun _ => .skip _ _, fun h => absurd h (by simp [escapes])⟩
    · rcases phase_step_lineFeed hphase with ⟨-, h⟩ | ⟨-, h⟩ | ⟨-, h⟩
      · cases h
      · cases h
      · cases h
  | longString level value phase => cases hshort
  | longComment level phase => cases hshort

/-- The same of a code point that turns out to be a line feed. -/
theorem Clear.step_end (h : s.Clear (p :: t)) (hstep : s.step p = some (s', tokens))
    (hp : decide (p = .char '\n') = true) :
    (s.escapes = false → s'.Idle) ∧ (s.escapes = true → s'.Midway) := by
  obtain rfl := of_decide_eq_true hp
  exact step_lineFeed h.short hstep

/-- What a step says of escaped line feeds. -/
theorem escapesLineFeed_cons (hstep : s.step p = some (s', tokens)) :
    s.escapesLineFeed (p :: t) = true ↔
      (p = .char '\n' ∧ s.escapes = true) ∨ s'.escapesLineFeed t = true := by
  rw [escapesLineFeed, hstep, Bool.or_eq_true, Bool.and_eq_true, decide_eq_true_iff]

end State

/-! ### The tokens stay -/

theorem indent_append_indent : indent ++ indent = List.replicate 8 (CodePoint.char ' ') := rfl

namespace Reading

variable {r r' q q' : Reading} {t : Text} {fresh : Bool}

theorem run_blanks_of_idle (h : r.state.Idle) (n : ℕ) :
    r.run (List.replicate n (.char ' ')) = some r := by
  have hstep : r.step (.char ' ') = some r := by
    obtain ⟨tokens, state⟩ := r
    cases h with
    | code => simp [step, State.step, start, isSpace]
    | skip quote value => simp [step, State.step, Phase.step, isSpace]
  induction n with
  | zero => rfl
  | succ n ih => rw [List.replicate_succ, run_cons, hstep, Option.bind_some, ih]

/-- If no line feed is escaped in a quoted string, the indentation is read as nothing. -/
theorem run_indentFrom (hclear : r.state.Clear t) (hfresh : fresh = true → r.state.Idle)
    (hescapes : ¬ r.state.escapesLineFeed t = true) (hrun : r.run t = some r') :
    r.run (indentFrom fresh t) = some r' := by
  induction t generalizing r fresh with
  | nil => exact hrun
  | cons p t ih =>
    obtain ⟨next, hnext, hrest⟩ := run_cons_eq_some.1 hrun
    obtain ⟨s, tokens, hs, rfl⟩ := step_eq_some.1 hnext
    rw [State.escapesLineFeed_cons hs, not_or] at hescapes
    have hblanks : r.run (if fresh && decide (p ≠ .char '\n') then indent ++ indent else []) = some r := by
      split
      · next h => exact run_blanks_of_idle (hfresh (Bool.and_eq_true_iff.1 h).1) 8
      · rfl
    have hidle : decide (p = .char '\n') = true → s.Idle := by
      intro hp
      have hnot : ¬ r.state.escapes = true := fun h => hescapes.1 ⟨of_decide_eq_true hp, h⟩
      exact (hclear.step_end hs hp).1 (Bool.eq_false_of_not_eq_true hnot)
    rw [indentFrom, run_append, hblanks, Option.bind_some, run_cons, hnext, Option.bind_some]
    exact ih (hclear.step hs) hidle hescapes.2 hrest

end Reading

/-! ### The tokens change -/

/-- How many bytes of string literals a token holds. -/
def Token.size : Token → ℕ
  | string value => value.length
  | _ => 0

/-- How many bytes of a string literal are under way. -/
def State.size : State → ℕ
  | quoted _ value _ => value.length
  | longString _ value _ => value.length
  | _ => 0

/-- How many bytes of string literals have been read. -/
def Reading.size (r : Reading) : ℕ := (r.tokens.map Token.size).sum + r.state.size

/-- The states of two readings, of which the second has more in a quoted string. -/
inductive State.Shadowed : State → State → Prop where
  | same (s : State) : Shadowed s s
  | quoted (quote : Quote) (value more : List UInt8) (phase : Phase) :
    Shadowed (.quoted quote value phase) (.quoted quote more phase)
  /-- What is indented is no longer behind the line end. -/
  | lineEnd (quote : Quote) (value more : List UInt8) :
    Shadowed (.quoted quote value (.lineEnd (.char '\r'))) (.quoted quote more .plain)

namespace State

variable {a b a' b' : State} {p : CodePoint} {quote : Quote} {value more : List UInt8} {phase phase' : Phase}
  {tokens tokens' : List Token}

/-- What a quoted string does with a code point does not depend on its value so far. -/
theorem shadowed_of_phase_step (hphase : phase.step quote p = phase'.step quote p)
    (ha : (quoted quote value phase).step p = some (a', tokens))
    (hb : (quoted quote more phase').step p = some (b', tokens')) :
    Shadowed a' b' ∧ (tokens.map Token.size).sum + a'.size + more.length
      = (tokens'.map Token.size).sum + b'.size + value.length := by
  rcases step_quoted_cases ha with ⟨bytes, next, hbytes, rfl, rfl⟩ | ⟨bytes, hbytes, rfl, rfl⟩
  · rcases step_quoted_cases hb with ⟨more, next, hmore, rfl, rfl⟩ | ⟨more, hmore, rfl, rfl⟩
    · cases hbytes.symm.trans (hphase.trans hmore)
      refine ⟨.quoted _ _ _ _, ?_⟩
      simp only [List.map_nil, List.sum_nil, State.size, List.length_append]
      omega
    · cases hbytes.symm.trans (hphase.trans hmore)
  · rcases step_quoted_cases hb with ⟨more, next, hmore, rfl, rfl⟩ | ⟨more, hmore, rfl, rfl⟩
    · cases hbytes.symm.trans (hphase.trans hmore)
    · cases hbytes.symm.trans (hphase.trans hmore)
      refine ⟨.same _, ?_⟩
      simp only [List.map_cons, List.map_nil, List.sum_cons, List.sum_nil, Token.size, State.size,
        List.length_append]
      omega

theorem Shadowed.step (h : Shadowed a b) (ha : a.step p = some (a', tokens))
    (hb : b.step p = some (b', tokens')) :
    Shadowed a' b' ∧ (tokens.map Token.size).sum + a'.size + b.size
      = (tokens'.map Token.size).sum + b'.size + a.size := by
  cases h with
  | same =>
    obtain ⟨rfl, rfl⟩ := Prod.mk.inj (Option.some.inj (ha.symm.trans hb))
    exact ⟨.same _, rfl⟩
  | quoted quote value more phase => exact shadowed_of_phase_step rfl ha hb
  | lineEnd quote value more =>
    by_cases hp : p = .char '\r'
    · subst hp
      cases quote with
      | single => cases hb
      | double => cases hb
    · have hphase : Phase.step quote (.lineEnd (.char '\r')) p = Phase.plain.step quote p := if_neg hp
      exact shadowed_of_phase_step hphase ha hb

theorem Shadowed.idle (h : Shadowed a b) (ha : a.Idle) : b.Idle := by
  cases h with
  | same => exact ha
  | quoted quote value more phase =>
    cases ha
    exact .skip _ _
  | lineEnd quote value more => cases ha

end State

namespace Reading

variable {r r' q q' : Reading} {t : Text} {fresh : Bool}

/-- If both readings go on, a code point adds as many bytes to the one as to the other. -/
theorem shadowed_step {p : CodePoint} (h : r.state.Shadowed q.state) (hr : r.step p = some r')
    (hq : q.step p = some q') : r'.state.Shadowed q'.state ∧ r'.size + q.size = q'.size + r.size := by
  obtain ⟨s, tokens, hs, rfl⟩ := step_eq_some.1 hr
  obtain ⟨s', tokens', hs', rfl⟩ := step_eq_some.1 hq
  obtain ⟨hshadowed, hsizes⟩ := h.step hs hs'
  refine ⟨hshadowed, ?_⟩
  simp only [size, List.map_append, List.sum_append]
  omega

theorem step_blank {phase : Phase} (h : phase = .plain ∨ phase = .lineEnd (.char '\r'))
    (tokens : List Token) (quote : Quote) (value : List UInt8) :
    step ⟨tokens, .quoted quote value phase⟩ (.char ' ')
      = some ⟨tokens, .quoted quote (value ++ [32]) .plain⟩ := by
  have hphase : phase.step quote (.char ' ') = some ([32], some .plain) := by
    rcases h with rfl | rfl
    · cases quote <;> rfl
    · cases quote <;> rfl
  exact step_quoted hphase tokens value

theorem run_blanks_of_plain (tokens : List Token) (quote : Quote) (value : List UInt8) (n : ℕ) :
    run ⟨tokens, .quoted quote value .plain⟩ (List.replicate n (.char ' '))
      = some ⟨tokens, .quoted quote (value ++ List.replicate n 32) .plain⟩ := by
  induction n generalizing value with
  | zero => simp [run]
  | succ n ih =>
    rw [List.replicate_succ, run_cons, step_blank (.inl rfl), Option.bind_some, ih, List.append_assoc,
      List.singleton_append, List.replicate_succ]

/-- Behind an escaped line end, the indentation becomes part of the string. -/
theorem exists_run_indent {a : State} (h : a.Shadowed q.state) (ha : a.Midway) :
    ∃ q', q.run (indent ++ indent) = some q' ∧ a.Shadowed q'.state ∧ q.size < q'.size := by
  have hgoes (tokens : List Token) (quote : Quote) (more : List UInt8) {phase : Phase}
      (hphase : phase = .plain ∨ phase = .lineEnd (.char '\r')) :
      run ⟨tokens, .quoted quote more phase⟩ (indent ++ indent)
        = some ⟨tokens, .quoted quote (more ++ [32] ++ List.replicate 7 32) .plain⟩ := by
    rw [indent_append_indent, List.replicate_succ, run_cons, step_blank hphase, Option.bind_some,
      run_blanks_of_plain]
  obtain ⟨tokens, state⟩ := q
  cases ha with
  | plain quote value =>
    cases h with
    | same => exact ⟨_, hgoes _ _ _ (.inl rfl), .quoted _ _ _ _, by simp [size, State.size]⟩
    | quoted => exact ⟨_, hgoes _ _ _ (.inl rfl), .quoted _ _ _ _, by simp [size, State.size]⟩
  | lineEnd quote value =>
    cases h with
    | same => exact ⟨_, hgoes _ _ _ (.inr rfl), .lineEnd _ _ _, by simp [size, State.size]⟩
    | quoted => exact ⟨_, hgoes _ _ _ (.inr rfl), .lineEnd _ _ _, by simp [size, State.size]⟩
    | lineEnd => exact ⟨_, hgoes _ _ _ (.inl rfl), .lineEnd _ _ _, by simp [size, State.size]⟩

/-- What the indentation before a code point does to the second reading. -/
theorem shadowed_run_indent {p : CodePoint} (hstate : r.state.Shadowed q.state)
    (hfresh : fresh = true → r.state.Idle ∨ r.state.Midway) (hr : r.step p = some r')
    (hq : q.run (if fresh && decide (p ≠ .char '\n') then indent ++ indent else []) = some q') :
    r.state.Shadowed q'.state ∧ q.size ≤ q'.size ∧
      (fresh = true ∧ r.state.Midway → q.size < q'.size) := by
  by_cases hp : fresh = true ∧ p ≠ .char '\n'
  · rw [if_pos (by simpa using hp)] at hq
    rcases hfresh hp.1 with hidle | hmidway
    · rw [indent_append_indent, run_blanks_of_idle (hstate.idle hidle)] at hq
      cases hq
      exact ⟨hstate, le_rfl, fun h => absurd h.2 hidle.not_midway⟩
    · obtain ⟨found, hfound, hshadowed, hlt⟩ := exists_run_indent hstate hmidway
      obtain rfl := Option.some.inj (hfound.symm.trans hq)
      exact ⟨hshadowed, hlt.le, fun _ => hlt⟩
  · rw [if_neg (by simpa using hp)] at hq
    cases hq
    refine ⟨hstate, le_rfl, fun h => ?_⟩
    -- an empty line in a quoted string would have been refused
    obtain rfl := not_not.1 fun hne => hp ⟨h.1, hne⟩
    rw [step, h.2.step_lineFeed] at hr
    cases hr

/-- Once the second reading is ahead it stays ahead, and it gets ahead where a line feed is escaped in a
quoted string. -/
theorem size_lt_of_run (hclear : r.state.Clear t) (hstate : r.state.Shadowed q.state)
    (hfresh : fresh = true → r.state.Idle ∨ r.state.Midway) (hle : r.size ≤ q.size)
    (hahead : r.size < q.size ∨ r.state.escapesLineFeed t = true ∨ (fresh = true ∧ r.state.Midway))
    (hr : r.run t = some r') (hq : q.run (indentFrom fresh t) = some q') (hend : ¬ r'.state.Midway) :
    r'.state.Shadowed q'.state ∧ r'.size < q'.size := by
  induction t generalizing r q fresh with
  | nil =>
    cases hr
    cases hq
    rcases hahead with h | h | ⟨-, h⟩
    · exact ⟨hstate, h⟩
    · cases h
    · exact absurd h hend
  | cons p t ih =>
    obtain ⟨next, hnext, hrest⟩ := run_cons_eq_some.1 hr
    rw [indentFrom, run_append_eq_some] at hq
    obtain ⟨q₁, hblanks, hq⟩ := hq
    obtain ⟨qnext, hqnext, hqrest⟩ := run_cons_eq_some.1 hq
    obtain ⟨s, tokens, hs, rfl⟩ := step_eq_some.1 hnext
    obtain ⟨hshadowed, hle', hlt'⟩ := shadowed_run_indent hstate hfresh hnext hblanks
    obtain ⟨hnextShadowed, hsizes⟩ := shadowed_step hshadowed hnext hqnext
    have hfeed := hclear.step_end hs
    refine ih (hclear.step hs) hnextShadowed (fun hp => ?_) (by omega) ?_ hrest hqrest
    · cases hescapes : r.state.escapes with
      | false => exact .inl ((hfeed hp).1 hescapes)
      | true => exact .inr ((hfeed hp).2 hescapes)
    · rcases hahead with h | h | h
      · exact .inl (by omega)
      · rcases (State.escapesLineFeed_cons hs).1 h with ⟨hp, hescapes⟩ | h
        · exact .inr (.inr ⟨decide_eq_true hp, (hfeed (decide_eq_true hp)).2 hescapes⟩)
        · exact .inr (.inl h)
      · have hlt := hlt' h
        exact .inl (by omega)

end Reading

end Lua

namespace Script

open Lua

/-- **The body of a callback has the tokens of its logic**, with the same values of string literals, exactly
if a long bracket may open in the logic, which is then kept as it is, or no line feed of the logic is escaped
in a quoted string. -/
theorem lex_bodyLines_eq_iff {t : Text} (placeholder : Text) {tokens : List Token}
    (hblank : ¬ t.isBlank = true) (hlex : lex t = some tokens) :
    lex (Text.join "\n" (bodyLines (some t) placeholder)) = some tokens ↔
      HoldsLongBracket t ∨ ¬ State.code.escapesLineFeed t = true := by
  by_cases hlong : HoldsLongBracket t
  · rw [(join_bodyLines hblank placeholder).1 hlong]
    exact iff_of_true hlex (.inl hlong)
  · have hclear : State.code.Clear t := ⟨rfl, hlong⟩
    obtain ⟨last, hlast, hfeed⟩ := Reading.run_append_eq_some.1 (lex_eq_some.1 hlex)
    rw [(join_bodyLines hblank placeholder).2 hlong, lex_eq_some]
    constructor
    · intro h
      refine .inr fun hescapes => ?_
      obtain ⟨ahead, hahead, hfeed'⟩ := Reading.run_append_eq_some.1 h
      rw [Reading.run_lineFeed] at hfeed hfeed'
      have hmidway : ¬ last.state.Midway := by
        intro hmidway
        rw [Reading.step, hmidway.step_lineFeed] at hfeed
        cases hfeed
      obtain ⟨hshadowed, hlt⟩ := Reading.size_lt_of_run hclear (.same _)
        (fun _ => .inl .code) le_rfl (.inr (.inl hescapes)) hlast hahead hmidway
      have hsizes := (Reading.shadowed_step hshadowed hfeed hfeed').2
      omega
    · rintro (h | h)
      · exact absurd h hlong
      · exact Reading.run_append_eq_some.2
          ⟨last, Reading.run_indentFrom hclear (fun _ => .code) h hlast, hfeed⟩

/-- White space behind an escaped z takes in the indentation. -/
theorem lex_bodyLines_eq_iff_skipped :
    let t := Text.ofString "print('a\\z\n b')"
    let tokens := [.word "print", .mark "(", .string [97, 98], .mark ")"]
    ¬ t.isBlank = true ∧ lex t = some tokens ∧ lex (Text.join "\n" (bodyLines (some t) [])) = some tokens := by
  intro t tokens
  have hblank : ¬ t.isBlank = true := by decide
  have hlex : lex t = some tokens := by decide
  exact ⟨hblank, hlex, (lex_bodyLines_eq_iff [] hblank hlex).2 (.inr (by decide))⟩

/-- Behind an escaped line feed, the indentation goes into the string. -/
theorem bodyLines_extend_string :
    let t := Text.ofString "print('a\\\nb')"
    ¬ t.isBlank = true ∧
      lex t = some [.word "print", .mark "(", .string [97, 10, 98], .mark ")"] ∧
      lex (Text.join "\n" (bodyLines (some t) []))
        = some [.word "print", .mark "(",
          .string [97, 10, 32, 32, 32, 32, 32, 32, 32, 32, 98], .mark ")"] := by
  decide

end Script

end GuiBuilder
