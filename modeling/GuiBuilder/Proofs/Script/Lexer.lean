import GuiBuilder.Json.Reader
import GuiBuilder.Proofs.Script.Quoted
import GuiBuilder.Script.Generate
import Mathlib.Data.Nat.Notation

/-!
# Lexical elements of Lua

A program text is read as a sequence of tokens: words, numerals, marks, and string literals with the
bytes that they stand for. `Lua.lex` is the longest-match lexer that the language describes, as a fold
of `Reading.step` over the code points: a state says what is under way, and each code point moves it on.
Inside a string literal a smaller machine decides, which never looks at the value that was read so far
(`Phase.step`, `LongPhase.step`). A text literal as scripts have it is read as one token (`lex_quoted`).

Quoted strings take all escapes: named ones, an escaped line end, `\z` with the white space behind it,
three decimal digits, two hexadecimal ones and a code point in braces. An escape with no meaning of its
own stands for its character, as it does in the dialects that do not refuse it. Line ends are line
feeds, carriage returns, and pairs of both. A text is refused where a string or a long comment is left
open, where a line ends inside a quoted string, and where an escape is malformed. Whether a numeral is
well formed, or a mark belongs to the language, is left to the parser.
-/

namespace GuiBuilder.Lua

open Script

/-- A lexical element. -/
inductive Token where
  /-- A name or a keyword. -/
  | word (spelled : Text)
  | numeral (spelled : Text)
  /-- An operator or another mark of punctuation. -/
  | mark (spelled : Text)
  /-- A string literal, by its value. -/
  | string (value : List UInt8)
deriving DecidableEq

/-! ### Characters -/

def isLineEnd (p : CodePoint) : Bool := p = .char '\n' || p = .char '\r'

/-- The character that makes a pair with a line end, and one line end only. -/
def otherLineEnd (p : CodePoint) : CodePoint := if p = .char '\n' then .char '\r' else .char '\n'

def isSpace (p : CodePoint) : Bool :=
  isLineEnd p || p = .char ' ' || p = .char '\t' || p = .char '\x0b' || p = .char '\x0c'

/-- The last bytes of an encoded number, with six bits each. -/
def continuation (n : ℕ) : (count : ℕ) → List UInt8
  | 0 => []
  | count + 1 => UInt8.ofNat (n / Nat.pow 64 count % 64 + 0x80) :: continuation n count

/-- The bytes of a number below 2 ^ 31, as UTF-8 had them before it ended at the last code point. -/
def encoded (n : ℕ) : List UInt8 :=
  if n < 0x80 then [UInt8.ofNat n]
  else if n < 0x800 then UInt8.ofNat (n / 64 + 0xC0) :: continuation n 1
  else if n < 0x10000 then UInt8.ofNat (n / Nat.pow 64 2 + 0xE0) :: continuation n 2
  else if n < 0x200000 then UInt8.ofNat (n / Nat.pow 64 3 + 0xF0) :: continuation n 3
  else if n < 0x4000000 then UInt8.ofNat (n / Nat.pow 64 4 + 0xF8) :: continuation n 4
  else UInt8.ofNat (n / Nat.pow 64 5 + 0xFC) :: continuation n 5

/-! ### Quoted strings -/

inductive Quote where
  | single
  | double
deriving DecidableEq

def Quote.mark : Quote → CodePoint
  | single => .char '\''
  | double => .char '"'

/-- Where in a quoted string the lexer stands. -/
inductive Phase where
  | plain
  /-- Behind a backslash. -/
  | escape
  /-- Behind an escaped line end. If `other` follows at once, it belongs to that line end. -/
  | lineEnd (other : CodePoint)
  /-- Among the white space behind an escaped z. -/
  | skip
  /-- Behind one or two decimal digits of an escape, with their value. -/
  | decimal (count value : ℕ)
  /-- Behind an escaped x, and behind the first digit if there is one. -/
  | hex (first? : Option ℕ)
  /-- Behind an escaped u. -/
  | brace
  /-- Behind the brace, and behind hexadecimal digits if there are any. -/
  | scalar (value? : Option ℕ)
deriving DecidableEq

/-- What the letters of the named escapes stand for. -/
def namedEscape? : CodePoint → Option UInt8
  | .char 'a' => some 7
  | .char 'b' => some 8
  | .char 't' => some 9
  | .char 'n' => some 10
  | .char 'v' => some 11
  | .char 'f' => some 12
  | .char 'r' => some 13
  | _ => none

/-- A code point where no escape is under way: what it adds to the value, and the phase after it, if
the string goes on. -/
def plainStep (quote : Quote) (p : CodePoint) : Option (List UInt8 × Option Phase) :=
  if p = quote.mark then some ([], none)
  else if p = .char '\\' then some ([], some .escape)
  else if isLineEnd p then none
  else some (encoded p.toNat, some .plain)

/-- The code point behind a backslash. -/
def escapeStep (p : CodePoint) : List UInt8 × Option Phase :=
  if isLineEnd p then ([10], some (.lineEnd (otherLineEnd p)))
  else if p = .char 'z' then ([], some .skip)
  else if p = .char 'x' then ([], some (.hex none))
  else if p = .char 'u' then ([], some .brace)
  else match p.digit? with
    | some d => ([], some (.decimal 1 d))
    | none => (((namedEscape? p).map ([·])).getD (encoded p.toNat), some .plain)

/-- A code point inside a quoted string: what it adds to the value, and the phase after it, if the
string goes on. -/
def Phase.step (quote : Quote) (phase : Phase) (p : CodePoint) : Option (List UInt8 × Option Phase) :=
  match phase with
  | plain => plainStep quote p
  | escape => some (escapeStep p)
  | lineEnd other => if p = other then some ([], some plain) else plainStep quote p
  | skip => if isSpace p then some ([], some skip) else plainStep quote p
  | decimal count value =>
    match p.digit? with
    | none => (plainStep quote p).map fun (bytes, next) => (UInt8.ofNat value :: bytes, next)
    | some d =>
      let value := 10 * value + d
      if count < 2 then some ([], some (decimal (count + 1) value))
      else if value < 256 then some ([UInt8.ofNat value], some plain)
      else none
  | hex first? =>
    match Json.hexValue? p, first? with
    | some d, none => some ([], some (hex (some d.val)))
    | some d, some first => some ([UInt8.ofNat (16 * first + d.val)], some plain)
    | none, _ => none
  | brace => if p = .char '{' then some ([], some (scalar none)) else none
  | scalar value? =>
    match Json.hexValue? p, value? with
    | some d, _ =>
      let value := 16 * value?.getD 0 + d.val
      if value < 0x80000000 then some ([], some (scalar (some value))) else none
    | none, some value => if p = .char '}' then some (encoded value, some plain) else none
    | none, none => none

/-! ### Long brackets -/

/-- Where between long brackets the lexer stands. -/
inductive LongPhase where
  /-- Behind the brackets that open; a line end that follows at once does not count. -/
  | opened
  | inside
  /-- Behind a line end. If `other` follows at once, it belongs to that line end. -/
  | lineEnd (other : CodePoint)
  /-- Behind a bracket that may close, and behind some equals signs. -/
  | closing (signs : ℕ)
deriving DecidableEq

/-- A code point that is between the brackets. -/
def insideStep (p : CodePoint) : List UInt8 × Option LongPhase :=
  if p = .char ']' then ([], some (.closing 0))
  else if isLineEnd p then ([10], some (.lineEnd (otherLineEnd p)))
  else (encoded p.toNat, some .inside)

/-- A code point behind long brackets of a level: what it adds to the value, and the phase after it, if
the brackets stay open. -/
def LongPhase.step (level : ℕ) (phase : LongPhase) (p : CodePoint) : List UInt8 × Option LongPhase :=
  match phase with
  | opened => if isLineEnd p then ([], some (lineEnd (otherLineEnd p))) else insideStep p
  | inside => insideStep p
  | lineEnd other => if p = other then ([], some inside) else insideStep p
  | closing signs =>
    if p = .char '=' then ([], some (closing (signs + 1)))
    else if p = .char ']' ∧ signs = level then ([], none)
    else
      let (bytes, next) := insideStep p
      (encoded ']'.toNat ++ (List.replicate signs (encoded '='.toNat)).flatten ++ bytes, next)

/-! ### The lexer -/

/-- What is under way. -/
inductive State where
  /-- Nothing: the next code point starts afresh. -/
  | code
  | word (spelled : Text)
  | numeral (spelled : Text)
  | mark (spelled : Text)
  /-- Behind a bracket and some equals signs, where long brackets may open. -/
  | bracket (signs : ℕ)
  /-- Behind the dashes that start a comment. -/
  | dashes
  /-- In a comment, behind a bracket and some equals signs right after the dashes. -/
  | commentBracket (signs : ℕ)
  /-- In a comment that ends with its line. -/
  | comment
  | quoted (quote : Quote) (value : List UInt8) (phase : Phase)
  | longString (level : ℕ) (value : List UInt8) (phase : LongPhase)
  | longComment (level : ℕ) (phase : LongPhase)
deriving DecidableEq

/-- The marks of several characters. With each of them, what is left without its last character is a
mark, too. -/
def longMarks : List Text := ["==", "~=", "<=", ">=", "<<", ">>", "//", "::", "..", "..."]

/-- Whether a numeral goes on: with letters and digits, points, and a sign behind the letter of an
exponent. -/
def goesOn (spelled : Text) (p : CodePoint) : Bool :=
  let exponents : Text := if spelled.take 2 ∈ (["0x", "0X"] : List Text) then "pP" else "eE"
  isVariablePoint p || p = .char '.' ||
    ((p = .char '+' || p = .char '-') && spelled.getLast?.any (· ∈ exponents))

/-- What a code point starts. -/
def start (p : CodePoint) : State :=
  if isSpace p then .code
  else if p = .char '"' then .quoted .double [] .plain
  else if p = .char '\'' then .quoted .single [] .plain
  else if p = .char '[' then .bracket 0
  else if p.digit?.isSome then .numeral [p]
  else if isVariablePoint p then .word [p]
  else .mark [p]

/-- A code point in a comment that ends with its line. -/
def commentStep (p : CodePoint) : State := if isLineEnd p then .code else .comment

/-- The state after a code point, and the tokens that end before it or with it. -/
def State.step (s : State) (p : CodePoint) : Option (State × List Token) :=
  match s with
  | code => some (start p, [])
  | word spelled =>
    if isVariablePoint p then some (word (spelled ++ [p]), [])
    else some (start p, [.word spelled])
  | numeral spelled =>
    if goesOn spelled p then some (numeral (spelled ++ [p]), []) else some (start p, [.numeral spelled])
  | mark spelled =>
    if spelled = "-" ∧ p = .char '-' then some (dashes, [])
    else if spelled = "." ∧ p.digit?.isSome then some (numeral (spelled ++ [p]), [])
    else if spelled ++ [p] ∈ longMarks then some (mark (spelled ++ [p]), [])
    else some (start p, [.mark spelled])
  | bracket signs =>
    if p = .char '[' then some (longString signs [] .opened, [])
    else if p = .char '=' then some (bracket (signs + 1), [])
    else if signs = 0 then some (start p, [.mark "["])
    else none
  | dashes => some (if p = .char '[' then commentBracket 0 else commentStep p, [])
  | commentBracket signs =>
    if p = .char '[' then some (longComment signs .opened, [])
    else if p = .char '=' then some (commentBracket (signs + 1), [])
    else some (commentStep p, [])
  | comment => some (commentStep p, [])
  | quoted quote value phase =>
    (phase.step quote p).map fun
      | (bytes, some next) => (quoted quote (value ++ bytes) next, [])
      | (bytes, none) => (code, [.string (value ++ bytes)])
  | longString level value phase =>
    match phase.step level p with
    | (bytes, some next) => some (longString level (value ++ bytes) next, [])
    | (bytes, none) => some (code, [.string (value ++ bytes)])
  | longComment level phase =>
    match phase.step level p with
    | (_, some next) => some (longComment level next, [])
    | (_, none) => some (code, [])

/-- What has been read so far. -/
structure Reading where
  tokens : List Token
  state : State
deriving DecidableEq

/-- The start of a text. -/
def Reading.initial : Reading := ⟨[], .code⟩

def Reading.step (r : Reading) (p : CodePoint) : Option Reading :=
  (r.state.step p).map fun (s, tokens) => ⟨r.tokens ++ tokens, s⟩

/-- What has been read behind a text. -/
def Reading.run (r : Reading) (t : Text) : Option Reading := t.foldlM step r

/-- The tokens of a text, unless it is refused. The end of the text is read as a line end: it ends all
that may stand at the end of a line, and nothing else may stand at the end of a text. -/
def lex (t : Text) : Option (List Token) :=
  (Reading.initial.run (t ++ "\n")).bind fun r => if r.state = .code then some r.tokens else none

/-! ### Runs of the lexer -/

namespace Reading

variable {r r' : Reading} {p : CodePoint} {t u : Text}

theorem step_eq_some :
    r.step p = some r' ↔
      ∃ s tokens, r.state.step p = some (s, tokens) ∧ ⟨r.tokens ++ tokens, s⟩ = r' := by
  rw [step, Option.map_eq_some_iff, Prod.exists]

theorem run_cons (r : Reading) (p : CodePoint) (t : Text) :
    r.run (p :: t) = (r.step p).bind fun next => next.run t := List.foldlM_cons

theorem run_append (r : Reading) (t u : Text) :
    r.run (t ++ u) = (r.run t).bind fun next => next.run u := List.foldlM_append

theorem run_cons_eq_some :
    r.run (p :: t) = some r' ↔ ∃ next, r.step p = some next ∧ next.run t = some r' := by
  rw [run_cons, Option.bind_eq_some_iff]

theorem run_append_eq_some :
    r.run (t ++ u) = some r' ↔ ∃ next, r.run t = some next ∧ next.run u = some r' := by
  rw [run_append, Option.bind_eq_some_iff]

theorem run_lineFeed (r : Reading) : r.run "\n" = r.step (.char '\n') := by
  show r.run [.char '\n'] = _
  rw [run_cons]
  cases r.step (.char '\n') <;> rfl

end Reading

/-- A quoted string goes on, or it ends with its token. -/
theorem State.step_quoted_cases {quote : Quote} {value : List UInt8} {phase : Phase} {p : CodePoint} {s : State}
    {tokens : List Token} (h : (quoted quote value phase).step p = some (s, tokens)) :
    (∃ bytes next, phase.step quote p = some (bytes, some next) ∧
      s = quoted quote (value ++ bytes) next ∧ tokens = []) ∨
    (∃ bytes, phase.step quote p = some (bytes, none) ∧ s = code ∧ tokens = [.string (value ++ bytes)]) := by
  rw [step, Option.map_eq_some_iff] at h
  obtain ⟨⟨bytes, next?⟩, hphase, hnext⟩ := h
  cases next? with
  | none =>
    cases hnext
    exact .inr ⟨bytes, hphase, rfl, rfl⟩
  | some next =>
    cases hnext
    exact .inl ⟨bytes, next, hphase, rfl, rfl⟩

theorem lex_eq_some {t : Text} {tokens : List Token} :
    lex t = some tokens ↔ Reading.initial.run (t ++ "\n") = some ⟨tokens, .code⟩ := by
  rw [lex, Option.bind_eq_some_iff]
  constructor
  · rintro ⟨⟨found, state⟩, hrun, h⟩
    by_cases hcode : state = .code
    · rw [if_pos hcode, Option.some.injEq] at h
      rw [hrun, ← h, hcode]
    · rw [if_neg hcode] at h
      cases h
  · intro hrun
    exact ⟨_, hrun, if_pos rfl⟩

/-! ### Text literals -/

/-- A character has the bytes of its UTF-8 form. -/
theorem encoded_toNat (c : Char) : encoded c.toNat = String.utf8EncodeChar c := by
  have hmax : c.toNat < 0x110000 := by
    rcases c.valid with h | h
    · exact Nat.lt_trans h (by decide)
    · exact h.2
  have hval : c.val.toNat = c.toNat := rfl
  rw [String.utf8EncodeChar, hval]
  generalize c.toNat = n at hmax
  by_cases h1 : n < 0x80
  · rw [encoded, if_pos h1, if_pos (by omega)]
  by_cases h2 : n < 0x800
  · have hfirst : n / 64 % 32 = n / 64 := Nat.mod_eq_of_lt (by omega)
    rw [encoded, if_neg h1, if_pos h2, if_neg (by omega), if_pos (by omega), hfirst]
    simp [continuation]
  by_cases h3 : n < 0x10000
  · have hfirst : n / 4096 % 16 = n / 4096 := Nat.mod_eq_of_lt (by omega)
    rw [encoded, if_neg h1, if_neg h2, if_pos h3, if_neg (by omega), if_neg (by omega), if_pos (by omega),
      hfirst]
    simp [continuation]
  · have hfirst : n / 262144 % 8 = n / 262144 := Nat.mod_eq_of_lt (by omega)
    rw [encoded, if_neg h1, if_neg h2, if_neg h3, if_pos (by omega), if_neg (by omega), if_neg (by omega),
      if_neg (by omega), hfirst]
    simp [continuation]

/-- The bytes of a text: its UTF-8 form, in which a surrogate half has three bytes of its own. -/
def encodedText (t : Text) : List UInt8 := t.flatMap fun p => encoded p.toNat

theorem encodedText_of_utf8? {t : Text} {bytes : List UInt8} (h : t.utf8? = some bytes) :
    encodedText t = bytes := by
  induction t generalizing bytes with
  | nil => exact Option.some.inj h
  | cons p t ih =>
    cases p with
    | char c =>
      obtain ⟨rest, hrest, rfl⟩ := Option.map_eq_some_iff.1 h
      rw [← ih hrest, ← encoded_toNat]
      rfl
    | surrogate i => cases h

theorem escapeStep_digitChar : ∀ d < 10,
    escapeStep (.char (Nat.digitChar d)) = ([], some (.decimal 1 d)) := by
  decide

namespace Reading

theorem step_quoted {phase next : Phase} {quote : Quote} {bytes : List UInt8} {p : CodePoint}
    (h : phase.step quote p = some (bytes, some next)) (tokens : List Token) (value : List UInt8) :
    step ⟨tokens, .quoted quote value phase⟩ p = some ⟨tokens, .quoted quote (value ++ bytes) next⟩ := by
  simp [step, State.step, h]

theorem run_quoted {phase next : Phase} {quote : Quote} {bytes : List UInt8} {p : CodePoint} {t : Text}
    (h : phase.step quote p = some (bytes, some next)) (tokens : List Token) (value : List UInt8) :
    run ⟨tokens, .quoted quote value phase⟩ (p :: t)
      = run ⟨tokens, .quoted quote (value ++ bytes) next⟩ t := by
  rw [run_cons, step_quoted h, Option.bind_some]

/-- Three digits are the escape of their number. -/
theorem run_threeDigits {n : ℕ} (hn : n < 128) (tokens : List Token) (value : List UInt8) :
    run ⟨tokens, .quoted .double value .escape⟩ ((threeDigits n).map CodePoint.char)
      = some ⟨tokens, .quoted .double (value ++ [UInt8.ofNat n]) .plain⟩ := by
  have hb := digit?_digitChar (n / 10 % 10) (Nat.mod_lt _ (by decide))
  have hc := digit?_digitChar (n % 10) (Nat.mod_lt _ (by decide))
  have hfirst : Phase.escape.step .double (.char (Nat.digitChar (n / 100 % 10)))
      = some ([], some (.decimal 1 (n / 100 % 10))) :=
    congrArg some (escapeStep_digitChar _ (Nat.mod_lt _ (by decide)))
  have hsecond : (Phase.decimal 1 (n / 100 % 10)).step .double (.char (Nat.digitChar (n / 10 % 10)))
      = some ([], some (.decimal 2 (n / 10))) := by
    have hvalue : 10 * (n / 100 % 10) + n / 10 % 10 = n / 10 := by omega
    simp [Phase.step, hb, hvalue]
  have hthird : (Phase.decimal 2 (n / 10)).step .double (.char (Nat.digitChar (n % 10)))
      = some ([UInt8.ofNat n], some .plain) := by
    have hvalue : 10 * (n / 10) + n % 10 = n := by omega
    simp [Phase.step, hc, hvalue, show n < 256 by omega]
  rw [threeDigits, List.map_cons, List.map_cons, List.map_cons, run_quoted hfirst, run_quoted hsecond,
    run_quoted hthird, List.append_nil, List.append_nil]
  rfl

/-- What a literal writes for a code point adds its bytes to the value. -/
theorem run_escaped (p : CodePoint) (tokens : List Token) (value : List UInt8) :
    run ⟨tokens, .quoted .double value .plain⟩ (escaped p)
      = some ⟨tokens, .quoted .double (value ++ encoded p.toNat) .plain⟩ := by
  have hslash (t : Text) : run ⟨tokens, .quoted .double value .plain⟩ (.char '\\' :: t)
      = run ⟨tokens, .quoted .double value .escape⟩ t := by
    rw [run_quoted rfl, List.append_nil]
  have hpair {q : CodePoint} {bytes : List UInt8} (h : escapeStep q = (bytes, some .plain)) :
      run ⟨tokens, .quoted .double value .plain⟩ [.char '\\', q]
        = some ⟨tokens, .quoted .double (value ++ bytes) .plain⟩ := by
    have hphase : Phase.escape.step .double q = some (bytes, some .plain) := congrArg some h
    rw [hslash, run_quoted hphase]
    rfl
  unfold escaped
  split
  · exact hpair rfl
  · exact hpair rfl
  · exact hpair rfl
  · exact hpair rfl
  · exact hpair rfl
  · next hnotSlash hnotQuote hnotFeed hnotReturn _ =>
    split
    · next hcontrol =>
      have hlow : p.toNat < 128 := by omega
      rw [hslash, run_threeDigits hlow, encoded, if_pos hlow]
    · have hend : ¬ isLineEnd p = true := by
        rw [isLineEnd, Bool.or_eq_true, decide_eq_true_iff, decide_eq_true_iff, not_or]
        exact ⟨hnotFeed, hnotReturn⟩
      have hplain : Phase.plain.step .double p = some (encoded p.toNat, some .plain) := by
        rw [Phase.step, plainStep, Quote.mark, if_neg hnotQuote, if_neg hnotSlash, if_neg hend]
      rw [run_quoted hplain]
      rfl

theorem run_flatMap_escaped (t : Text) (tokens : List Token) (value : List UInt8) :
    run ⟨tokens, .quoted .double value .plain⟩ (t.flatMap escaped)
      = some ⟨tokens, .quoted .double (value ++ encodedText t) .plain⟩ := by
  induction t generalizing value with
  | nil =>
    rw [encodedText, List.flatMap_nil, List.flatMap_nil, List.append_nil]
    rfl
  | cons p t ih =>
    rw [List.flatMap_cons, run_append, run_escaped, Option.bind_some, ih, List.append_assoc, encodedText,
      encodedText, List.flatMap_cons]

/-- **A text literal is one token**, wherever a string may start, and ends what was under way before it. -/
theorem run_quotedText {s : State} {ended : List Token}
    (h : s.step (.char '"') = some (.quoted .double [] .plain, ended)) (tokens : List Token) (t : Text) :
    run ⟨tokens, s⟩ (Script.quoted t) = some ⟨tokens ++ ended ++ [.string (encodedText t)], .code⟩ := by
  have hopen : step ⟨tokens, s⟩ (.char '"') = some ⟨tokens ++ ended, .quoted .double [] .plain⟩ :=
    congrArg (Option.map _) h
  have hclose : run ⟨tokens ++ ended, .quoted .double (encodedText t) .plain⟩ [.char '"']
      = some ⟨tokens ++ ended ++ [.string (encodedText t)], .code⟩ := by
    simp [run, step, State.step, Phase.step, plainStep, Quote.mark]
  rw [Script.quoted, List.cons_append, run_cons, hopen, Option.bind_some, run_append, run_flatMap_escaped,
    Option.bind_some, List.nil_append, hclose]

/-- A comment goes on up to the end of its line. -/
theorem run_comment {t : Text} (h : ∀ p ∈ t, isLineEnd p = false) (tokens : List Token) :
    run ⟨tokens, .comment⟩ t = some ⟨tokens, .comment⟩ := by
  induction t with
  | nil => rfl
  | cons p t ih =>
    rw [List.forall_mem_cons] at h
    have hstep : step ⟨tokens, .comment⟩ p = some ⟨tokens, .comment⟩ := by
      simp [step, State.step, commentStep, h.1]
    rw [run_cons, hstep, Option.bind_some, ih h.2]

end Reading

/-- The value of a text literal that is a whole program is the text in UTF-8. -/
theorem lex_quoted {t : Text} {bytes : List UInt8} (h : t.utf8? = some bytes) :
    lex (quoted t) = some [.string bytes] := by
  have hstart : State.code.step (.char '"') = some (.quoted .double [] .plain, []) := rfl
  rw [lex_eq_some, Reading.run_append, Reading.initial, Reading.run_quotedText hstart, encodedText_of_utf8? h]
  rfl

end GuiBuilder.Lua
