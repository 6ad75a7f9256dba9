import GuiBuilder.Json.Error
import GuiBuilder.Json.Quoted
import GuiBuilder.Number.Numeral
import GuiBuilder.Value.Basic

/-!
# Reading JSON

`Json.read` reads the one value that a text consists of. Beyond the standard it accepts `NaN`,
`Infinity` and `-Infinity`, and an escape may spell a surrogate half on its own. A key that occurs
again in an object keeps its first place and takes the last value. A number without a point and an
exponent is an integer. How deeply containers may be nested and how many digits an integer may have
are the `Limits` of the reader; `Json.read` is given the first of them.

The functions on a part of the text return the value and what follows it. An error says how much
of the text was left where it arose, so no position is carried along.
-/

namespace GuiBuilder.Json

/-- Why reading stopped. A malformation comes with the number of code points from there to the
end of the text. -/
inductive Stop where
  | malformed (cause : Malformation) (remaining : Nat)
  | oversizedInteger (digits : Nat)
  | tooDeep (container : Container)
deriving DecidableEq

/-- A value read from the start of a text and what follows it, or why there is none. -/
abbrev Parsed (α : Type) := Except Stop (α × Text)

/-- Reads on with what follows. -/
def Parsed.andThen {α β : Type} (first : Parsed α) (next : α → Text → Parsed β) : Parsed β :=
  match first with
  | .ok (a, rest) => next a rest
  | .error stop => .error stop

/-- The same reading with another result. -/
def Parsed.yield {α β : Type} (first : Parsed α) (f : α → β) : Parsed β :=
  first.andThen fun a rest => .ok (f a, rest)

/-- White space between the tokens: blank, tabulator, line feed and carriage return. -/
def isSpace (p : CodePoint) : Bool :=
  p = .char ' ' || p = .char '\t' || p = .char '\n' || p = .char '\r'

/-- The text from its first token on. -/
def skipSpace (t : Text) : Text := t.dropWhile isSpace

/-! ### Strings -/

/-- A piece of a string: a code point that stands for itself, or a UTF-16 unit from an escape. -/
inductive Piece where
  | plain (p : CodePoint)
  | unit (n : Fin 0x10000)

/-- Among sixteen numbers in a row, each lies less than sixteen above the first. -/
theorem sub_lt_sixteen {n low high first : Nat} (h : low ≤ n ∧ n ≤ high) (hs : high < first + 16) :
    n - first < 16 := by
  omega

/-- The value of a hexadecimal digit, in either case. -/
def hexValue? : CodePoint → Option (Fin 16)
  | .char c =>
    let n := c.toNat
    if h : '0'.toNat ≤ n ∧ n ≤ '9'.toNat then some ⟨n - 48, sub_lt_sixteen h (by decide)⟩
    else if h : 'a'.toNat ≤ n ∧ n ≤ 'f'.toNat then some ⟨n - 87, sub_lt_sixteen h (by decide)⟩
    else if h : 'A'.toNat ≤ n ∧ n ≤ 'F'.toNat then some ⟨n - 55, sub_lt_sixteen h (by decide)⟩
    else none
  | .surrogate _ => none

/-- The UTF-16 unit that four hexadecimal digits spell. -/
def unit? (a b c d : CodePoint) : Option (Fin 0x10000) :=
  match hexValue? a, hexValue? b, hexValue? c, hexValue? d with
  | some a, some b, some c, some d =>
    some ⟨((a.val * 16 + b.val) * 16 + c.val) * 16 + d.val, by omega⟩
  | _, _, _, _ => none

/-- What a letter after a backslash stands for. -/
def escape? : CodePoint → Option Char
  | .char '"' => some '"'
  | .char '\\' => some '\\'
  | .char '/' => some '/'
  | .char 'b' => some '\x08'
  | .char 'f' => some '\x0c'
  | .char 'n' => some '\n'
  | .char 'r' => some '\r'
  | .char 't' => some '\t'
  | _ => none

/-- The pieces of a string after its opening quote, up to the closing one. `opening` is what was
left of the text at the opening quote. The digits of an escape must not end the text. -/
def readPieces (opening : Nat) : Text → Parsed (List Piece)
  | [] => .error (.malformed .unterminatedString opening)
  | .char '"' :: rest => .ok ([], rest)
  | [.char '\\'] => .error (.malformed .unterminatedString opening)
  | .char '\\' :: .char 'u' :: a :: b :: c :: d :: e :: rest =>
    match unit? a b c d with
    | some n => Parsed.yield (readPieces opening (e :: rest)) (.unit n :: ·)
    | none => .error (.malformed .incompleteEscape (rest.length + 6))
  | .char '\\' :: .char 'u' :: rest => .error (.malformed .incompleteEscape (rest.length + 1))
  | .char '\\' :: p :: rest =>
    match escape? p with
    | some c => Parsed.yield (readPieces opening rest) (.plain (.char c) :: ·)
    | none => .error (.malformed .unknownEscape (rest.length + 2))
  | p :: rest =>
    if p.toNat < 0x20 then .error (.malformed .controlCharacter (rest.length + 1))
    else Parsed.yield (readPieces opening rest) (.plain p :: ·)

/-- The code point that a single UTF-16 unit stands for: a surrogate half stays one. -/
def ofUnit (n : Fin 0x10000) : CodePoint := (CodePoint.ofNat? n.val).getD default

/-- The code point that two UTF-16 units stand for, if they are a surrogate pair. -/
def ofPair? (high low : Fin 0x10000) : Option CodePoint :=
  if 0xD800 ≤ high.val ∧ high.val < 0xDC00 ∧ 0xDC00 ≤ low.val ∧ low.val < 0xE000 then
    CodePoint.ofNat? (0x10000 + (high.val - 0xD800) * 0x400 + (low.val - 0xDC00))
  else none

/-- The text that the pieces spell. Two escapes that are a surrogate pair spell one character. -/
def joinPieces : List Piece → Text
  | [] => []
  | .plain p :: rest => p :: joinPieces rest
  | [.unit n] => [ofUnit n]
  | .unit n :: .plain p :: rest => ofUnit n :: p :: joinPieces rest
  | .unit high :: .unit low :: rest =>
    match ofPair? high low with
    | some p => p :: joinPieces rest
    | none => ofUnit high :: joinPieces (.unit low :: rest)

/-- The string whose opening quote has just been passed. -/
def readString (rest : Text) : Parsed Text :=
  Parsed.yield (readPieces (rest.length + 1) rest) joinPieces

/-! ### Numbers -/

/-- A fraction: a point and at least one digit. -/
def spanFraction : Text → List Nat × Text
  | .char '.' :: rest =>
    match Text.spanDigits rest with
    | ([], _) => ([], .char '.' :: rest)
    | (digits, rest) => (digits, rest)
  | t => ([], t)

/-- An exponent: a mark, an optional sign and at least one digit. -/
def spanExponent (t : Text) : Option Int × Text :=
  match t with
  | .char c :: rest =>
    if c = 'e' ∨ c = 'E' then
      match Text.spanDigits (Text.spanSign rest).2 with
      | ([], _) => (none, t)
      | (digits, after) =>
        let n : Int := digitsValue digits
        (some (if (Text.spanSign rest).1 then -n else n), after)
    else (none, t)
  | _ => (none, t)

/-- The digits before the point: a zero stands alone. -/
def spanWhole (t : Text) : List Nat × Text :=
  match Text.spanDigits t with
  | (0 :: _, _) => ([0], t.drop 1)
  | other => other

/-- An unsigned number at the start of a text, an integer unless it has a fraction or an exponent.
An integer has at most `digits` digits. -/
def readUnsigned (digits : Nat) (negative : Bool) (t : Text) : Option (Parsed Value) :=
  match spanWhole t with
  | ([], _) => none
  | (whole, rest) =>
    match spanFraction rest with
    | (fraction, rest') =>
      match spanExponent rest' with
      | (none, after) =>
        if fraction.isEmpty then
          if digits < whole.length then some (.error (.oversizedInteger whole.length))
          else
            let n : Int := digitsValue whole
            some (.ok (.int (if negative then -n else n), after))
        else some (.ok (.float (Numeral.toBinary64 ⟨negative, whole, fraction, 0⟩), after))
      | (some e, after) =>
        some (.ok (.float (Numeral.toBinary64 ⟨negative, whole, fraction, e⟩), after))

/-- A number at the start of a text. -/
def readNumber (digits : Nat) (t : Text) : Parsed Value :=
  let number := match t with
    | .char '-' :: rest => readUnsigned digits true rest
    | _ => readUnsigned digits false t
  number.getD (.error (.malformed .expectedValue t.length))

/-! ### Values -/

/-- What follows a word at the start of a text. -/
def after? (word : String) (t : Text) : Option Text :=
  let w := Text.ofString word
  if w.isPrefixOf t then some (t.drop w.length) else none

/-- The words that stand for a value. -/
def words : List (String × Value) :=
  [("null", .null), ("true", .bool true), ("false", .bool false), ("NaN", .float .nan),
   ("Infinity", .float (.infinite false)), ("-Infinity", .float (.infinite true))]

/-- A word or a number at the start of a text. -/
def readScalar (digits : Nat) (t : Text) : Parsed Value :=
  match words.findSome? fun (word, v) => (after? word t).map fun rest => (v, rest) with
  | some result => .ok result
  | none => readNumber digits t

mutual

/-- A value at the start of a text, in which containers may be nested `depth` deep and integers
have at most `digits` digits. `fuel` bounds the depth of the calls; a container takes two calls, so
twice the length of the text and one more is enough. -/
def readValue (digits depth : Nat) : (fuel : Nat) → Text → Parsed Value
  | 0, t => .error (.malformed .expectedValue t.length)
  | fuel + 1, t =>
    match t with
    | .char '"' :: rest => Parsed.yield (readString rest) .text
    | .char '[' :: rest =>
      match depth with
      | 0 => .error (.tooDeep .array)
      | depth + 1 =>
        match skipSpace rest with
        | .char ']' :: rest => .ok (.array [], rest)
        | rest => Parsed.yield (readItems digits depth fuel rest) .array
    | .char '{' :: rest =>
      match depth with
      | 0 => .error (.tooDeep .object)
      | depth + 1 =>
        match skipSpace rest with
        | .char '}' :: rest => .ok (.object [], rest)
        | rest =>
          Parsed.yield (readFields digits depth fuel rest) fun fields => .object (Fields.ofList fields)
    | _ => readScalar digits t

/-- The items of an array from one of them on, and the closing bracket. -/
def readItems (digits depth : Nat) : (fuel : Nat) → Text → Parsed (List Value)
  | 0, t => .error (.malformed .expectedValue t.length)
  | fuel + 1, t =>
    Parsed.andThen (readValue digits depth fuel t) fun v rest =>
      match skipSpace rest with
      | .char ']' :: rest => .ok ([v], rest)
      | .char ',' :: rest => Parsed.yield (readItems digits depth fuel (skipSpace rest)) (v :: ·)
      | rest => .error (.malformed .expectedComma rest.length)

/-- The fields of an object from the name of one of them on, and the closing brace. -/
def readFields (digits depth : Nat) : (fuel : Nat) → Text → Parsed (List (Text × Value))
  | 0, t => .error (.malformed .expectedName t.length)
  | fuel + 1, t =>
    match t with
    | .char '"' :: rest =>
      Parsed.andThen (readString rest) fun name rest =>
        match skipSpace rest with
        | .char ':' :: rest =>
          Parsed.andThen (readValue digits depth fuel (skipSpace rest)) fun v rest =>
            match skipSpace rest with
            | .char '}' :: rest => .ok ([(name, v)], rest)
            | .char ',' :: rest =>
              Parsed.yield (readFields digits depth fuel (skipSpace rest)) ((name, v) :: ·)
            | rest => .error (.malformed .expectedComma rest.length)
        | rest => .error (.malformed .expectedColon rest.length)
    | _ => .error (.malformed .expectedName t.length)

end

/-- The value that a text consists of, apart from the white space around it. -/
def readAll (limits : Limits) (t : Text) : Except Stop Value :=
  match t with
  | .char '\uFEFF' :: _ => .error (.malformed .byteOrderMark t.length)
  | _ =>
    match readValue limits.digits limits.depth (2 * t.length + 1) (skipSpace t) with
    | .error stop => .error stop
    | .ok (v, rest) =>
      match skipSpace rest with
      | [] => .ok v
      | rest => .error (.malformed .extraData rest.length)

/-- Reads a JSON text within some limits. -/
def readWithin (limits : Limits) (t : Text) : Except Error Value :=
  (readAll limits t).mapError fun
    | .malformed cause remaining => Error.atOffset t cause (t.length - remaining)
    | .oversizedInteger digits => .oversizedInteger digits
    | .tooDeep container => .tooDeep container

/-- Reads a JSON text in which containers may be nested `depth` deep. -/
def read (depth : Nat) (t : Text) : Except Error Value := readWithin (.ofDepth depth) t

end GuiBuilder.Json
