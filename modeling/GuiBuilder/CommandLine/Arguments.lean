import GuiBuilder.Text.Digit

/-!
# Command-line arguments

The commands are `generate LAYOUT [-o OUTPUT]`, `diff OLD NEW` and `check LAYOUT`. An option may be
written in full, shortened to a beginning that no other option shares, or by its letter; its value
follows as the next argument, after an equals sign, or right after the letter. Options and
positional arguments may be mixed, and after `--` everything is positional. An argument that
belongs to no option but reads as a negative number is positional as well. Asking for help ends the
reading of the arguments at once; all errors of usage are the same.
-/

namespace GuiBuilder.CommandLine

/-- What the program is asked to do. -/
inductive Command where
  /-- Write the script of a layout to a file, or print it. -/
  | generate (layout : Text) (output : Option Text)
  /-- Print the differences between the scripts of two layouts; the second may be missing. -/
  | diff (old : Text) (new : Option Text)
  /-- Print the issues of a layout. -/
  | check (layout : Text)
deriving DecidableEq

/-- Why there is nothing to do. -/
inductive Stop where
  /-- Help was asked for. -/
  | help
  /-- The arguments are wrong. -/
  | usage
deriving DecidableEq

/-- An option of a command. -/
inductive Switch where
  | help
  | output
deriving DecidableEq

/-- The written forms of an option: its letter and its full name. -/
def Switch.forms : Switch → List Text
  | help => ["-h", "--help"]
  | output => ["-o", "--output"]

/-- An argument as it is understood. -/
inductive Token where
  /-- An argument that is no option. -/
  | positional (t : Text)
  /-- The `--` from which on everything is positional. -/
  | dashes
  /-- An option, and the value that is written with it. -/
  | switch (s : Switch) (value : Option Text)
  /-- The letter of help with more letters behind it, or after an equals sign. -/
  | helpAnd (letters : Text)
  /-- An option that there is not. -/
  | unknown
deriving DecidableEq

/-- The part of a text before its first equals sign, and the part after it if there is one. -/
def splitValue (t : Text) : Text × Option Text :=
  match t.dropWhile fun p => decide (p ≠ .char '=') with
  | [] => (t, none)
  | _ :: value => (t.takeWhile fun p => decide (p ≠ .char '='), some value)

/-- The part of a text from its first code point on that is no digit of any script. -/
def dropDecimals (t : Text) : Text := t.dropWhile CodePoint.isDecimal

/-- Whether a text is the end of a number: nothing, or a line feed. -/
def isNumberEnd (t : Text) : Bool := t.isEmpty || decide (t = [.char '\n'])

/-- Whether a text is a negative number, in the digits of any script. Such an argument is
positional. -/
def isNegativeNumber : Text → Bool
  | .char '-' :: t =>
    match dropDecimals t with
    | .char '.' :: rest =>
      (rest.head?.any CodePoint.isDecimal) && isNumberEnd (dropDecimals rest)
    | rest => (t.head?.any CodePoint.isDecimal) && isNumberEnd rest
  | _ => false

/-- An option with a value that is written with it, in one of its forms. The letter of help takes
further letters. -/
def Switch.valued (form value : Text) : Switch → Token
  | help => if form.length = 2 then .helpAnd value else .switch .help (some value)
  | output => .switch .output (some value)

/-- The ways to understand an argument that is no full form of an option. -/
def candidates (switches : List Switch) (t : Text) : List Token :=
  if Text.ofString "--" <+: t then
    let (name, value) := splitValue t
    (switches.filter fun s => s.forms.any fun form => name.isPrefixOf form).map fun s =>
      .switch s value
  else
    switches.flatMap fun s =>
      s.forms.filterMap fun form =>
        if form = t.take 2 then some (s.valued form (t.drop 2))
        else if t.isPrefixOf form then some (.switch s none)
        else none

/-- An argument as a command with some options understands it; none when there are several ways to
understand it. -/
def token? (switches : List Switch) (t : Text) : Option Token :=
  let (name, value) := splitValue t
  if t.head? ≠ some (.char '-') || t.length = 1 then some (.positional t)
  else match switches.find? fun s => t ∈ s.forms with
    | some s => some (.switch s none)
    | none =>
      match switches.find? fun s => name ∈ s.forms, value with
      | some s, some value => some (s.valued name value)
      | _, _ =>
        match candidates switches t with
        | [token] => some token
        | _ :: _ :: _ => none
        | [] =>
          if isNegativeNumber t || t.contains (.char ' ') then some (.positional t)
          else some .unknown

/-- The arguments as a command understands them; none when one of them is ambiguous. -/
def tokens? (switches : List Switch) : List Text → Option (List Token)
  | [] => some []
  | t :: rest =>
    if t = Text.ofString "--" then some (.dashes :: rest.map .positional)
    else match token? switches t, tokens? switches rest with
      | some token, some tokens => some (token :: tokens)
      | _, _ => none

/-- What has been read of the arguments of a command. -/
structure Reading where
  positionals : List Text
  output : Option Text
  /-- Whether nothing has been wrong so far. -/
  good : Bool

/-- The value that an argument stands for: `--` stands for none. -/
def valueOf (t : Text) : Option Text := if t = Text.ofString "--" then none else some t

/-- The reading after an output and before some arguments. A `--` that ends the arguments has to
follow a positional one, if there has been one. -/
def Reading.withOutput (r : Reading) (value : Text) (next : List Token) : Reading :=
  { r with
    output := valueOf value
    good := r.good && (decide (next ≠ [.dashes]) || r.positionals.isEmpty) }

/-- How letters behind that of help end the reading. Each has to be the letter of an option. That
of an option with a value needs the value, behind it or as the next argument. -/
def stopAfterHelp (switches : List Switch) (next : List Token) : (letters : Text) → Stop
  | [.char 'h'] => .help
  | .char 'h' :: rest => stopAfterHelp switches next rest
  | .char 'o' :: rest =>
    let valued := !rest.isEmpty || match next with
      | .positional _ :: _ => true
      | _ => false
    if .output ∈ switches ∧ valued then .help else .usage
  | _ => .usage

/-- Reads the arguments in order. -/
def readTokens (switches : List Switch) (r : Reading) : List Token → Except Stop Reading
  | [] => .ok r
  | .positional t :: rest => readTokens switches { r with positionals := r.positionals ++ [t] } rest
  | .dashes :: rest => readTokens switches r rest
  | .switch .help none :: _ => .error .help
  | .switch .help (some _) :: _ => .error .usage
  | .helpAnd letters :: rest => .error (stopAfterHelp switches rest letters)
  | .switch .output (some value) :: rest => readTokens switches (r.withOutput value rest) rest
  | .switch .output none :: .positional t :: rest => readTokens switches (r.withOutput t rest) rest
  | .switch .output none :: _ => .error .usage
  | .unknown :: rest => readTokens switches { r with good := false } rest

/-- Reads the arguments of a command with some options. -/
def readWith (switches : List Switch) (good : Bool) (arguments : List Text) :
    Except Stop Reading :=
  match tokens? switches arguments with
  | none => .error .usage
  | some tokens =>
    match readTokens switches ⟨[], none, good⟩ tokens with
    | .error stop => .error stop
    | .ok r => if r.good then .ok r else .error .usage

/-- Reads a command and its arguments. -/
def readCommand (good : Bool) (name : Text) (arguments : List Text) : Except Stop Command :=
  if name = Text.ofString "generate" then
    match readWith [.help, .output] good arguments with
    | .error stop => .error stop
    | .ok ⟨[layout], output, _⟩ => .ok (.generate layout output)
    | .ok _ => .error .usage
  else if name = Text.ofString "diff" then
    match readWith [.help] good arguments with
    | .error stop => .error stop
    | .ok ⟨[old, new], _, _⟩ => .ok (.diff old (valueOf new))
    | .ok _ => .error .usage
  else if name = Text.ofString "check" then
    match readWith [.help] good arguments with
    | .error stop => .error stop
    | .ok ⟨[layout], _, _⟩ => .ok (.check layout)
    | .ok _ => .error .usage
  else .error .usage

/-- Reads the arguments of the program up to the name of the command. -/
def readFrom (good : Bool) : List Text → Except Stop Command
  | [] => .error .usage
  | t :: rest =>
    if t = Text.ofString "--" then .error .usage
    else match token? [.help] t with
      | some (.positional name) => readCommand good name rest
      | some (.switch .help none) => .error .help
      | some (.helpAnd letters) => .error (stopAfterHelp [.help] [] letters)
      | some .unknown => readFrom false rest
      | _ => .error .usage

/-- Reads the arguments of the program. -/
def read (arguments : List Text) : Except Stop Command := readFrom true arguments

end GuiBuilder.CommandLine
