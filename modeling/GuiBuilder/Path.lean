import GuiBuilder.Text.Basic

/-!
# Paths

A path is a text with slashes between its components. Joining a name to a directory gives the name
itself when that is absolute. An absolute path leads to a place, the components that are left when
empty ones and `.` are dropped and `..` takes away the one before.
-/

namespace GuiBuilder.Path

/-- The components of a path, as they are written. -/
def components (path : Text) : List Text := path.split (.char '/')

/-- Whether a path starts at the root. -/
def isAbsolute (path : Text) : Bool := path.head? = some (.char '/')

/-- The path of a name in a directory. -/
def join (directory name : Text) : Text :=
  if isAbsolute name || directory.isEmpty then name
  else if directory.getLast? = some (.char '/') then directory ++ name
  else directory ++ [.char '/'] ++ name

/-- A path without the slashes at its end. -/
def withoutSlashes (path : Text) : Text :=
  (path.reverse.dropWhile fun p => decide (p = .char '/')).reverse

/-- The directories on the way along a path, as paths, when what stands before it has been passed:
each ends where a slash follows a component. -/
def headsFrom (before : Text) : Text → List Text
  | [] => []
  | p :: rest =>
    let more := headsFrom (before ++ [p]) rest
    if p = .char '/' && before.getLast?.any fun q => decide (q ≠ .char '/') then before :: more
    else more

/-- The directories on the way to a path, as paths, from the outermost one on. -/
def heads (path : Text) : List Text := headsFrom [] path

/-- The last component of a path. -/
def baseName (path : Text) : Text := (components path).getLast?.getD []

/-- A step from a place along a component. -/
def step (place : List Text) (component : Text) : List Text :=
  if component.isEmpty || component = Text.ofString "." then place
  else if component = Text.ofString ".." then place.dropLast
  else place ++ [component]

/-- The place that an absolute path leads to. -/
def resolve (path : Text) : List Text := (components path).foldl step []

/-- The places from which the steps along some components start. -/
def trail (place : List Text) : List Text → List (List Text)
  | [] => []
  | component :: rest => place :: trail (step place component) rest

/-- The directories that a path passes on its way. -/
def passed (path : Text) : List (List Text) := trail [] (components path)

/-- How many bytes a code point of a path takes: those of its UTF-8 form, or one for a surrogate
half from U+DC80 to U+DCFF, which stands for a byte that is not UTF-8. -/
def bytes? : CodePoint → Option Nat
  | .char c => some c.utf8Size
  | .surrogate i => if 0x480 ≤ i.val ∧ i.val < 0x500 then some 1 else none

/-- How many bytes a path takes. -/
def byteLength (path : Text) : Nat :=
  path.foldl (fun n p => n + (bytes? p).getD 0) 0

/-- The most bytes of a component. -/
def nameLimit : Nat := 255

/-- The most bytes of a path. -/
def lengthLimit : Nat := 4095

/-- Whether a path leads strictly into a directory. -/
def IsInside (directory path : Text) : Prop :=
  resolve directory <+: resolve path ∧ resolve path ≠ resolve directory

/-- How many components two places have in common from the root on. -/
def commonLength : List Text → List Text → Nat
  | a :: as, b :: bs => if a = b then commonLength as bs + 1 else 0
  | _, _ => 0

/-- The way from one place to another. -/
def relative (origin target : List Text) : Text :=
  let common := commonLength origin target
  Text.join "/" (List.replicate (origin.length - common) (Text.ofString "..") ++ target.drop common)

end GuiBuilder.Path
