import GuiBuilder.Path
import GuiBuilder.Value.Display

/-!
# What a path leads to

The file system is seen through functions that say what is found at a path. `Found.bytes` and
`Found.writable` say what reading and writing a file there come to. A text that no path can be is
refused before anything is looked up.
-/

namespace GuiBuilder

/-- Why a path cannot be read or written. -/
inductive PathError where
  | notFound
  | isDirectory
  | notDirectory
  /-- The path or one of its components is too long. -/
  | nameTooLong
  /-- A file stands where a directory is to be made. -/
  | alreadyExists
deriving DecidableEq

/-- The wording of an error at a path. -/
def PathError.message (e : PathError) (path : Text) : Text :=
  let reason := match e with
    | notFound => "[Errno 2] No such file or directory: "
    | isDirectory => "[Errno 21] Is a directory: "
    | notDirectory => "[Errno 20] Not a directory: "
    | nameTooLong => "[Errno 36] File name too long: "
    | alreadyExists => "[Errno 17] File exists: "
  Text.ofString reason ++ path.shown

/-- What is found at a path. -/
inductive Found where
  | file (bytes : ByteArray)
  | directory
  /-- Nothing, in a directory where a file can be made. -/
  | absent
  /-- Something stands in the way. -/
  | obstructed (e : PathError)
  /-- No directory, though the path ends in a slash; reading fails for this reason. -/
  | slashed (e : PathError)

/-- The bytes of the file that is found, or why there are none. -/
def Found.bytes : Found → Except PathError ByteArray
  | file bytes => .ok bytes
  | directory => .error .isDirectory
  | absent => .error .notFound
  | obstructed e | slashed e => .error e

/-- Whether a file can be written here. -/
def Found.writable : Found → Except PathError Unit
  | file _ | absent => .ok ()
  | directory | slashed _ => .error .isDirectory
  | obstructed e => .error e

/-- Why a text is no path. -/
inductive PathRefusal where
  /-- It holds a surrogate half that stands for no byte. -/
  | notEncodable
  /-- It holds the null character. -/
  | null
deriving DecidableEq

/-- Why a text is no path, if it is none. -/
def Path.refusal? (path : Text) : Option PathRefusal :=
  if path.any fun p => (Path.bytes? p).isNone then some .notEncodable
  else if path.contains (.char '\x00') then some .null
  else none

/-- The wording of the refusal of a text with the null character. -/
def Path.nullMessage : String := "embedded null byte"

end GuiBuilder
