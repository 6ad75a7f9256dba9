import GuiBuilder.Fault
import GuiBuilder.Storage.Found

/-!
# A file system in memory

A `Disk` holds a working directory, files, each at its place, and directories that were made.
`Disk.find` says what a path leads to, as a run of the program sees it. The directories are those on
the way to a file, to the working directory or to one that was made, and these themselves.
-/

namespace GuiBuilder

/-- Files by place, the places of directories that were made, and an absolute path as the working
directory. -/
structure Disk where
  directory : Text
  files : List (List Text × ByteArray)
  made : List (List Text)

namespace Disk

/-- A path seen from the root. -/
def absolute (d : Disk) (path : Text) : Text := Path.join d.directory path

/-- The place that a path leads to. -/
def place (d : Disk) (path : Text) : List Text := Path.resolve (d.absolute path)

/-- The disk with a file at a path, in place of the one that was there. -/
def write (d : Disk) (path : Text) (bytes : ByteArray) : Disk :=
  { d with files := (d.place path, bytes) :: d.files }

/-- A disk without files. -/
def empty (directory : Text) : Disk := ⟨directory, [], []⟩

/-- The disk on which nothing but some files, named by paths, has been written. -/
def ofFiles (directory : Text) (files : List (Text × ByteArray)) : Disk :=
  files.foldl (fun d file => d.write file.1 file.2) (empty directory)

/-- The file at a place. -/
def file? (d : Disk) (place : List Text) : Option ByteArray :=
  (d.files.find? fun f => decide (f.1 = place)).map Prod.snd

/-- Whether a place is a directory. -/
def isDirectory (d : Disk) (place : List Text) : Bool :=
  place.isPrefixOf (Path.resolve d.directory)
    || d.files.any (fun f => place.isPrefixOf f.1 && decide (place ≠ f.1))
    || d.made.any place.isPrefixOf

/-- Why nothing is found at a place that is neither a file nor a directory. -/
def missing (place : List Text) : PathError :=
  if Path.nameLimit < Path.byteLength (place.getLast?.getD []) then .nameTooLong else .notFound

/-- Why a path does not go on from a place, if it does not. -/
def obstacle? (d : Disk) (place : List Text) : Option PathError :=
  if d.isDirectory place then none
  else if (d.file? place).isSome then some .notDirectory
  else some (missing place)

/-- What a path leads to. -/
def find (d : Disk) (path : Text) : Found :=
  let place := d.place path
  let slashed := path.getLast? = some (.char '/')
  let way := Path.passed (Path.withoutSlashes (d.absolute path))
  if path.isEmpty then .obstructed .notFound
  else if Path.lengthLimit < Path.byteLength path then .obstructed .nameTooLong
  else match way.findSome? d.obstacle? with
    | some e => .obstructed e
    | none =>
      if d.isDirectory place then .directory
      else match d.file? place with
        | some bytes => if slashed then .slashed .notDirectory else .file bytes
        | none =>
          if slashed then .slashed (missing place)
          else if missing place = .notFound then .absent
          else .obstructed (missing place)

/-- The disk with a new directory, in one that is there. -/
def makeDirectory (d : Disk) (path : Text) : Except Fault Disk :=
  match Path.refusal? path with
  | some r => .error (.badPath r)
  | none =>
    match d.find path with
    | .absent | .slashed .notFound => .ok { d with made := d.place path :: d.made }
    | .file _ | .directory | .slashed .notDirectory => .error (.path .alreadyExists)
    | .obstructed e | .slashed e => .error (.path e)

/-- The disk with a directory and those on the way to it, each of which is made if nothing is
there. -/
def makeDirectories (d : Disk) (path : Text) : Except Fault Disk := do
  let d ← (Path.heads path).foldlM (fun d head => match d.find head with
    | .file _ | .directory => .ok d
    | _ => d.makeDirectory head) d
  match d.makeDirectory path, d.find path with
  | .error (.path _), .directory => .ok d
  | made, _ => made

/-- What paths lead to once a directory has been made. -/
def provide (d : Disk) (directory : Text) : Except Fault (Text → Found) :=
  (d.makeDirectories directory).map Disk.find

end Disk

end GuiBuilder
