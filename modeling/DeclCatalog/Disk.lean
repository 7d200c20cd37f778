import DeclCatalog.Path

/-!
# Files and directories

A disk as it stands during a run: which files and directories there are, and where relative paths
start.

- `Disk`: the entries by the names that lead to them, and the working directory.
- `Disk.find`: what a path leads to. Every name before the last has to be a directory that is there,
  also before a `..`.
- `Disk.readText`, `Disk.isFile`: the text of a file, and whether there is one.
-/

namespace DeclCatalog

/-- What stands at a path. -/
inductive DiskEntry where
  | file (content : ByteArray)
  | directory

/-- Why a file cannot be read. -/
inductive ReadError where
  | missing
  | notDirectory
  | isDirectory
  | notText
  /-- A path or a name in it has more bytes than the system allows. -/
  | tooLong
  /-- The path has a byte that no path can have. -/
  | nullInPath
  deriving DecidableEq

namespace ReadError

/-- The text of an error. -/
def message : ReadError → String
  | .missing => "No such file or directory (os error 2)"
  | .notDirectory => "Not a directory (os error 20)"
  | .isDirectory => "Is a directory (os error 21)"
  | .notText => "stream did not contain valid UTF-8"
  | .tooLong => "File name too long (os error 36)"
  | .nullInPath => "file name contained an unexpected NUL byte"

end ReadError

/-! ## Limits -/

/-- The number of bytes that a path has to stay below. -/
def pathLimit : Nat :=
  4096

/-- The number of bytes that a name in a path may have. -/
def nameLimit : Nat :=
  255

/-! ## Disks -/

/-- The files and directories of a run. -/
structure Disk where
  /-- The entries, each with the names that lead to it from the root. The first one for a list of
  names counts, and all directories above an entry are there. -/
  entries : List (List Path.Name × DiskEntry)
  /-- The names that lead to the directory in which relative paths start. -/
  workingDir : List Path.Name

namespace Disk

/-- A disk on which only the working directory is there. -/
def empty (workingDir : List Path.Name) : Disk where
  entries := [(workingDir, .directory)]
  workingDir := workingDir

/-- The place that a step leads to. -/
def stepFrom (place : List Path.Name) : Path.Step → List Path.Name
  | .root => []
  | .here => place
  | .up => place.dropLast
  | .down name => place ++ [name]

/-- The places that steps pass from a place, the last one first. -/
def trail (start : List Path.Name) (steps : List Path.Step) : List (List Path.Name) :=
  steps.foldl (fun places step => stepFrom (places.head?.getD start) step :: places) []

/-- Puts an entry at a path, in place of what was there. What stands before the last name becomes a
directory, also before a `..`. -/
def put (disk : Disk) (path : Path) (entry : DiskEntry) : Disk :=
  match trail disk.workingDir path.steps with
  | [] => disk
  | place :: passed =>
    { disk with
      entries := (place, entry) :: passed.map (fun place => (place, .directory)) ++ disk.entries }

/-- The entry that names lead to. -/
def entryAt? (disk : Disk) (names : List Path.Name) : Option DiskEntry :=
  match disk.entries.lookup names with
  | some entry => some entry
  | none =>
    if disk.entries.any fun e => names.isPrefixOf e.1 then some .directory else none

/-- Follows names from an entry `here` that is there. -/
def follow (disk : Disk) (here : List Path.Name) (entry : DiskEntry) :
    List Path.Name → Except ReadError DiskEntry
  | [] => .ok entry
  | name :: rest =>
    match entry with
    -- even an empty name, as after a last slash, asks for a directory
    | .file _ => .error .notDirectory
    | .directory =>
      if name = [] ∨ name = Path.dot then follow disk here .directory rest
      else if name = Path.dots then follow disk here.dropLast .directory rest
      else if nameLimit < name.length then .error .tooLong
      else
        match disk.entryAt? (here ++ [name]) with
        | some entry => follow disk (here ++ [name]) entry rest
        | none => .error .missing

/-- What a path leads to; the empty path leads nowhere. -/
def find (disk : Disk) (path : Path) : Except ReadError DiskEntry :=
  if path.bytes.data.contains 0 then .error .nullInPath
  else if path.bytes.isEmpty then .error .missing
  else if pathLimit ≤ path.bytes.size then .error .tooLong
  else
    let start := if path.isAbsolute then [] else disk.workingDir
    follow disk start .directory path.names

/-- The text of a file. -/
def readText (disk : Disk) (path : Path) : Except ReadError String :=
  match disk.find path with
  | .error cause => .error cause
  | .ok .directory => .error .isDirectory
  | .ok (.file content) =>
    match String.fromUTF8? content with
    | some text => .ok text
    | none => .error .notText

/-- Whether a path leads to a file. -/
def isFile (disk : Disk) (path : Path) : Bool :=
  match disk.find path with
  | .ok (.file _) => true
  | _ => false

end Disk

end DeclCatalog
