import StackAsm.Command.Path
import StackAsm.Source
import StackAsm.Width

/-!
# Disks

A tree of files and directories with a working directory. Everything in it has a place, given by the
names that lead to it from the root.

Links, permissions and times are left out, and a disk is changed by nothing but the command that
runs on it. The limits on names and paths are those of a common file system.
-/

namespace StackAsm

/-- What stands at a place. -/
inductive Entry where
  | file (content : Bytes)
  | directory
  deriving DecidableEq, Repr

/-- A tree of files. A place on the way to another one is a directory. -/
structure Disk where
  /-- The files, and the directories that are empty. -/
  entries : List (List String × Entry)
  /-- The place of the working directory. -/
  working : List String
  deriving DecidableEq, Repr

/-- Why a path leads to nothing usable. -/
inductive FileError where
  | notFound
  | notDirectory
  | isDirectory
  | nameTooLong
  /-- The content is no text. -/
  | notText
  deriving DecidableEq, Repr

/-- The wording of an error. -/
def FileError.message : FileError → String
  | notFound => "No such file or directory (os error 2)"
  | notDirectory => "Not a directory (os error 20)"
  | isDirectory => "Is a directory (os error 21)"
  | nameTooLong => "File name too long (os error 36)"
  | notText => "stream did not contain valid UTF-8"

namespace Disk

/-- What stands at a place. -/
def entry? (disk : Disk) (place : List String) : Option Entry :=
  match disk.entries.lookup place with
  | some entry => some entry
  | none =>
    if place = [] ∨ place = disk.working ∨ disk.entries.any (place.isPrefixOf ·.1) then
      some .directory
    else none

/-- The most bytes of a name. -/
def longestName : Nat := 255

/-- The most bytes of a path. -/
def longestPath : Nat := 4095

/-- The place that the parts of a path lead to from another place. -/
def walk (disk : Disk) (place : List String) : List String → Except FileError (List String)
  | [] => .ok place
  | part :: parts =>
    match disk.entry? place with
    | none => .error .notFound
    | some (.file _) => .error .notDirectory
    | some .directory =>
      if Path.isIdle part then disk.walk place parts
      else if part = ".." then disk.walk place.dropLast parts
      else if longestName < part.utf8ByteSize then .error .nameTooLong
      else if (disk.entry? (place ++ [part])).isSome then disk.walk (place ++ [part]) parts
      else .error .notFound

/-- The place that parts of a path lead to, from the root or the working directory. -/
def follow (disk : Disk) (path : String) (parts : List String) :
    Except FileError (List String) :=
  if path = "" then .error .notFound
  else if longestPath < path.utf8ByteSize then .error .nameTooLong
  else disk.walk (if Path.isAbsolute path then [] else disk.working) parts

/-- The place of a path. -/
def locate (disk : Disk) (path : String) : Except FileError (List String) :=
  disk.follow path (Path.parts path)

/-- What a path leads to. -/
def find (disk : Disk) (path : String) : Except FileError Entry := do
  let place ← disk.locate path
  match disk.entry? place with
  | some entry => return entry
  | none => throw .notFound

/-- Whether a path leads to a file. -/
def isFile (disk : Disk) (path : String) : Bool :=
  match disk.find path with
  | .ok (.file _) => true
  | _ => false

/-- Whether a path leads to a directory. -/
def isDirectory (disk : Disk) (path : String) : Bool :=
  match disk.find path with
  | .ok .directory => true
  | _ => false

/-- The content of a file. -/
def read (disk : Disk) (path : String) : Except FileError Bytes := do
  match ← disk.find path with
  | .file content => return content
  | .directory => throw .isDirectory

/-- The content of a file that is a text. -/
def readText (disk : Disk) (path : String) : Except FileError String := do
  match String.fromUTF8? ⟨(← disk.read path).toArray⟩ with
  | some text => return text
  | none => throw .notText

/-- The names in a directory, in order. -/
def list (disk : Disk) (path : String) : Except FileError (List String) := do
  let place ← disk.locate path
  match disk.entry? place with
  | none => throw .notFound
  | some (.file _) => throw .notDirectory
  | some .directory =>
    let names := disk.entries.filterMap fun (other, _) =>
      if place.isPrefixOf other then other[place.length]? else none
    return (names.mergeSort (· ≤ ·)).eraseDups

/-- The disk with another entry at a place. -/
def set (disk : Disk) (place : List String) (entry : Entry) : Disk :=
  { disk with entries := (place, entry) :: disk.entries.filter fun other => other.1 != place }

/-- The place that a path means by itself, whatever is on the disk. -/
def meaning (disk : Disk) (path : String) : List String :=
  let start := if Path.isAbsolute path then [] else disk.working
  (Path.names path).foldl
    (fun place name => if name = ".." then place.dropLast else place ++ [name]) start

/-- The disk with another entry at a path. -/
def put (disk : Disk) (path : String) (entry : Entry) : Disk := disk.set (disk.meaning path) entry

/-- The disk after a file was written, which is made if its directory exists. A path that ends in a
slash names no file. -/
def write (disk : Disk) (path : String) (content : Bytes) : Except FileError Disk := do
  let parts := Path.parts path
  let named := (parts.reverse.dropWhile (· == "")).reverse
  let name := named.getLast?.getD ""
  let place ← disk.follow path named.dropLast
  match disk.entry? place with
  | none => throw .notFound
  | some (.file _) => throw .notDirectory
  | some .directory =>
    let target := place ++ [name]
    if Path.isIdle name || name == ".." || named.length < parts.length then throw .isDirectory
    if longestName < name.utf8ByteSize then throw .nameTooLong
    if disk.entry? target == some .directory then throw .isDirectory
    return disk.set target (.file content)

/-- The files that differ from those of an earlier disk, with their places. -/
def changesSince (disk before : Disk) : List (List String × Bytes) :=
  disk.entries.filterMap fun (place, entry) =>
    match entry with
    | .file content => if before.entry? place = some entry then none else some (place, content)
    | .directory => none

/-- The path of a place from the working directory, if it is below that. -/
def relative? (disk : Disk) (place : List String) : Option String :=
  if disk.working.isPrefixOf place then
    some (String.intercalate "/" (place.drop disk.working.length))
  else none

/-! ### Sources on a disk -/

/-- Where a source may be: beside the file that asks for it, and after that in the directories of
the search path. -/
def candidates (searchPath : List String) (including : Option String) (name : String) :
    List String :=
  let beside := match including.bind Path.parent? with
    | some directory => Path.join directory name
    | none => name
  beside :: searchPath.map (Path.join · name)

/-- Finds sources in files; the first candidate that is a file is taken. -/
def provider (disk : Disk) (searchPath : List String) : Provider where
  load _ query :=
    match (candidates searchPath query.including query.name).find? disk.isFile with
    | none => .error noSuchFile
    | some path => ((disk.readText path).map (Source.mk path)).mapError FileError.message

end Disk

end StackAsm
