/-!
# Paths

Paths are texts with slashes. Empty parts and single dots inside a path mean nothing; the last part
is a file name unless it leads upwards.
-/

namespace StackAsm.Path

/-- The parts of a path between its slashes. An absolute path has an empty first part. -/
def parts (path : String) : List String := path.splitOn "/"

/-- Whether a path starts at the root. -/
def isAbsolute (path : String) : Bool := path.startsWith "/"

/-- Whether a part means nothing inside a path. -/
def isIdle (part : String) : Bool := part == "" || part == "."

/-- The parts of a path that are names or lead upwards. -/
def names (path : String) : List String := (parts path).filter (!isIdle ·)

/-- The parts without idle ones at the end; the first part always stays. -/
def trimEnd : List String → List String
  | [] => []
  | first :: rest => first :: (rest.reverse.dropWhile isIdle).reverse

/-- The path of some parts. -/
def ofParts : List String → String
  | [""] => "/"
  | parts => String.intercalate "/" parts

/-- The path without its last part; the empty path and the root have none. -/
def parent? (path : String) : Option String :=
  match trimEnd (parts path) with
  | [] | [""] => none
  | [_] => some ""
  | trimmed => some (ofParts (trimEnd trimmed.dropLast))

/-- The last part, if it is the name of something. -/
def fileName? (path : String) : Option String :=
  match (trimEnd (parts path)).getLast? with
  | none => none
  | some part => if isIdle part || part == ".." then none else some part

/-- A file name before and after its last dot; a dot at the front divides nothing. -/
def splitName (name : String) : String × Option String :=
  let reversed := name.toList.reverse
  let after := reversed.takeWhile (· ≠ '.')
  match reversed.dropWhile (· ≠ '.') with
  | [] | ['.'] => (name, none)
  | _ :: before => (String.ofList before.reverse, some (String.ofList after.reverse))

/-- The file name without its extension. -/
def stem? (path : String) : Option String := (fileName? path).map fun name => (splitName name).1

/-- The extension of the file name. -/
def extension? (path : String) : Option String := (fileName? path).bind fun name => (splitName name).2

/-- The name of a file with another extension; what is no file name stays as it is. -/
def withExtension (name extension : String) : String :=
  match stem? name with
  | some stem => stem ++ "." ++ extension
  | none => name

/-- A path below another one; an absolute path stands for itself. -/
def join (base path : String) : String :=
  if isAbsolute path then path
  else if base == "" || base.endsWith "/" then base ++ path
  else base ++ "/" ++ path

/-- The parts of a path that mean something; of two paths with the same ones, each stands for the
other. -/
def meaning (path : String) : List String :=
  match parts path with
  | [] => []
  | first :: rest => first :: rest.filter (!isIdle ·)

end StackAsm.Path
