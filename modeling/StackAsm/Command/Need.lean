import StackAsm.Command.Suite

/-!
# What a request needs to know

A request is carried out on a disk that need not hold everything, as long as it holds what the
request looks at. As a source may ask for others, what is needed depends on what is known.
-/

namespace StackAsm.Command

/-- Something about a disk. -/
inductive Need where
  /-- What stands at a path. -/
  | entry (path : String)
  /-- What stands in a directory. -/
  | listing (directory : String)
  deriving DecidableEq, Repr

/-- The paths where a source may be whose absence a diagnostic reports. -/
def missingSource (searchPath : List String) (d : Assembly.Diagnostic) : List String :=
  match d.error.value with
  | .expansion (.inclusion name _) => Disk.candidates searchPath d.file name
  | _ => []

/-- What has to be known to assemble a program. -/
def programNeeds (disk : Disk) (settings : Settings) (root : String) : List Need :=
  match (Assembly.build (disk.provider settings.searchPath) root settings.defines).1 with
  | .error d => (missingSource settings.searchPath d).map .entry
  | .ok _ => []

/-- What has to be known to carry out a request, as far as the disk shows. -/
def needs (disk : Disk) : Request → List Need
  | .assemble settings input output =>
    let output := output.toList.flatMap fun path => path :: (Path.parent? path).toList
    programNeeds disk settings input ++ output.map .entry
  | .dump input => [.entry input]
  | .suite settings directory =>
    let directory := directory.getD defaultSuite
    let settings := { settings with searchPath := suiteSearchPath disk settings.searchPath }
    let members := (disk.list directory).toOption.getD []
    let mains := members.map fun name => Need.entry (mainSource (Path.join directory name))
    let programs := (suitePrograms disk directory).toOption.getD []
    .listing directory :: .entry sharedSources :: mains ++
      programs.flatMap fun program => programNeeds disk settings program.root

end StackAsm.Command
