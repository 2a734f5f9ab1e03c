import StackAsm.Command.Arguments
import StackAsm.Command.Terminal
import StackAsm.Text.Lowercase

/-!
# Running a suite

A suite is a directory of programs, each a source file or a directory with a main source. A program
passes if it can be assembled; one whose name says so passes if it cannot.
-/

namespace StackAsm.Command

/-- A program of a suite. -/
structure SuiteProgram where
  name : String
  /-- Its first source. -/
  root : String
  deriving DecidableEq, Repr

/-- How the name of a program that has to be refused starts. -/
def refusedMark : String := "fail_"

/-- Whether the program has to be refused. -/
def SuiteProgram.isRefused (program : SuiteProgram) : Bool := program.name.startsWith refusedMark

/-- The directory of the suite if none is given. -/
def defaultSuite : String := "asm/test"

/-- The directory that every suite searches for sources. -/
def sharedSources : String := "asm/include"

/-- The extension of source files. -/
def sourceExtension : String := "cws"

/-- Whether two texts differ at most in case. -/
def sameButCase (a b : String) : Bool :=
  a.toList.flatMap Text.lowerChar == b.toList.flatMap Text.lowerChar

/-- The first source of a program that is a directory. -/
def mainSource (directory : String) : String :=
  Path.join directory ("main." ++ sourceExtension)

/-- The program at a path in a suite, if there is one. -/
def programAt? (disk : Disk) (path : String) : Option SuiteProgram :=
  if disk.isFile path then
    match Path.extension? path with
    | some extension =>
      if sameButCase extension sourceExtension then
        (Path.stem? path).map fun stem => ⟨stem, path⟩
      else none
    | none => none
  else if disk.isFile (mainSource path) then
    (Path.fileName? path).map fun name => ⟨name, mainSource path⟩
  else none

/-- The programs of a suite, by name. -/
def suitePrograms (disk : Disk) (directory : String) : Except FileError (List SuiteProgram) := do
  let names ← disk.list directory
  let programs := names.filterMap fun name => programAt? disk (Path.join directory name)
  return programs.mergeSort fun a b => a.name ≤ b.name

/-- The search path of a suite. -/
def suiteSearchPath (disk : Disk) (searchPath : List String) : List String :=
  if disk.isDirectory sharedSources &&
      !searchPath.any (Path.meaning · == Path.meaning sharedSources) then
    searchPath ++ [sharedSources]
  else searchPath

/-! ### Results -/

/-- Whether a program passes, given its outcome, and what is said about it. -/
def verdict (refused : Bool) : Except Assembly.Diagnostic Bytes → Bool × String
  | .ok bytes =>
    if refused then
      (false, paint .red "FAIL: ACCEPTED INVALID SOURCE" ++ " (" ++ toString bytes.length ++
        " bytes)")
    else
      (true, paint .green "PASS" ++ " " ++ Text.padLeft ' ' 6 (toString bytes.length) ++ " bytes")
  | .error d =>
    if refused then
      (true, paint .green "PASS" ++ " (rejected: " ++ d.errorClass.text ++ ")")
    else
      (false, paint .red "FAIL: ASSEMBLY ERROR" ++ ":\n\t" ++ Text.hanging "\t" d.text)

/-- The result of a program: whether it passes, what is said about it, and what was reported. -/
structure ProgramResult where
  passes : Bool
  line : String
  events : List Event
  deriving DecidableEq, Repr

/-- Runs a program of a suite, the `number`th, where names are `padding` bytes wide. -/
def runProgram (disk : Disk) (settings : Settings) (padding : Nat) (program : SuiteProgram)
    (number : Nat) : ProgramResult :=
  let (bytes, events) :=
    Assembly.assemble (disk.provider settings.searchPath) program.root settings.defines
  let (passes, message) := verdict program.isRefused bytes
  let blanks := String.ofList (List.replicate (padding - program.name.utf8ByteSize) ' ')
  { passes
    line := "Unit " ++ Text.padLeft ' ' 2 (toString number) ++ ": " ++ program.name ++ " " ++
      blanks ++ message
    events }

/-- Runs the programs of a suite. -/
def suite (verbosity : UInt8) (disk : Disk) (settings : Settings) (directory : Option String) :
    Outcome :=
  let directory := directory.getD defaultSuite
  match suitePrograms disk directory with
  | .error e =>
    let line := paint .red ErrorClass.io.text ++ ": could not read suite '" ++ directory ++ "': " ++
      e.message
    ⟨fileFailure, "", linesText [line], disk⟩
  | .ok programs =>
    let settings := { settings with searchPath := suiteSearchPath disk settings.searchPath }
    let padding := (programs.map (·.name.utf8ByteSize)).foldl max 0
    let results := programs.zipIdx.map fun (program, k) =>
      runProgram disk settings padding program (k + 1)
    let passes := results.countP (·.passes)
    let rule := String.ofList (List.replicate (padding + 45) '-')
    let total := toString programs.length
    let allPass := passes = programs.length
    let result := if allPass then paint .green "SUCCESS" else paint .red "FAILED"
    let lines :=
      ["Running suite: '" ++ directory ++ "' (" ++ total ++ " units)", rule] ++
        results.map (·.line) ++
        [rule, "Suite Result: " ++ result ++ ", " ++ toString passes ++ "/" ++ total ++ " passes"]
    ⟨if allPass then success else failure, linesText lines,
      logText verbosity (results.flatMap (·.events)), disk⟩

end StackAsm.Command
