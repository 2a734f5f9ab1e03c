import StackAsm.Command.Arguments
import StackAsm.Command.Terminal

/-!
# Assembling a program

The container goes to the file that was asked for, or to one in the working directory that is named
after the program and its kind.
-/

namespace StackAsm.Command

/-- The extension of the files of a kind of container. -/
def containerExtension : ContainerKind → String
  | .executable => "cwx"
  | .library => "cwl"

/-- The file for the container of a program. -/
def defaultOutput (input : String) (kind : ContainerKind) : String :=
  Path.withExtension ((Path.stem? input).getD input) (containerExtension kind)

/-- Assembles a program. -/
def assemble (verbosity : UInt8) (disk : Disk) (settings : Settings) (input : String)
    (output : Option String) : Outcome :=
  let (built, buildEvents) :=
    Assembly.build (disk.provider settings.searchPath) input settings.defines
  let fail (d : Assembly.Diagnostic) (events : List Event) : Outcome :=
    ⟨diagnosticStatus d, "", logText verbosity events ++ diagnosticText d, disk⟩
  match built with
  | .error d => fail d buildEvents
  | .ok container =>
    let (written, writeEvents) := Assembly.write container
    let events := buildEvents ++ writeEvents
    match written with
    | .error d => fail d events
    | .ok bytes =>
      let path := output.getD (defaultOutput input container.type.kind)
      match disk.write path bytes with
      | .error e =>
        let line := paint .red ErrorClass.io.text ++ ": could not write '" ++ path ++ "': " ++
          e.message
        ⟨fileFailure, "", logText verbosity events ++ linesText [line], disk⟩
      | .ok disk =>
        ⟨success, "", logText verbosity (events ++ [.stored bytes.length path]), disk⟩

end StackAsm.Command
