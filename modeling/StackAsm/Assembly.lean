import StackAsm.Container.Writer
import StackAsm.Declaration
import StackAsm.Expansion
import StackAsm.Linking

/-!
# Assembly

The way from sources to a container: expansion, declarations, layout and linking. A failure on the
way becomes a diagnostic, which knows the file it points into.

Each step starts when the one before has ended. What the steps report is put one after the other, up
to a failure; when it is shown is not modelled.
-/

namespace StackAsm.Assembly

/-! ### Diagnostics -/

/-- A failure of any step. -/
inductive Error where
  | expansion (e : Expansion.Error)
  | declaration (e : Declaration.Error)
  | layout (e : Layout.Error)
  | linking (e : Linking.Error)
  | writing (e : Container.WriteError)
  deriving DecidableEq, Repr

/-- The class of a failure. -/
def Error.errorClass : Error → ErrorClass
  | expansion e => e.errorClass
  | declaration e => e.errorClass
  | layout e => e.errorClass
  | linking e => e.errorClass
  | writing e => e.errorClass

/-- The step that failed. -/
def Error.step : Error → String
  | expansion _ => "Preprocessor"
  | declaration _ => "First pass"
  | layout _ => "Second pass"
  | linking _ => "Resolver"
  | writing _ => "Serializer"

/-- What the step says. -/
def Error.reason : Error → String
  | expansion e => e.message
  | declaration e => e.message
  | layout e => e.message
  | linking e => e.message
  | writing e => e.message

/-- The wording of a failure. -/
def Error.message (e : Error) : String :=
  e.errorClass.text ++ " (in " ++ e.step ++ "): " ++ e.reason

/-- A failure with the name of the file it points into. -/
structure Diagnostic where
  /-- The failure. -/
  error : Located Error
  /-- The file it points into. -/
  file : Option String
  deriving DecidableEq, Repr

namespace Diagnostic

/-- The class of the failure. -/
def errorClass (d : Diagnostic) : ErrorClass := d.error.value.errorClass

/-- The file, line and column of the failure, if it has a location. -/
def position? (d : Diagnostic) : Option String :=
  d.error.loc.map fun loc =>
    d.file.getD "<unknown>" ++ ":" ++ toString loc.line ++ ":" ++ toString loc.column

/-- How a diagnostic is shown. -/
def text (d : Diagnostic) : String :=
  match d.position? with
  | some position => d.error.value.message ++ " at " ++ position
  | none => d.error.value.message

/-- The diagnostic of a failure, where the files are given by number. -/
def ofError (files : List String) (error : Located Error) : Diagnostic :=
  ⟨error, error.loc.bind fun loc => files[loc.file]?⟩

end Diagnostic

/-! ### Steps -/

/-- The container of an expanded program, and what was reported on the way. -/
def assembleItems (items : List (Located Item)) :
    Except (Located Error) Container × List Event :=
  match Declaration.readProgram items with
  | (.error e, events) => (.error (e.map .declaration), events)
  | (.ok (session, deferred), declared) =>
    match Layout.layOut session deferred with
    | (_, some e, laidOut) => (.error (e.map .layout), declared ++ laidOut)
    | (session, none, laidOut) =>
      let (container, linked) := Linking.link session
      (container.mapError (·.map .linking), declared ++ laidOut ++ linked)

/-- The container of the program whose first file is `root`, with some constants defined in
advance, and what was reported on the way. -/
def build (provider : Provider) (root : String) (defines : Table Constant) :
    Except Diagnostic Container × List Event :=
  match Expansion.run provider root { constants := defines } with
  | .error e s => (.error (.ofError s.files (e.map .expansion)), s.events.toList)
  | .ok items s =>
    let (container, events) := assembleItems items
    (container.mapError (.ofError s.files), s.events.toList ++ events)

/-- The bytes of a container, and what was reported on the way. -/
def write (container : Container) : Except Diagnostic Bytes × List Event :=
  match container.toBytes with
  | .error e => (.error ⟨.nowhere (.writing e), none⟩, [])
  | .ok bytes => (.ok bytes, [.serialized bytes.length])

/-- The bytes of the program whose first file is `root`. -/
def assemble (provider : Provider) (root : String) (defines : Table Constant) :
    Except Diagnostic Bytes × List Event :=
  match build provider root defines with
  | (.error d, events) => (.error d, events)
  | (.ok container, events) =>
    let (bytes, written) := write container
    (bytes, events ++ written)

/-- The name under which a single text is assembled. -/
def inputName : String := "<input>"

/-- The bytes of a program that is a single text. -/
def assembleText (source : String) : Except Diagnostic Bytes × List Event :=
  assemble (.ofTable (Table.empty.insert inputName source)) inputName {}

end StackAsm.Assembly
