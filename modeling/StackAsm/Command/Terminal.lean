import StackAsm.Assembly
import StackAsm.Command.Disk

/-!
# What a command leaves behind

A command ends with a status, has written to its two outputs, and may have changed the disk.
-/

namespace StackAsm.Command

/-- The end of a command. -/
structure Outcome where
  /-- The exit status. -/
  status : Nat
  /-- What was written to the standard output. -/
  output : String
  /-- What was written to the standard error output. -/
  errors : String
  /-- The disk after the command. -/
  disk : Disk
  deriving DecidableEq, Repr

/-- The status of success. -/
def success : Nat := 0

/-- The status of a failure. -/
def failure : Nat := 1

/-- The status of a failure to read or write a file. -/
def fileFailure : Nat := 2

/-! ### Colours -/

/-- The colours of a terminal. -/
inductive Colour where
  | red
  | green
  | yellow
  | cyan
  deriving DecidableEq, Repr

/-- The number of a colour. -/
def Colour.code : Colour → String
  | red => "31"
  | green => "32"
  | yellow => "33"
  | cyan => "36"

/-- A text in bold and in colour. -/
def paint (colour : Colour) (s : String) : String :=
  "\x1b[1;" ++ colour.code ++ "m" ++ s ++ "\x1b[0m"

/-! ### Lines -/

/-- Lines, each with its end. -/
def linesText (lines : List String) : String := String.join (lines.map (· ++ "\n"))

/-- The log of some events. -/
def logText (verbosity : UInt8) (events : List Event) : String :=
  linesText ((events.filter (·.level.rank ≤ verbosity.toNat)).map Event.logLine)

/-- How a diagnostic is written. -/
def diagnosticText (d : Assembly.Diagnostic) : String :=
  let headline := paint .red d.errorClass.text ++ ": " ++ d.error.value.message
  match d.position? with
  | some position => linesText [headline, "  " ++ paint .cyan "-->" ++ " " ++ position]
  | none => linesText [headline]

/-- The status of a diagnostic. -/
def diagnosticStatus (d : Assembly.Diagnostic) : Nat :=
  if d.errorClass = .io then fileFailure else failure

end StackAsm.Command
