import StackAsm.ErrorClass
import StackAsm.InstructionSet
import StackAsm.Limit
import StackAsm.Pool

/-!
# Errors of declarations
-/

namespace StackAsm.Declaration

/-- Why a declaration is refused. -/
inductive Error where
  /-- The program does not start with a header. -/
  | expectedHeader (found : String)
  | duplicateHeader
  | invalidWidth (bits : Int64)
  /-- The line ends too early. -/
  | unexpectedEnd (expected : String)
  | unexpectedItem (found expected : String)
  | valueOutOfRange (v : Int64) (range : String)
  | nameTaken (name : String)
  | moduleNameTooLong (name : String)
  | duplicateSlot (index : UInt8)
  | slotOutOfRange (index : Int64)
  | tooManySlots
  | externalOutOfRange (index : Int64)
  | unknownContract (name : String)
  | extension (e : ExtensionError)
  | pool (e : PoolError)
  deriving DecidableEq, Repr

/-- The class of an error. -/
def Error.errorClass : Error → ErrorClass
  | expectedHeader _ | duplicateHeader | invalidWidth _ | unexpectedEnd _ => .structural
  | unexpectedItem _ _ | valueOutOfRange _ _ | moduleNameTooLong _ | unknownContract _
  | pool .empty => .argument
  | nameTaken _ | duplicateSlot _ | slotOutOfRange _ | externalOutOfRange _ | extension _ =>
    .reference
  | tooManySlots | pool .full => .capacity

/-- The wording of an error. -/
def Error.message : Error → String
  | expectedHeader found =>
    "Expected header '.cwx'/'.executable' or '.cwl'/'.library', found '" ++ found ++ "'"
  | duplicateHeader => "The header may only be given once"
  | invalidWidth bits =>
    "Invalid bit width " ++ Text.decimal bits ++ ", expected 16, 32 or 64"
  | unexpectedEnd expected => "Unexpected end of line, expected " ++ expected
  | unexpectedItem found expected =>
    "Unexpected token '" ++ found ++ "', expected " ++ expected
  | valueOutOfRange v range =>
    "Value " ++ Text.decimal v ++ " is out of range for " ++ range
  | nameTaken name => "The name '" ++ name ++ "' is already taken"
  | moduleNameTooLong name =>
    "Module name '" ++ name ++ "' must be at most " ++ toString Limit.moduleName ++
      " ASCII characters"
  | duplicateSlot index => "Module slot " ++ toString index.toNat ++ " is already taken"
  | slotOutOfRange index =>
    "Module slot " ++ Text.decimal index ++ " is out of range (0-" ++ toString Limit.slotIndex ++
      ")"
  | tooManySlots => "Too many module slots (at most " ++ toString Limit.slots ++ ")"
  | externalOutOfRange index =>
    "External symbol index " ++ Text.decimal index ++ " is out of range (0-" ++
      toString Limit.symbolIndex ++ ")"
  | unknownContract name => "Unknown argument type '" ++ name ++ "'"
  | extension e => e.message
  | pool e => e.message

end StackAsm.Declaration
