import StackAsm.Constant
import StackAsm.Table
import StackAsm.Text.Alphanumeric

/-!
# Arguments of the commands

There are three commands: to assemble a program, to dump a container, and to run a suite of
programs. Options and operands may be mixed. The options for the search path and for definitions
take every argument that follows them up to the next option, unless their value is given with an
equals sign; two dashes end the options.
-/

namespace StackAsm.Command

/-- What programs are assembled with. -/
structure Settings where
  /-- The directories in which sources are looked for. -/
  searchPath : List String := []
  /-- The constants defined in advance. -/
  defines : Table Constant := {}
  deriving DecidableEq, Repr

/-- What a command line asks for. -/
inductive Request where
  /-- Assemble a program. -/
  | assemble (settings : Settings) (input : String) (output : Option String)
  /-- Show what is in a container. -/
  | dump (input : String)
  /-- Assemble the programs of a directory. -/
  | suite (settings : Settings) (directory : Option String)
  deriving DecidableEq, Repr

/-- A request and how much is to be reported. -/
structure Invocation where
  /-- How often more detail was asked for. -/
  verbosity : UInt8
  request : Request
  deriving DecidableEq, Repr

/-- Why a command line is refused. -/
inductive UsageError where
  /-- It does not have the right form. -/
  | form
  /-- A definition gives no name for a constant. -/
  | definition (name : String)
  deriving DecidableEq, Repr

/-- The wording of a refusal, where there is one. -/
def UsageError.message? : UsageError → Option String
  | form => none
  | definition name => some ("'" ++ name ++ "' is not a valid constant name")

/-! ### Definitions -/

/-- Whether a text may name a constant on the command line. -/
def isConstantName (name : String) : Bool :=
  name != "" && name.toList.all fun c => Text.isAlphanumeric c || c == '_'

/-- The constant of a definition, which is a name or a name and a value with an equals sign
between them. -/
def readDefinition (s : String) : Except UsageError (String × Constant) :=
  let name := String.ofList (s.toList.takeWhile (· ≠ '='))
  let value := match s.toList.dropWhile (· ≠ '=') with
    | [] => .empty
    | _ :: value => Constant.ofText (String.ofList value)
  if isConstantName name then .ok (name, value) else .error (.definition name)

/-- The constants of some definitions; a later one replaces an earlier one. -/
def readDefinitions (definitions : List String) : Except UsageError (Table Constant) := do
  let defines ← definitions.mapM readDefinition
  return defines.foldl (fun table (name, value) => table.insert name value) {}

/-! ### Options -/

/-- An option with values. -/
inductive ValueOption where
  | searchPath
  | definition
  deriving DecidableEq, Repr

/-- The arguments that were read. -/
structure Reading where
  /-- How often more detail was asked for. -/
  verbosity : UInt8 := 0
  /-- The values of the search path, if the option was given. -/
  searchPath : Option (List String) := none
  /-- The definitions, if the option was given. -/
  definitions : Option (List String) := none
  operands : List String := []
  /-- The option that takes what follows. -/
  pending : Option ValueOption := none
  /-- Whether the options have ended. -/
  ended : Bool := false
  deriving DecidableEq, Repr

/-- What a command takes. -/
structure Grammar where
  /-- Whether it takes options with values. -/
  hasValueOptions : Bool
  /-- The least number of operands. -/
  required : Nat
  /-- The most operands. -/
  allowed : Nat
  deriving DecidableEq, Repr

namespace Reading

/-- Adds values to an option, which counts as given. -/
def addValues (r : Reading) (option : ValueOption) (values : List String) : Reading :=
  match option with
  | .searchPath => { r with searchPath := some (r.searchPath.getD [] ++ values) }
  | .definition => { r with definitions := some (r.definitions.getD [] ++ values) }

/-- Takes in an operand. -/
def operand (grammar : Grammar) (r : Reading) (arg : String) : Except UsageError Reading :=
  if r.operands.length < grammar.allowed then .ok { r with operands := r.operands ++ [arg] }
  else .error .form

/-- Takes in an option with the value attached to it, if there is one. After an equals sign there
is only one value. -/
def option (grammar : Grammar) (r : Reading) (option : ValueOption) (equals : Bool)
    (attached : Option (List Char)) : Except UsageError Reading :=
  if !grammar.hasValueOptions then .error .form
  else
    match attached with
    | none => .ok { r.addValues option [] with pending := some option }
    | some value =>
      let one := equals || value.head? == some '='
      let r := r.addValues option [String.ofList (value.dropWhile (· == '='))]
      .ok { r with pending := if one then none else some option }

/-- Takes in a request for more detail. -/
def verbose (r : Reading) : Reading := { r with verbosity := r.verbosity + 1, pending := none }

/-- Takes in an argument that starts with two dashes. -/
def long (grammar : Grammar) (r : Reading) (arg : List Char) : Except UsageError Reading :=
  let body := arg.dropWhile (· == '-')
  let name := String.ofList (body.takeWhile (· ≠ '='))
  let attached := match body.dropWhile (· ≠ '=') with
    | [] => none
    | _ :: value => some value
  match name with
  | "verbose" => .ok r.verbose
  | "include" => r.option grammar .searchPath true attached
  | "define" => r.option grammar .definition true attached
  | _ => .error .form

/-- Takes in the letters after a single dash. -/
def short (grammar : Grammar) (r : Reading) : List Char → Except UsageError Reading
  | [] => .ok r
  | 'v' :: rest => r.verbose.short grammar rest
  | 'I' :: rest => r.option grammar .searchPath false (if rest = [] then none else some rest)
  | 'D' :: rest => r.option grammar .definition false (if rest = [] then none else some rest)
  | _ => .error .form

/-- Takes in an argument. -/
def argument (grammar : Grammar) (r : Reading) (arg : String) : Except UsageError Reading :=
  if r.ended then r.operand grammar arg
  else
    match arg.toList with
    | ['-', '-'] => .ok { r with ended := true }
    | '-' :: '-' :: _ => r.long grammar arg.toList
    | '-' :: c :: rest => r.short grammar (c :: rest)
    | _ =>
      match r.pending with
      | some option => .ok (r.addValues option [arg])
      | none => r.operand grammar arg

/-- Whether the reading has all operands, and every option a value. -/
def isComplete (grammar : Grammar) (r : Reading) : Bool :=
  grammar.required ≤ r.operands.length && r.searchPath != some [] && r.definitions != some []

/-- The settings that were given. -/
def settings (r : Reading) : Except UsageError Settings := do
  return ⟨r.searchPath.getD [], ← readDefinitions (r.definitions.getD [])⟩

end Reading

/-- Reads the arguments of a command. -/
def readArguments (grammar : Grammar) (args : List String) : Except UsageError Reading := do
  let reading ← args.foldlM (Reading.argument grammar) {}
  if reading.isComplete grammar then return reading else throw .form

/-! ### Command lines -/

/-- The arguments of the command that assembles. -/
def readAssemble (args : List String) : Except UsageError Invocation := do
  let reading ← readArguments ⟨true, 1, 2⟩ args
  let settings ← reading.settings
  match reading.operands with
  | input :: rest => return ⟨reading.verbosity, .assemble settings input rest.head?⟩
  | [] => throw .form

/-- The arguments of the command that dumps. -/
def readDump (args : List String) : Except UsageError Invocation := do
  let reading ← readArguments ⟨false, 1, 1⟩ args
  match reading.operands with
  | input :: _ => return ⟨reading.verbosity, .dump input⟩
  | [] => throw .form

/-- The arguments of the command that runs a suite. -/
def readSuite (args : List String) : Except UsageError Invocation := do
  let reading ← readArguments ⟨true, 0, 1⟩ args
  let settings ← reading.settings
  return ⟨reading.verbosity, .suite settings reading.operands.head?⟩

/-- What a command line asks for. It starts with the name of the program, of which there are two:
one for all commands, and one that dumps. -/
def readCommandLine : List String → Except UsageError Invocation
  | "cwdump" :: args => readDump args
  | _ :: "asm" :: args => readAssemble args
  | _ :: "dump" :: args => readDump args
  | _ :: "suite" :: args => readSuite args
  | _ => .error .form

end StackAsm.Command
