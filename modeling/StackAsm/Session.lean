import StackAsm.Container
import StackAsm.InstructionSet
import StackAsm.Item
import StackAsm.Operand
import StackAsm.Pool
import StackAsm.Table

/-!
# Sessions

What is known about a program while it is assembled: the declarations of its header and tables, and
the symbols with their instructions. The names of constants, modules, external symbols and symbols
share one table, and none of them is a mnemonic.
-/

namespace StackAsm

/-- What a name refers to. -/
inductive Reference where
  /-- A constant of the pool. -/
  | constant (index : UInt8) (kind : ConstantKind)
  /-- A module slot. -/
  | slot (index : UInt8)
  /-- A symbol of another module. -/
  | external (index : UInt8)
  /-- A symbol of this program, by its position. -/
  | symbol (position : Nat)
  deriving DecidableEq, Repr

/-- An operand in the source: known, or named and to be looked up. -/
inductive Binding where
  | known (operand : Operand)
  | named (name : String)
  deriving DecidableEq, Repr

/-- An instruction at its place. -/
structure PlacedInstruction where
  /-- The instruction. -/
  instruction : Instruction
  /-- Where it starts in its symbol. -/
  offset : Nat
  /-- Its operands. -/
  arguments : List (Located Binding)
  /-- Where it stands in the source. -/
  loc : Option Location
  deriving DecidableEq, Repr

/-- A symbol of the program. -/
structure Symbol where
  /-- Its name. -/
  name : String
  /-- The index that the source asks for. -/
  fixed : Option UInt8
  /-- Its instructions in their order. -/
  instructions : Array PlacedInstruction := #[]
  /-- The offsets of its labels. -/
  labels : Table Nat := {}
  /-- The number of bytes of its instructions. -/
  size : Nat := 0
  /-- Where it was opened. -/
  loc : Option Location
  deriving DecidableEq, Repr

/-- Adds an instruction at the end. -/
def Symbol.place (symbol : Symbol) (w : Width) (instruction : Instruction)
    (arguments : List (Located Binding)) (loc : Option Location) : Symbol :=
  { symbol with
    instructions := symbol.instructions.push ⟨instruction, symbol.size, arguments, loc⟩
    size := symbol.size + instruction.size w }

/-- Sets a label at the end. -/
def Symbol.setLabel (symbol : Symbol) (name : String) : Symbol :=
  { symbol with labels := symbol.labels.insert name symbol.size }

/-- What is known about a program. -/
structure Session where
  /-- The kind and width of the container. -/
  type : ContainerType
  /-- The instructions it may use. -/
  instructionSet : InstructionSet := .native
  metadata : Metadata := {}
  slots : List Slot := []
  pool : Pool := {}
  /-- What the names refer to. -/
  references : Table Reference := {}
  /-- The symbols in their order. -/
  symbols : Array Symbol := #[]
  deriving DecidableEq, Repr

/-- Whether a name refers to something or is a mnemonic. -/
def Session.isTaken (session : Session) (name : String) : Bool :=
  session.references.contains name || (session.instructionSet.find? name).isSome

/-- Makes a name refer to something. -/
def Session.refer (session : Session) (name : String) (reference : Reference) : Session :=
  { session with references := session.references.insert name reference }

end StackAsm
