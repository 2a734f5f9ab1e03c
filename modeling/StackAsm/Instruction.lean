import StackAsm.Contract
import StackAsm.Text.Lowercase
import StackAsm.Text.Numeral

/-!
# Instructions

An instruction has a mnemonic in lower case, an opcode and a contract for each operand. Opcodes
below `0x80` belong to the machine; the others are free for extensions.
-/

namespace StackAsm

/-- What an instruction looks like. -/
structure Instruction where
  /-- The mnemonic. -/
  name : String
  /-- The byte that stands for it. -/
  opcode : UInt8
  /-- What its operands may be. -/
  contracts : List Contract
  deriving DecidableEq, Repr

namespace Instruction

/-- The instruction of a mnemonic written in any case. -/
def define (name : String) (opcode : UInt8) (contracts : List Contract) : Instruction :=
  ⟨Text.lowercase name, opcode, contracts⟩

/-- The lowest opcode of an extension. -/
def firstExtended : UInt8 := 0x80

/-- Whether the instruction is an extension. -/
def isExtended (i : Instruction) : Bool := firstExtended ≤ i.opcode

/-- The number of bytes of the operands. -/
def operandSize (w : Width) (i : Instruction) : Nat :=
  i.contracts.foldr (fun contract size => contract.size w + size) 0

/-- The number of bytes of the instruction with its operands. -/
def size (w : Width) (i : Instruction) : Nat := 1 + i.operandSize w

/-- How an instruction is shown. -/
def text (i : Instruction) : String :=
  let operands := String.intercalate ", " (i.contracts.map Contract.name)
  i.name ++ " ($" ++ Text.hexByte i.opcode ++ ")" ++
    (if i.contracts.isEmpty then "" else " " ++ operands)

end Instruction

end StackAsm
