import StackAsm.Instruction.Native

/-!
# Instruction sets

The instructions of the machine together with extensions. There are two tables, one for mnemonics,
which are looked up without regard to case, and one for opcodes, which leads to a mnemonic and
through it to the instruction. An extension is taken in only if its opcode is in the extended range
and neither its name nor its opcode is in use.

Nothing in the type makes the two tables agree; that they do after any extensions, taken in or
refused, is proved. The tables are lists, of which only the sorted order is ever shown.
-/

namespace StackAsm

/-- The instructions that a source may use. -/
structure InstructionSet where
  /-- The table of names: the instructions, each under its own, in the order in which they were
  added. -/
  instructions : List Instruction
  /-- The table of opcodes, each with the name of the instruction it stands for. -/
  opcodes : List (UInt8 × String)
  deriving DecidableEq, Repr

/-- Why an extension is refused. -/
inductive ExtensionError where
  /-- The name is in use. -/
  | nameTaken (name : String)
  /-- The opcode is in use by the named instruction. -/
  | opcodeTaken (opcode : UInt8) (owner : String)
  /-- The opcode belongs to the machine. -/
  | notExtended (opcode : UInt8)
  deriving DecidableEq, Repr

/-- The wording of a refusal. -/
def ExtensionError.message : ExtensionError → String
  | nameTaken name => "an instruction named '" ++ name ++ "' already exists"
  | opcodeTaken opcode owner =>
    "opcode $" ++ Text.hexByte opcode ++ " is already taken by '" ++ owner ++ "'"
  | notExtended opcode =>
    "opcode $" ++ Text.hexByte opcode ++ " is not in the extended range $" ++
      Text.hexByte Instruction.firstExtended ++ "-$FF"

namespace InstructionSet

/-- The set of instructions with different names and opcodes. -/
def ofInstructions (instructions : List Instruction) : InstructionSet :=
  ⟨instructions, instructions.map fun i => (i.opcode, i.name)⟩

/-- The instructions of the machine alone. -/
def native : InstructionSet := ofInstructions Instruction.native

/-- The instruction of this exact mnemonic. -/
def withName? (set : InstructionSet) (name : String) : Option Instruction :=
  set.instructions.find? (·.name == name)

/-- The instruction of a mnemonic written in any case. -/
def find? (set : InstructionSet) (name : String) : Option Instruction :=
  set.withName? (Text.lowercase name)

/-- The instruction of an opcode. -/
def withOpcode? (set : InstructionSet) (opcode : UInt8) : Option Instruction :=
  (set.opcodes.lookup opcode).bind set.withName?

/-- The set with an instruction whose name and opcode are free. -/
def insert (set : InstructionSet) (i : Instruction) : InstructionSet :=
  ⟨set.instructions ++ [i], set.opcodes ++ [(i.opcode, i.name)]⟩

/-- Adds an extension. The state is the set; there is one after a refusal, too. -/
def register (i : Instruction) : EStateM ExtensionError InstructionSet Unit := do
  let set ← get
  if !i.isExtended then throw (.notExtended i.opcode)
  else if (set.withName? i.name).isSome then throw (.nameTaken i.name)
  else
    match set.opcodes.lookup i.opcode with
    | some owner => throw (.opcodeTaken i.opcode owner)
    | none => modify (·.insert i)

/-- The set with an extension. -/
def extend (set : InstructionSet) (i : Instruction) : Except ExtensionError InstructionSet :=
  match register i set with
  | .ok () set' => .ok set'
  | .error e _ => .error e

/-- The instructions by opcode. -/
def byOpcode (set : InstructionSet) : List Instruction :=
  set.instructions.mergeSort fun a b => a.opcode ≤ b.opcode

/-- The extensions by opcode. -/
def extensions (set : InstructionSet) : List Instruction := set.byOpcode.filter (·.isExtended)

end InstructionSet

end StackAsm
