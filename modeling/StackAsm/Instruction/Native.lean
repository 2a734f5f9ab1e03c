import StackAsm.Instruction

/-!
# The instructions of the machine

The instructions that every container may use, by opcode.
-/

namespace StackAsm.Instruction

/-- Calls, returns and references to symbols and modules. -/
def control : List Instruction :=
  [⟨"nop", 0x00, []⟩, ⟨"halt", 0x01, []⟩, ⟨"ret", 0x06, []⟩, ⟨"eop", 0x07, []⟩,
    ⟨"call", 0x08, [.symbol]⟩, ⟨"callx", 0x09, [.slot, .external]⟩, ⟨"symref", 0x0A, [.symbol]⟩,
    ⟨"modref", 0x0B, [.slot]⟩]

/-- Jumps: to any label, and to near ones ahead and back. -/
def jumps : List Instruction :=
  [⟨"jmp", 0x10, [.label]⟩, ⟨"jz", 0x11, [.label]⟩, ⟨"jnz", 0x12, [.label]⟩,
    ⟨"jfw", 0x13, [.forward]⟩, ⟨"jbw", 0x14, [.backward]⟩, ⟨"jzfw", 0x15, [.forward]⟩,
    ⟨"jzbw", 0x16, [.backward]⟩, ⟨"jnzfw", 0x17, [.forward]⟩, ⟨"jnzbw", 0x18, [.backward]⟩]

/-- The stack and the memory. -/
def stack : List Instruction :=
  [⟨"push", 0x20, [.number]⟩, ⟨"pushb", 0x21, [.byte]⟩, ⟨"pop", 0x22, []⟩, ⟨"dup", 0x23, []⟩,
    ⟨"swap", 0x24, []⟩, ⟨"over", 0x25, []⟩, ⟨"load", 0x26, [.byte]⟩, ⟨"store", 0x27, [.byte]⟩,
    ⟨"alloc", 0x28, [.number]⟩, ⟨"free", 0x29, []⟩]

/-- Arithmetic and comparisons. -/
def arithmetic : List Instruction :=
  [⟨"add", 0x30, []⟩, ⟨"sub", 0x31, []⟩, ⟨"mul", 0x32, []⟩, ⟨"div", 0x33, []⟩, ⟨"mod", 0x34, []⟩,
    ⟨"neg", 0x35, []⟩, ⟨"and", 0x36, []⟩, ⟨"or", 0x37, []⟩, ⟨"xor", 0x38, []⟩, ⟨"not", 0x39, []⟩,
    ⟨"shl", 0x3A, []⟩, ⟨"shr", 0x3B, []⟩, ⟨"eq", 0x40, []⟩, ⟨"ne", 0x41, []⟩, ⟨"lt", 0x42, []⟩,
    ⟨"le", 0x43, []⟩, ⟨"gt", 0x44, []⟩, ⟨"ge", 0x45, []⟩]

/-- Access to the constants. -/
def constants : List Instruction :=
  [⟨"lda", 0x50, [.array]⟩, ⟨"ldba", 0x51, [.byteArray]⟩, ⟨"lds", 0x52, [.string]⟩,
    ⟨"ldd", 0x53, [.data]⟩, ⟨"ldv", 0x54, [.values]⟩, ⟨"ldvi", 0x55, [.values, .byte]⟩,
    ⟨"len", 0x56, []⟩]

/-- Input, output and debugging. -/
def system : List Instruction :=
  [⟨"print", 0x70, []⟩, ⟨"prints", 0x71, []⟩, ⟨"input", 0x72, []⟩, ⟨"dbg", 0x7F, [.anything]⟩]

/-- The instructions of the machine. -/
def native : List Instruction := control ++ jumps ++ stack ++ arithmetic ++ constants ++ system

end StackAsm.Instruction
