import StackAsm.Width

/-!
# Contracts

Every instruction says for each of its operands what it may be. Such a contract fixes how the
operand is written, as a number of the container's width or as a single byte, and which references
it takes.
-/

namespace StackAsm

/-- How an operand is written. -/
inductive Form where
  /-- As a number of the container's width. -/
  | number
  /-- As a single byte. -/
  | byte
  deriving DecidableEq, Repr

/-- How a form is shown. -/
def Form.text : Form → String
  | number => "number"
  | byte => "byte"

/-- The number of bytes of a form. -/
def Form.size (w : Width) : Form → Nat
  | number => w.bytes
  | byte => 1

/-- What a reference refers to. -/
inductive Target where
  /-- A place in the same symbol. -/
  | label
  /-- A symbol of this container. -/
  | symbol
  /-- A symbol of another module. -/
  | external
  /-- A slot for another module. -/
  | slot
  /-- A constant of bytes. -/
  | data
  /-- A constant of numbers. -/
  | values
  /-- A constant text. -/
  | string
  deriving DecidableEq, Repr

/-- How a target is shown. -/
def Target.text : Target → String
  | label => "label"
  | symbol => "symbol"
  | external => "extern"
  | slot => "module"
  | data => "data"
  | values => "values"
  | string => "string"

/-- The target of a name. -/
def Target.ofText? : String → Option Target
  | "label" => some label
  | "symbol" => some symbol
  | "extern" => some external
  | "module" => some slot
  | "data" => some data
  | "values" => some values
  | "string" => some string
  | _ => none

/-- What an operand may be. -/
inductive Contract where
  /-- A number, or any reference. -/
  | number
  /-- A byte, or any reference that fits one. -/
  | byte
  /-- A label anywhere in the symbol. -/
  | label
  /-- A label at most 255 bytes ahead. -/
  | forward
  /-- A label at most 255 bytes back. -/
  | backward
  /-- A symbol of this container. -/
  | symbol
  /-- A symbol of another module, by name or index. -/
  | external
  /-- A slot for another module, by name or index. -/
  | slot
  /-- A constant of bytes. -/
  | data
  /-- A constant of numbers. -/
  | values
  /-- A constant text. -/
  | string
  /-- Any constant. -/
  | array
  /-- A constant of bytes or a constant text. -/
  | byteArray
  /-- Whatever fits a number. -/
  | anything
  deriving DecidableEq, Repr

namespace Contract

/-- The name of a contract. -/
def name : Contract → String
  | number => "number"
  | byte => "byte"
  | label => "label"
  | forward => "shortlabelfw"
  | backward => "shortlabelbw"
  | symbol => "internsymbol"
  | external => "externsymbol"
  | slot => "module"
  | data => "data"
  | values => "values"
  | string => "string"
  | array => "array"
  | byteArray => "bytearray"
  | anything => "anything"

/-- The contract of a name; some have a short name as well. -/
def ofName? : String → Option Contract
  | "number" | "num" => some number
  | "byte" => some byte
  | "label" => some label
  | "shortlabelfw" | "slabelfw" => some forward
  | "shortlabelbw" | "slabelbw" => some backward
  | "internsymbol" | "symbol" => some symbol
  | "externsymbol" | "extern" => some external
  | "module" => some slot
  | "data" => some data
  | "values" | "vals" => some values
  | "string" | "str" => some string
  | "array" => some array
  | "bytearray" => some byteArray
  | "anything" | "any" => some anything
  | _ => none

/-- How an operand under the contract is written. -/
def form : Contract → Form
  | number | label | anything => .number
  | _ => .byte

/-- The number of bytes of an operand under the contract. -/
def size (w : Width) (contract : Contract) : Nat := contract.form.size w

/-- Whether the contract takes references to a target. -/
def accepts : Contract → Target → Bool
  | number, _ | byte, _ | anything, _ => true
  | label, target | forward, target | backward, target => target == .label
  | symbol, target => target == .symbol
  | external, target => target == .external
  | slot, target => target == .slot
  | data, target => target == .data
  | values, target => target == .values
  | string, target => target == .string
  | array, target => target == .values || target == .data || target == .string
  | byteArray, target => target == .data || target == .string

end Contract

end StackAsm
