import StackAsm.Layout

/-!
# Linking

The last step to a container. Every symbol gets its index, every named operand its value, and the
instructions become bytes. A label is referred to by its distance from the start of the instruction,
everything else by its index.

A distance is a number of 64 bits, so it is exact only within code of less than `2 ^ 63` bytes; what
is proved of distances says so.
-/

namespace StackAsm.Linking

/-- Why a program cannot be linked. -/
inductive Error where
  | tooManySymbols
  /-- The name refers to nothing. -/
  | unresolvedReference (name : String)
  /-- The operand at the position, from one, is refused. -/
  | badArgument (mnemonic : String) (position : Nat) (e : OperandError)
  deriving DecidableEq, Repr

/-- The class of an error. -/
def Error.errorClass : Error → ErrorClass
  | tooManySymbols => .capacity
  | unresolvedReference _ => .reference
  | badArgument _ _ _ => .argument

/-- The wording of an error. -/
def Error.message : Error → String
  | tooManySymbols => "Too many symbols (at most " ++ toString Limit.symbols ++ ")"
  | unresolvedReference name => "Unresolved reference '" ++ name ++ "'"
  | badArgument mnemonic position e => Layout.badArgumentMessage mnemonic position e

/-! ### Indices -/

/-- The indices that no symbol asks for, from the lowest. -/
def freeIndices (symbols : List Symbol) : List UInt8 :=
  ((List.range Limit.symbols).map UInt8.ofNat).filter fun index =>
    symbols.all (·.fixed != some index)

/-- Gives the symbols their indices; those that ask for none take the free ones in order. -/
def assignIndices : List UInt8 → List Symbol → Except (Located Error) (List UInt8)
  | _, [] => .ok []
  | free, symbol :: symbols =>
    match symbol.fixed, free with
    | some index, free => (assignIndices free symbols).map (index :: ·)
    | none, index :: free => (assignIndices free symbols).map (index :: ·)
    | none, [] => .error ⟨symbol.loc, .tooManySymbols⟩

/-- The indices of the symbols. -/
def indices (symbols : List Symbol) : Except (Located Error) (List UInt8) :=
  assignIndices (freeIndices symbols) symbols

/-! ### Operands -/

/-- The operand that a reference is. -/
def referenceOperand? (indices : List UInt8) : Reference → Option Operand
  | .symbol position => indices[position]?.map (.index .symbol ·)
  | .constant index kind => some (.index kind.target index)
  | .slot index => some (.index .slot index)
  | .external index => some (.index .external index)

/-- The operand that a name is in an instruction at `offset` of a symbol. Labels come first. -/
def lookup? (references : Table Reference) (indices : List UInt8) (symbol : Symbol)
    (offset : Nat) (name : String) : Option Operand :=
  match symbol.labels.get? name with
  | some target => some (.distance .label (Int64.ofInt ((target : Int) - offset)))
  | none => (references.get? name).bind (referenceOperand? indices)

/-- The operand of a binding. -/
def resolve (references : Table Reference) (indices : List UInt8) (symbol : Symbol)
    (offset : Nat) (argument : Located Binding) : Except (Located Error) Operand :=
  match argument.value with
  | .known operand => .ok operand
  | .named name =>
    match lookup? references indices symbol offset name with
    | some operand => .ok operand
    | none => .error (argument.withValue (.unresolvedReference name))

/-- The bytes of the operands of an instruction, from the given position on. -/
def argumentBytes (session : Session) (indices : List UInt8) (symbol : Symbol)
    (placed : PlacedInstruction) (position : Nat) :
    List Contract → List (Located Binding) → Except (Located Error) Bytes
  | contract :: contracts, argument :: arguments => do
    let operand ← resolve session.references indices symbol placed.offset argument
    match contract.normalize session.type.width operand with
    | .error e =>
      throw (argument.withValue (.badArgument placed.instruction.name position e))
    | .ok encoded =>
      let rest ← argumentBytes session indices symbol placed (position + 1) contracts arguments
      return encoded.bytes session.type.width ++ rest
  | _, _ => .ok []

/-- The bytes of an instruction. -/
def instructionBytes (session : Session) (indices : List UInt8) (symbol : Symbol)
    (placed : PlacedInstruction) : Except (Located Error) Bytes := do
  let arguments ← argumentBytes session indices symbol placed 1 placed.instruction.contracts
    placed.arguments
  return placed.instruction.opcode :: arguments

/-- The code of a symbol. -/
def body (session : Session) (indices : List UInt8) (symbol : Symbol) :
    Except (Located Error) Bytes :=
  (symbol.instructions.toList.mapM (instructionBytes session indices symbol)).map List.flatten

/-! ### Containers -/

/-- The symbols with their code, up to the first that cannot be linked. -/
def linkSymbols (session : Session) (indices : List UInt8) :
    List (Symbol × UInt8) → Except (Located Error) (List SymbolEntry) × List Event
  | [] => (.ok [], [])
  | (symbol, index) :: rest =>
    match body session indices symbol with
    | .error e => (.error e, [])
    | .ok bytes =>
      let (entries, events) := linkSymbols session indices rest
      (entries.map (⟨some symbol.name, index, bytes⟩ :: ·),
        .linked symbol.name index bytes.length :: events)

/-- The container of a program, and what was reported on the way. -/
def link (session : Session) : Except (Located Error) Container × List Event :=
  let symbols := session.symbols.toList
  match indices symbols with
  | .error e => (.error e, [])
  | .ok indices =>
    let (entries, events) := linkSymbols session indices (symbols.zip indices)
    (entries.map fun symbols =>
        { type := session.type, metadata := session.metadata, slots := session.slots,
          constants := session.pool.entries, symbols },
      events)

end StackAsm.Linking
