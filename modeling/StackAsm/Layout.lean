import StackAsm.ErrorClass
import StackAsm.Event
import StackAsm.Session

/-!
# Layout

The second reading of a program, over the lines that declare nothing. A line opens a symbol, sets
labels and places instructions at the end of the open symbol. Operands that are known already are
checked against their contracts here; named ones are left to linking. What was laid out before an
error stays in the session.

No symbol is open when a layout starts, also if the session has some. Offsets and sizes are natural
numbers.
-/

namespace StackAsm.Layout

/-! ### Errors -/

/-- Why a line cannot be laid out. -/
inductive Error where
  /-- There is no open symbol. -/
  | outsideSymbol
  | unknownDirective (name : String)
  | unknownInstruction (name : String)
  | nameTaken (name : String)
  | duplicateLabel (name : String)
  | symbolIndexOutOfRange (index : Int64)
  | duplicateSymbolIndex (index : UInt8)
  | unexpectedItem (found expected : String)
  /-- The instruction takes another number of operands. -/
  | argumentCount (mnemonic : String) (expected found : Nat)
  /-- The operand at the position, from one, is refused. -/
  | badArgument (mnemonic : String) (position : Nat) (e : OperandError)
  deriving DecidableEq, Repr

/-- The class of an error. -/
def Error.errorClass : Error → ErrorClass
  | outsideSymbol | unknownDirective _ => .structural
  | unknownInstruction _ | nameTaken _ | duplicateLabel _ | symbolIndexOutOfRange _
  | duplicateSymbolIndex _ => .reference
  | unexpectedItem _ _ | argumentCount _ _ _ | badArgument _ _ _ => .argument

/-- The wording of a refused operand. -/
def badArgumentMessage (mnemonic : String) (position : Nat) (e : OperandError) : String :=
  "Signature mismatch: '" ++ mnemonic ++ "' argument " ++ toString position ++ ": " ++ e.message

/-- The wording of an error. -/
def Error.message : Error → String
  | outsideSymbol => "Instructions and labels must follow '.symbol'"
  | unknownDirective name => "Unknown directive '." ++ name ++ "'"
  | unknownInstruction name => "Unknown instruction '" ++ name ++ "'"
  | nameTaken name => "The name '" ++ name ++ "' is already taken"
  | duplicateLabel name => "Label '" ++ name ++ "' is already defined in this symbol"
  | symbolIndexOutOfRange index =>
    "Symbol index " ++ Text.decimal index ++ " is out of range (0-" ++
      toString Limit.symbolIndex ++ ")"
  | duplicateSymbolIndex index =>
    "Symbol index " ++ toString index.toNat ++ " is already fixed by another symbol"
  | unexpectedItem found expected => "Unexpected token '" ++ found ++ "', expected " ++ expected
  | argumentCount mnemonic expected found =>
    "Signature mismatch: '" ++ mnemonic ++ "' takes " ++ toString expected ++
      " argument(s), found " ++ toString found
  | badArgument mnemonic position e => badArgumentMessage mnemonic position e

/-- The error of an item of the wrong kind. -/
def unexpected (item : Located Item) (expected : String) : Located Error :=
  item.withValue (.unexpectedItem item.value.shown expected)

/-! ### Reading lines -/

/-- The name and the index that a line opening a symbol gives. -/
def readSymbol (head : Located Item) :
    List (Located Item) → Except (Located Error) (Located String × Option UInt8)
  | [] => .error (unexpected head "a symbol name")
  | item :: rest =>
    match item.value with
    | .word name =>
      match rest with
      | [] => .ok (item.withValue name, none)
      | [other] => .error (unexpected other "a separator")
      | [separator, index] =>
        match separator.value, index.value with
        | .separator _, .number n =>
          if 0 ≤ n.toInt ∧ n.toInt ≤ Limit.symbolIndex then
            .ok (item.withValue name, some n.toUInt64.toUInt8)
          else .error (index.withValue (.symbolIndexOutOfRange n))
        | .separator _, _ => .error (unexpected index "a symbol index")
        | _, _ => .error (unexpected separator "a separator")
      | _ :: _ :: extra :: _ => .error (unexpected extra "end of line")
    | _ => .error (unexpected item "a symbol name")

/-- The operand that an item is. -/
def readOperand (item : Located Item) : Except (Located Error) (Located Binding) :=
  match item.value with
  | .number n => .ok (item.withValue (.known (.value n)))
  | .constant index kind => .ok (item.withValue (.known (.index kind.target index)))
  | .word name => .ok (item.withValue (.named name))
  | _ => .error (unexpected item "an argument")

/-- The operands of a line, with separators between them. -/
def readOperands : List (Located Item) → Except (Located Error) (List (Located Binding))
  | [] => .ok []
  | [item] => (readOperand item).map ([·])
  | [item, separator] => do
    let _ ← readOperand item
    match separator.value with
    | .separator _ => throw (separator.withValue (.unexpectedItem "," "an argument"))
    | _ => throw (unexpected separator "a separator")
  | item :: separator :: items => do
    let operand ← readOperand item
    match separator.value with
    | .separator _ => return operand :: (← readOperands items)
    | _ => throw (unexpected separator "a separator")

/-- Checks the operands that are known, from the given position on. -/
def checkOperands (w : Width) (mnemonic : String) (position : Nat) :
    List Contract → List (Located Binding) → Except (Located Error) Unit
  | contract :: contracts, argument :: arguments => do
    if let .known operand := argument.value then
      if let .error e := contract.normalize w operand then
        throw (argument.withValue (.badArgument mnemonic position e))
    checkOperands w mnemonic (position + 1) contracts arguments
  | _, _ => .ok ()

/-- The instruction and the operands of a line. -/
def readInstruction (session : Session) (head : Located Item) (rest : List (Located Item)) :
    Except (Located Error) (Instruction × List (Located Binding)) := do
  match head.value with
  | .word mnemonic =>
    match session.instructionSet.find? mnemonic with
    | none => throw (head.withValue (.unknownInstruction mnemonic))
    | some i =>
      let arguments ← readOperands rest
      if arguments.length ≠ i.contracts.length then
        throw (head.withValue (.argumentCount i.name i.contracts.length arguments.length))
      checkOperands session.type.width i.name 1 i.contracts arguments
      return (i, arguments)
  | _ => throw (unexpected head "an instruction")

/-! ### Laying out lines -/

/-- The state of a layout. -/
structure State where
  session : Session
  /-- The position of the open symbol, if one was opened in this layout. -/
  current : Option Nat := none
  /-- What was reported. -/
  events : Array Event := #[]
  deriving DecidableEq, Repr

/-- A step of a layout. Its effects remain if it fails. -/
abbrev LayOut := EStateM (Located Error) State

/-- Reports an event. -/
def report (event : Event) : LayOut Unit :=
  modify fun s => { s with events := s.events.push event }

/-- Fails, or goes on with the outcome. -/
def orFail {α : Type} : Except (Located Error) α → LayOut α
  | .ok x => return x
  | .error e => throw e

/-- The session with another symbol, to which its name refers. -/
def addSymbol (session : Session) (symbol : Symbol) : Session :=
  { session.refer symbol.name (.symbol session.symbols.size) with
    symbols := session.symbols.push symbol }

/-- Opens a symbol. -/
def State.addSymbol (s : State) (symbol : Symbol) : State :=
  { s with
    session := Layout.addSymbol s.session symbol
    current := some s.session.symbols.size }

/-- The session with another symbol in a position. -/
def changeSymbol (session : Session) (position : Nat) (change : Symbol → Symbol) : Session :=
  { session with symbols := session.symbols.modify position change }

/-- The open symbol with its position, or a failure at `item`. -/
def openSymbol (item : Located Item) : LayOut (Nat × Symbol) := do
  let s ← get
  match s.current.bind fun position => s.session.symbols[position]?.map (position, ·) with
  | some found => return found
  | none => throw (item.withValue .outsideSymbol)

/-- Changes the symbol in a position. -/
def State.changeSymbol (s : State) (position : Nat) (change : Symbol → Symbol) : State :=
  { s with session := Layout.changeSymbol s.session position change }

/-- Lays out a line that opens a symbol. -/
def symbolLine (head : Located Item) (rest : List (Located Item)) : LayOut Unit := do
  let (name, fixed) ← orFail (readSymbol head rest)
  let session := (← get).session
  if session.isTaken name.value then throw (name.map .nameTaken)
  if let some index := fixed then
    if session.symbols.any (·.fixed == some index) then
      throw (name.withValue (.duplicateSymbolIndex index))
  report (.symbolOpened name.value fixed)
  modify (·.addSymbol { name := name.value, fixed, loc := head.loc })

/-- Lays out an instruction. -/
def instructionLine (head : Located Item) (rest : List (Located Item)) : LayOut Unit := do
  let (i, arguments) ← orFail (readInstruction (← get).session head rest)
  let (position, symbol) ← openSymbol head
  report (.placed i.name symbol.name symbol.size)
  let w := (← get).session.type.width
  modify (·.changeSymbol position (·.place w i arguments head.loc))

/-- Sets a label in the open symbol. -/
def setLabel (head : Located Item) (name : String) : LayOut Unit := do
  let (position, symbol) ← openSymbol head
  if symbol.labels.contains name then throw (head.withValue (.duplicateLabel name))
  modify (·.changeSymbol position (·.setLabel name))

/-- Lays out a line. A label may stand alone or before an instruction. -/
def layOutLine (head : Located Item) (rest : List (Located Item)) : LayOut Unit :=
  match head.value, rest with
  | .directive "symbol", rest => symbolLine head rest
  | .directive name, _ => throw (head.withValue (.unknownDirective name))
  | .word name, ⟨_, .separator ':'⟩ :: rest => do
    setLabel head name
    match rest with
    | [] => return
    | head :: rest => instructionLine head rest
  | _, rest => instructionLine head rest

/-- Lays out lines one after the other. -/
def layOutLines : List (List (Located Item)) → LayOut Unit
  | [] => return
  | [] :: lines => layOutLines lines
  | (head :: rest) :: lines => do
    layOutLine head rest
    layOutLines lines

/-- Lays out the items that were put aside. Gives the session as far as it came, why the layout
stopped early, if it did, and what was reported. -/
def layOut (session : Session) (items : List (Located Item)) :
    Session × Option (Located Error) × List Event :=
  match layOutLines (Item.lines items) { session } with
  | .error e s => (s.session, some e, s.events.toList)
  | .ok () s => (s.session, none, s.events.toList ++ [.laidOut s.session.symbols.size])

end StackAsm.Layout
