import StackAsm.Declaration.Arguments
import StackAsm.Event
import StackAsm.Session

/-!
# Declarations

The first line of a program, its header, says what container it makes. After it, the lines that
declare constants, modules, external symbols, instructions and metadata may stand anywhere. They
are read into a session; all other lines are put aside for the layout, with their texts moved into
the pool of constants.
-/

namespace StackAsm

/-- Something that a line declares. -/
inductive Declaration where
  | constant (kind : ConstantKind) (name : String) (bytes : Bytes)
  | slot (slot : Slot)
  | external (name : String) (index : UInt8)
  | instruction (i : Instruction)
  | title (s : String)
  | author (s : String)
  | description (s : String)
  | version (t : Triple)
  | runtime (t : Triple)
  | resources (t : Triple)
  deriving DecidableEq, Repr

namespace Declaration

/-- The directives that declare something. -/
inductive Keyword where
  | data
  | string
  | values
  | slot
  | optionalSlot
  | external
  | instruction
  | title
  | author
  | description
  | version
  | runtime
  | resources
  deriving DecidableEq, Repr

namespace Keyword

/-- The keyword of a directive. -/
def ofName? : String → Option Keyword
  | "data" => some data
  | "str" | "string" => some string
  | "vals" | "values" => some values
  | "module" => some slot
  | "optmodule" => some optionalSlot
  | "extern" => some external
  | "extinstr" => some instruction
  | "title" => some title
  | "author" | "copyright" => some author
  | "description" => some description
  | "version" => some version
  | "runtime" => some runtime
  | "resources" => some resources
  | _ => none

/-- How the log names a keyword. -/
def logName : Keyword → String
  | data => "Data"
  | string => "Str"
  | values => "Values"
  | slot => "Module"
  | optionalSlot => "OptModule"
  | external => "Extern"
  | instruction => "ExtInstr"
  | title => "Title"
  | author => "Author"
  | description => "Description"
  | version => "Version"
  | runtime => "Runtime"
  | resources => "Resources"

end Keyword

/-! ### Reading a declaration -/

/-- Refuses a name that is in use. -/
def requireFree (session : Session) (name : Located String) : Read Unit :=
  if session.isTaken name.value then throw (name.map .nameTaken) else return

/-- The bytes of a text. -/
def utf8 (s : String) : Bytes := s.toUTF8.data.toList

/-- The bytes of an element of a constant of bytes. -/
def dataBytes (item : Located Item) : Except (Located Error) Bytes :=
  match item.value with
  | .number n =>
    if fitsByte n then .ok [n.toUInt64.toUInt8]
    else .error (item.withValue (.valueOutOfRange n "a byte"))
  | .text s => .ok (utf8 s)
  | _ => .error (unexpected item "a byte")

/-- The bytes of an element of a constant of numbers. -/
def valueBytes (w : Width) (item : Located Item) : Except (Located Error) Bytes :=
  match item.value with
  | .number n =>
    if w.fitsValue n then .ok (w.encode n.toUInt64)
    else .error (item.withValue (.valueOutOfRange n "the container width"))
  | _ => .error (unexpected item "a number")

/-- The bytes of the elements that make up the rest of the line. -/
def readBytes (bytesOf : Located Item → Except (Located Error) Bytes) : Read Bytes := do
  let elements ← readElements
  return (← elements.mapM fun item => liftM (bytesOf item)).flatten

/-- A constant: its name, a separator, and what it holds. -/
def readConstant (session : Session) (kind : ConstantKind) : Read Declaration := do
  let name ← readName
  requireFree session name
  readSeparator
  let bytes ← match kind with
    | .string => utf8 <$> readText
    | .data => readBytes dataBytes
    | .values => readBytes (valueBytes session.type.width)
  return .constant kind name.value bytes

/-- Whether a name is short and plain enough for a module. -/
def isModuleName (name : String) : Bool :=
  name.utf8ByteSize ≤ Limit.moduleName && name.toList.all (·.toNat < 128)

/-- A module: its name, a separator and its slot. -/
def readSlot (session : Session) (head : Option Location) (optional : Bool) :
    Read Declaration := do
  let name ← readName
  readSeparator
  let index ← readNumber "a slot index"
  if !isModuleName name.value then throw ⟨head, .moduleNameTooLong name.value⟩
  if !(0 ≤ index.value.toInt && index.value.toInt ≤ Limit.slotIndex) then
    throw (index.map .slotOutOfRange)
  let i := index.value.toUInt64.toUInt8
  if session.slots.any (·.index == i) then throw (index.withValue (.duplicateSlot i))
  if Limit.slots ≤ session.slots.length then throw ⟨head, .tooManySlots⟩
  requireFree session name
  return .slot ⟨name.value, i, optional⟩

/-- A symbol of another module: its name, a separator and its index. -/
def readExternal (session : Session) : Read Declaration := do
  let name ← readName
  readSeparator
  let index ← readNumber "a symbol index"
  if !(0 ≤ index.value.toInt && index.value.toInt ≤ Limit.symbolIndex) then
    throw (index.map .externalOutOfRange)
  requireFree session name
  return .external name.value index.value.toUInt64.toUInt8

/-- The contracts that make up the rest of the line `items`, each after a separator. -/
def contractsFrom (last : Option Location) :
    List (Located Item) → Except (Located Error) (List Contract)
  | [] => .ok []
  | separator :: items =>
    match separator.value, items with
    | .separator _, [] => .error ⟨last, .unexpectedEnd "a name"⟩
    | .separator _, item :: items =>
      match item.value with
      | .word name =>
        match Contract.ofName? (Text.lowercase name) with
        | some contract => (contractsFrom last items).map (contract :: ·)
        | none => .error (item.withValue (.unknownContract name))
      | _ => .error (unexpected item "a name")
    | _, _ => .error (unexpected separator "a separator")

/-- An instruction: its name, a separator, its opcode, and its contracts. -/
def readInstruction (session : Session) : Read Declaration := do
  let name ← readName
  readSeparator
  let opcode ← readByte "an opcode"
  let args ← get
  let contracts ← liftM (contractsFrom args.last args.rest)
  set { args with rest := [] }
  requireFree session name
  return .instruction (Instruction.define name.value opcode contracts)

/-- The declaration of a line whose directive stands at `head`. -/
def Keyword.read (session : Session) (head : Option Location) : Keyword → Read Declaration
  | data => readConstant session .data
  | string => readConstant session .string
  | values => readConstant session .values
  | slot => readSlot session head false
  | optionalSlot => readSlot session head true
  | external => readExternal session
  | instruction => readInstruction session
  | title => .title <$> readText
  | author => .author <$> readText
  | description => .description <$> readText
  | version => .version <$> readVersion false
  | runtime => .runtime <$> readVersion false
  | resources => .resources <$> readVersion true

/-! ### Carrying out a declaration -/

/-- The session after a declaration. -/
def apply (session : Session) : Declaration → Except Error Session
  | constant kind name bytes =>
    match session.pool.register bytes with
    | .error e => .error (.pool e)
    | .ok (index, pool) => .ok ({ session with pool }.refer name (.constant index kind))
  | slot s => .ok ({ session with slots := session.slots ++ [s] }.refer s.name (.slot s.index))
  | external name index => .ok (session.refer name (.external index))
  | instruction i =>
    match session.instructionSet.extend i with
    | .error e => .error (.extension e)
    | .ok instructionSet => .ok { session with instructionSet }
  | title s => .ok { session with metadata.title := s }
  | author s => .ok { session with metadata.author := s }
  | description s => .ok { session with metadata.description := s }
  | version t => .ok { session with metadata.version := t }
  | runtime t => .ok { session with metadata.runtime := t }
  | resources t => .ok { session with metadata.resources := t }

/-- What is reported when a text of the metadata is set that was `old` before. -/
def textEvents (what old new : String) : List Event :=
  (if new = "" then [.emptyText what] else []) ++ (if old = "" then [] else [.repeatedText what])

/-- What is reported of a declaration, given the session before and after it. -/
def events (before after : Session) : Declaration → List Event
  | constant kind name _ =>
    match after.references.get? name with
    | some (.constant index _) => [.constantDeclared kind name index]
    | _ => []
  | slot s => [.slotDeclared s.name s.index]
  | external _ _ => []
  | instruction i => [.extended i]
  | title s => textEvents "title" before.metadata.title s
  | author s => textEvents "author" before.metadata.author s
  | description s => textEvents "description" before.metadata.description s
  | version _ | runtime _ | resources _ => []

/-! ### Programs -/

/-- The state of reading a program. -/
structure State where
  session : Session
  /-- The lines put aside, each with its end. -/
  deferred : Array (Located Item) := #[]
  /-- What was reported. -/
  events : Array Event := #[]
  deriving DecidableEq, Repr

/-- The kind of container that a header directive names. -/
def headerKind? : String → Option ContainerKind
  | "cwx" | "executable" => some .executable
  | "cwl" | "library" => some .library
  | _ => none

/-- The type that a header gives to the container. There are no containers of 8 bits in source
form. -/
def readHeader (head : Located Item) (rest : List (Located Item)) :
    Except (Located Error) ContainerType := do
  let kind? := match head.value with
    | .directive name => headerKind? name
    | _ => none
  match kind? with
  | none => throw (head.withValue (.expectedHeader head.value.shown))
  | some kind =>
    let (bits, args) ← (do readSeparator; readNumber "a bit width" : Read (Located Int64)).run
      (Arguments.ofLine head rest)
    match Width.ofBits? bits.value with
    | none | some .w8 => throw (bits.map .invalidWidth)
    | some width =>
      args.expectEnd
      return ⟨kind, width⟩

/-- A step of reading a program. What was reported remains if it fails. -/
abbrev Declare := EStateM (Located Error) State

/-- Reports events. -/
def report (events : List Event) : Declare Unit :=
  modify fun s => { s with events := s.events ++ events.toArray }

/-- Fails, or goes on with the outcome. -/
def orFail {α : Type} : Except (Located Error) α → Declare α
  | .ok x => return x
  | .error e => throw e

/-- Puts an item aside; a text is moved into the pool. -/
def deferItem (item : Located Item) : Declare Unit := do
  match item.value with
  | .text content =>
    let pool := (← get).session.pool
    match pool.register (utf8 content) with
    | .error e => throw (item.withValue (.pool e))
    | .ok (index, pool) =>
      modify fun s =>
        { s with session := { s.session with pool }
                 deferred := s.deferred.push (item.withValue (.constant index .string)) }
  | _ => modify fun s => { s with deferred := s.deferred.push item }

/-- Puts a line aside. Its end stands where its last item does. -/
def deferLine (head : Located Item) (rest : List (Located Item)) : Declare Unit := do
  (head :: rest).forM deferItem
  let last := rest.getLast?.getD head
  modify fun s => { s with deferred := s.deferred.push (last.withValue .lineEnd) }

/-- Reads and carries out the declaration of a line. -/
def declareLine (keyword : Keyword) (head : Located Item) (rest : List (Located Item)) :
    Declare Unit := do
  report [.declaration keyword.logName]
  let session := (← get).session
  let (declaration, args) ← orFail
    ((keyword.read session head.loc).run (Arguments.ofLine head rest))
  let after ← orFail ((declaration.apply session).mapError head.withValue)
  report (declaration.events session after)
  modify fun s => { s with session := after }
  orFail args.expectEnd

/-- Reads a line after the header. -/
def readLine (head : Located Item) (rest : List (Located Item)) : Declare Unit := do
  match head.value with
  | .directive name =>
    if (headerKind? name).isSome then throw (head.withValue .duplicateHeader)
    else
      match Keyword.ofName? name with
      | some keyword => declareLine keyword head rest
      | none => deferLine head rest
  | _ => deferLine head rest

/-- Reads the lines after the header. -/
def readLines : List (List (Located Item)) → Declare Unit
  | [] => return
  | [] :: lines => readLines lines
  | (head :: rest) :: lines => do
    readLine head rest
    readLines lines

/-- Reads the declarations of a program. Gives the session and the items put aside, and what was
reported on the way. -/
def readProgram (items : List (Located Item)) :
    Except (Located Error) (Session × List (Located Item)) × List Event :=
  match Item.lines items with
  | [] | [] :: _ => (.error (.nowhere (.unexpectedEnd "the header")), [])
  | (head :: rest) :: lines =>
    match readHeader head rest with
    | .error e => (.error e, [])
    | .ok type =>
      match readLines lines { session := { type }, events := #[.header type] } with
      | .error e s => (.error e, s.events.toList)
      | .ok () s =>
        let summary :=
          .declared s.session.pool.size s.session.slots.length s.deferred.size
        (.ok (s.session, s.deferred.toList), s.events.toList ++ [summary])

end Declaration

end StackAsm
