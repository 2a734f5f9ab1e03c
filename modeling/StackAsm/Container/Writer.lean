import StackAsm.Container.Format
import StackAsm.ErrorClass
import StackAsm.Limit

/-!
# Writing containers

A container is written field by field into a sink, and before a field come its checks. The writing
stops at the first check that fails, so a sink may be left with the beginning of a container. A sink
may be bounded; then the bytes that no longer fit are cut and the writing fails.

A sink is what it holds and the room that it has left, and to be full is its only failure. An output
that fails for another reason, or later accepts what it has refused, is left out.
-/

namespace StackAsm.Container

/-- Why a container cannot be written. -/
inductive WriteError where
  /-- The sink is full. -/
  | sinkFull
  | tooManySlots (n : Nat)
  | slotIndexOutOfRange (index : UInt8)
  | moduleNameTooLong (name : String)
  | tooManyConstants (n : Nat)
  | tooManySymbols (n : Nat)
  | symbolIndexOutOfRange (index : UInt8)
  /-- The length of the named part does not fit the width. -/
  | tooLong (what : String) (length : Nat)
  /-- The named part holds a character beyond ASCII. -/
  | notAscii (what : String)
  deriving DecidableEq, Repr

/-- The class of a failure. -/
def WriteError.errorClass : WriteError → ErrorClass
  | sinkFull => .io
  | slotIndexOutOfRange _ | symbolIndexOutOfRange _ => .reference
  | notAscii _ => .argument
  | _ => .capacity

/-- The wording of a failure. -/
def WriteError.message : WriteError → String
  | sinkFull => "failed to write whole buffer"
  | tooManySlots n =>
    "Too many module slots (" ++ toString n ++ ", at most " ++ toString Limit.slots ++ ")"
  | slotIndexOutOfRange index =>
    "Module slot index " ++ toString index.toNat ++ " is out of range (0-" ++
      toString Limit.slotIndex ++ ")"
  | moduleNameTooLong name =>
    "Module name '" ++ name ++ "' is longer than " ++ toString Limit.moduleName ++ " characters"
  | tooManyConstants n =>
    "Too many constants (" ++ toString n ++ ", at most " ++ toString Limit.constants ++ ")"
  | tooManySymbols n =>
    "Too many symbols (" ++ toString n ++ ", at most " ++ toString Limit.symbols ++ ")"
  | symbolIndexOutOfRange index =>
    "Symbol index " ++ toString index.toNat ++ " is out of range (0-" ++
      toString Limit.symbolIndex ++ ")"
  | tooLong what length =>
    "The " ++ what ++ " is too long (" ++ toString length ++ " bytes) for the container width"
  | notAscii what => "The " ++ what ++ " must be plain ASCII"

/-! ### Sinks -/

/-- What bytes are written into. -/
structure Sink where
  /-- What was put into it, the latest first. -/
  pieces : List Bytes := []
  /-- The number of bytes that still fit, if it is bounded. -/
  room : Option Nat := none
  deriving DecidableEq, Repr

/-- The bytes in a sink. -/
def Sink.bytes (sink : Sink) : Bytes := sink.pieces.reverse.flatten

/-- Writes something. What is in the sink remains there if it fails. -/
abbrev Write := EStateM WriteError Sink Unit

/-- Puts bytes into the sink, as many as fit. -/
def put (bytes : Bytes) : Write := fun sink =>
  match sink.room with
  | none => .ok () ⟨bytes :: sink.pieces, none⟩
  | some n =>
    let sink := ⟨bytes.take n :: sink.pieces, some (n - bytes.length)⟩
    if bytes.length ≤ n then .ok () sink else .error .sinkFull sink

/-- Fails unless something holds. -/
def check (holds : Bool) (e : WriteError) : Write := if holds then pure () else throw e

/-! ### Fields -/

/-- The length of some bytes and the bytes themselves. -/
def writeBlob (w : Width) (what : String) (bytes : Bytes) : Write := do
  check (w.fitsLength bytes.length) (.tooLong what bytes.length)
  put (w.encode (UInt64.ofNat bytes.length))
  put bytes

/-- Whether a text is plain ASCII. -/
def isAscii (s : String) : Bool := s.toList.all (·.toNat < 128)

/-- The bytes of a plain ASCII text. -/
def asciiBytes (s : String) : Bytes := s.toList.map fun c => UInt8.ofNat c.toNat

/-- The length of a plain text and the text itself. -/
def writeText (w : Width) (what : String) (s : String) : Write := do
  check (isAscii s) (.notAscii what)
  writeBlob w what (asciiBytes s)

/-- The number of entries of a table, as a byte. -/
def writeCount (n limit : Nat) (e : Nat → WriteError) : Write := do
  check (n ≤ limit) (e n)
  put [UInt8.ofNat n]

/-! ### Parts -/

/-- The type of a container. -/
def writeType (type : ContainerType) : Write := do
  put magic
  put tagStart
  put [kindTag type.kind]
  put [typeFlags type]

/-- What a container says about itself. -/
def writeMetadata (w : Width) (m : Metadata) : Write := do
  writeText w "title" m.title
  writeText w "description" m.description
  writeText w "author" m.author
  put m.version.toList
  put m.runtime.toList
  put m.resources.toList

/-- A slot. -/
def writeSlot (w : Width) (slot : Slot) : Write := do
  check (slot.index.toNat ≤ Limit.slotIndex) (.slotIndexOutOfRange slot.index)
  check (slot.name.utf8ByteSize ≤ Limit.moduleName) (.moduleNameTooLong slot.name)
  put [slotByte slot]
  writeText w "module name" slot.name

/-- A symbol. Its name is not written. -/
def writeSymbol (w : Width) (symbol : SymbolEntry) : Write := do
  check (symbol.index.toNat ≤ Limit.symbolIndex) (.symbolIndexOutOfRange symbol.index)
  put [symbol.index]
  writeBlob w "symbol body" symbol.body

/-- A container. -/
def writeParts (c : Container) : Write := do
  writeType c.type
  writeMetadata c.type.width c.metadata
  writeCount c.slots.length Limit.slots .tooManySlots
  c.slots.forM (writeSlot c.type.width)
  writeCount c.constants.length Limit.constants .tooManyConstants
  c.constants.forM (writeBlob c.type.width "constant")
  writeCount c.symbols.length Limit.symbols .tooManySymbols
  c.symbols.forM (writeSymbol c.type.width)

/-! ### Containers -/

/-- What is left in a sink, and why the writing stopped early, if it did. -/
structure Written where
  /-- The bytes in the sink. -/
  bytes : Bytes
  /-- Why the writing stopped early. -/
  failure : Option WriteError
  deriving DecidableEq, Repr

/-- What is left by writing into a sink. -/
def leaves (write : Write) (sink : Sink) : Written :=
  match write sink with
  | .ok () sink => ⟨sink.bytes, none⟩
  | .error e sink => ⟨sink.bytes, some e⟩

/-- Writes a container into an empty sink, which holds at most `limit` bytes if one is given. -/
def writeTo (limit : Option Nat) (c : Container) : Written :=
  leaves (writeParts c) { room := limit }

/-- The bytes of a container. -/
def toBytes (c : Container) : Except WriteError Bytes :=
  let written := c.writeTo none
  match written.failure with
  | some e => .error e
  | none => .ok written.bytes

end StackAsm.Container
