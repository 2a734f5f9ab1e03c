import StackAsm.Container.Format
import StackAsm.Limit
import StackAsm.Text.Numeral

/-!
# Reading containers

A container is read field by field from the front of its bytes, and all of them have to be used up.

All bytes are there before the first is read. A reader has the bytes that are left instead of a
position, which is their number short of all.
-/

namespace StackAsm

/-- Why bytes are no container, or no code. -/
inductive ReadError where
  | badMagic
  | badTypeTag (tag : Triple)
  | badFlags (flags : UInt8)
  /-- The bytes end inside the named part. -/
  | truncated (what : String)
  /-- The named part holds a byte beyond ASCII. -/
  | notAscii (what : String)
  | badSlot (raw : UInt8)
  | tooManySlots (n : UInt8)
  | badSymbolIndex (index : UInt8)
  /-- Bytes are left over. -/
  | trailingBytes (n : Nat)
  /-- No instruction has this opcode. -/
  | unknownOpcode (opcode : UInt8) (offset : Nat)
  deriving DecidableEq, Repr

/-- The wording of an error. -/
def ReadError.message : ReadError → String
  | badMagic => "Not a CW container (bad magic)"
  | badTypeTag tag =>
    "Bad type tag [" ++ String.intercalate ", " (tag.toList.map Text.hexByte) ++ "]"
  | badFlags flags => "Bad type flags 0x" ++ Text.hexByte flags
  | truncated what => "Unexpectedly encountered end of stream in the " ++ what
  | notAscii what => "The " ++ what ++ " is not ASCII"
  | badSlot raw => "Bad module slot byte 0x" ++ Text.hexByte raw
  | tooManySlots n =>
    "Too many module slots (" ++ toString n.toNat ++ ", at most " ++ toString Limit.slots ++ ")"
  | badSymbolIndex index =>
    "Symbol index " ++ toString index.toNat ++ " is out of range (0-" ++
      toString Limit.symbolIndex ++ ")"
  | trailingBytes n => toString n ++ " trailing byte(s) after the symbol table"
  | unknownOpcode opcode offset =>
    "Invalid opcode $" ++ Text.hexByte opcode ++ " at offset " ++ toString offset

/-- Reads a value from the front of some bytes and leaves the rest. -/
abbrev Reader := StateT Bytes (Except ReadError)

namespace Container

/-! ### Fields -/

/-- The next `n` bytes, which belong to the named part. -/
def readBytes (what : String) (n : Nat) : Reader Bytes := fun bs =>
  let front := bs.take n
  if front.length = n then .ok (front, bs.drop n) else .error (.truncated what)

/-- The next byte. -/
def readByte (what : String) : Reader UInt8
  | b :: bs => .ok (b, bs)
  | [] => .error (.truncated what)

/-- The next three bytes. -/
def readTriple (what : String) : Reader Triple
  | a :: b :: c :: bs => .ok (⟨a, b, c⟩, bs)
  | _ => .error (.truncated what)

/-- The next number at the width. -/
def readNumber (w : Width) (what : String) : Reader UInt64 := do
  let bytes ← readBytes what w.bytes
  match w.decode bytes with
  | some n => return n
  | none => throw (.truncated what)

/-- A length, and as many bytes. -/
def readBlob (w : Width) (what : String) : Reader Bytes := do
  let length ← readNumber w what
  readBytes what length.toNat

/-- A length, and as many characters of plain ASCII. -/
def readText (w : Width) (what : String) : Reader String := do
  let bytes ← readBlob w what
  if bytes.all (· < 128) then return String.ofList (bytes.map fun b => Char.ofNat b.toNat)
  else throw (.notAscii what)

/-- As many values as said, one after the other. -/
def readMany {α : Type} (read : Reader α) : Nat → Reader (List α)
  | 0 => return []
  | n + 1 => do
    let x ← read
    let xs ← readMany read n
    return x :: xs

/-! ### Parts -/

/-- The type of a container. -/
def readType : Reader ContainerType := do
  if (← readBytes "magic" magic.length) ≠ magic then throw .badMagic
  let tag ← readTriple "type tag"
  if [tag.first, tag.second] ≠ tagStart then throw (.badTypeTag tag)
  match kindOfTag? tag.third with
  | none => throw (.badTypeTag tag)
  | some kind =>
    let flags ← readByte "type flags"
    match widthOfFlags? flags with
    | none => throw (.badFlags flags)
    | some width =>
      -- The flags repeat what the tag says about the kind.
      if flags = typeFlags ⟨kind, width⟩ then return ⟨kind, width⟩ else throw (.badFlags flags)

/-- What a container says about itself. -/
def readMetadata (w : Width) : Reader Metadata := do
  let title ← readText w "title"
  let description ← readText w "description"
  let author ← readText w "author"
  let version ← readTriple "version"
  let runtime ← readTriple "runtime version"
  let resources ← readTriple "resource sizes"
  return { title, description, author, version, runtime, resources }

/-- A slot. -/
def readSlot (w : Width) : Reader Slot := do
  let raw ← readByte "slot table"
  let index := slotIndex raw
  if Limit.slotIndex < index.toNat then throw (.badSlot raw)
  let name ← readText w "module name"
  return { name, index, optional := slotIsOptional raw }

/-- The slots. -/
def readSlots (w : Width) : Reader (List Slot) := do
  let count ← readByte "slot table"
  if Limit.slots < count.toNat then throw (.tooManySlots count)
  readMany (readSlot w) count.toNat

/-- The constants. -/
def readConstants (w : Width) : Reader (List Bytes) := do
  let count ← readByte "constant table"
  readMany (readBlob w "constant table") count.toNat

/-- A symbol, which has no name. -/
def readSymbol (w : Width) : Reader SymbolEntry := do
  let index ← readByte "symbol table"
  if Limit.symbolIndex < index.toNat then throw (.badSymbolIndex index)
  let body ← readBlob w "symbol table"
  return { name := none, index, body }

/-- The symbols. -/
def readSymbols (w : Width) : Reader (List SymbolEntry) := do
  let count ← readByte "symbol table"
  readMany (readSymbol w) count.toNat

/-- A container, and whatever follows it. -/
def readParts : Reader Container := do
  let type ← readType
  let metadata ← readMetadata type.width
  let slots ← readSlots type.width
  let constants ← readConstants type.width
  let symbols ← readSymbols type.width
  return { type, metadata, slots, constants, symbols }

/-- The container that is written as these bytes. -/
def ofBytes (bs : Bytes) : Except ReadError Container := do
  let (container, rest) ← readParts bs
  if rest = [] then return container else throw (.trailingBytes rest.length)

end Container

end StackAsm
