import StackAsm.Command.Terminal
import StackAsm.Listing

/-!
# Dumping a container

All that a container holds, as text. The code of a symbol is listed with the instructions of the
machine; where that fails, because it uses others, its bytes are shown.
-/

namespace StackAsm.Command

/-- Bytes in hexadecimal, with blanks between them. -/
def hexText (bytes : Bytes) : String := String.intercalate " " (bytes.map Text.hexByte)

/-- A line with a label in colour. -/
def labelled (label rest : String) : String := paint .yellow label ++ " " ++ rest

/-- A number, right-aligned. -/
def aligned (width n : Nat) : String := Text.padLeft ' ' width (toString n)

/-- Three numbers with dots between them. -/
def versionText (t : Triple) : String :=
  String.intercalate "." (t.toList.map fun b => toString b.toNat)

/-- The lines on what a container says about itself. -/
def metadataLines (c : Container) : List String :=
  let m := c.metadata
  [labelled "type:" c.type.text,
    labelled "title:" (Text.quoted m.title),
    labelled "description:" (Text.quoted m.description),
    labelled "author:" (Text.quoted m.author),
    labelled "version:" (versionText m.version),
    labelled "runtime:" (versionText m.runtime),
    labelled "resources:"
      ("stack " ++ toString m.resources.first.toNat ++ ", pool " ++
        toString m.resources.second.toNat ++ ", locals " ++ toString m.resources.third.toNat)]

/-- The head of a table. -/
def tableLine (label : String) (size : Nat) : String :=
  labelled label ("(" ++ toString size ++ ")")

/-- The line of a slot. -/
def slotLine (slot : Slot) : String :=
  "  " ++ aligned 2 slot.index.toNat ++ ": " ++ slot.name ++
    (if slot.optional then " (optional)" else "")

/-- The line of a constant. -/
def constantLine (constant : Bytes × Nat) : String :=
  "  " ++ aligned 3 constant.2 ++ ": " ++ hexText constant.1

/-- The lines of a symbol, and what is reported of it. -/
def symbolLines (w : Width) (symbol : SymbolEntry) : List String × List Event :=
  let head := "  #" ++ toString symbol.index.toNat ++ " (" ++ toString symbol.body.length ++
    " bytes)"
  match Listing.ofBody .native w symbol.body with
  | .ok lines =>
    (head :: lines.map fun line => "    " ++ Text.hexUpper 4 line.offset ++ "  " ++ line.text, [])
  | .error e =>
    ([head, "    " ++ hexText symbol.body], [.unreadableBody symbol.index e.message])

/-- The lines of a container, and what is reported of it. -/
def containerLines (c : Container) : List String × List Event :=
  let symbols := c.symbols.map (symbolLines c.type.width)
  (metadataLines c ++
      tableLine "slots" c.slots.length :: c.slots.map slotLine ++
      tableLine "constants" c.constants.length :: c.constants.zipIdx.map constantLine ++
      tableLine "symbols" c.symbols.length :: symbols.flatMap (·.1),
    symbols.flatMap (·.2))

/-- Dumps a container. -/
def dump (verbosity : UInt8) (disk : Disk) (input : String) : Outcome :=
  let fail (status : Nat) (reason : String) : Outcome :=
    ⟨status, "", linesText [paint .red "error" ++ ": " ++ reason], disk⟩
  match disk.read input with
  | .error e => fail fileFailure ("could not read '" ++ input ++ "': " ++ e.message)
  | .ok bytes =>
    match Container.ofBytes bytes with
    | .error e => fail failure ("'" ++ input ++ "' is malformed: " ++ e.message)
    | .ok container =>
      let (lines, events) := containerLines container
      ⟨success, linesText lines, logText verbosity events, disk⟩

end StackAsm.Command
