import StackAsm.Constant
import StackAsm.Container
import StackAsm.Instruction
import StackAsm.Item
import StackAsm.Text.Hanging

/-!
# Events

What the assembler reports about its work, besides its result. Every event has a level, the part of
the assembler it comes from, and a message.
-/

namespace StackAsm

/-- How important an event is, from the most to the least. -/
inductive Level where
  | warn
  | info
  | debug
  | trace
  deriving DecidableEq, Repr

/-- The rank of a level; more detailed levels rank higher. -/
def Level.rank : Level → Nat
  | warn => 0
  | info => 1
  | debug => 2
  | trace => 3

/-- A level as it heads a line of the log. -/
def Level.label : Level → String
  | warn => "WARN "
  | info => "INFO "
  | debug => "DEBUG"
  | trace => "TRACE"

/-- Something worth a report. -/
inductive Event where
  /-- A source file was loaded. -/
  | loading (name : String) (file : Nat)
  /-- A directive to the preprocessor was met. -/
  | preDirective (name : String) (loc : Option Location)
  /-- A constant got another value. -/
  | redefinition (name : String) (old new : Constant)
  /-- A constant was removed that was not there. -/
  | undefinedRemoval (name : String)
  /-- A source was expanded. -/
  | expanded (files items : Nat)
  /-- An expression was evaluated. -/
  | folded (value : Constant)
  /-- The header was read. -/
  | header (type : ContainerType)
  /-- A declaration was met. -/
  | declaration (name : String)
  /-- A constant was declared. -/
  | constantDeclared (kind : ConstantKind) (name : String) (index : UInt8)
  /-- A text of the metadata is empty. -/
  | emptyText (what : String)
  /-- A text of the metadata was set before. -/
  | repeatedText (what : String)
  /-- A module was declared. -/
  | slotDeclared (name : String) (index : UInt8)
  /-- An instruction was added. -/
  | extended (instruction : Instruction)
  /-- All declarations were read. -/
  | declared (constants slots deferred : Nat)
  /-- A symbol was opened. -/
  | symbolOpened (name : String) (fixed : Option UInt8)
  /-- An instruction was placed. -/
  | placed (mnemonic symbol : String) (offset : Nat)
  /-- All code was placed. -/
  | laidOut (symbols : Nat)
  /-- A symbol got its index and its bytes. -/
  | linked (symbol : String) (index : UInt8) (size : Nat)
  /-- A container was written to memory. -/
  | serialized (size : Nat)
  /-- A container was written to a file. -/
  | stored (size : Nat) (path : String)
  /-- The code of a symbol cannot be listed. -/
  | unreadableBody (index : UInt8) (reason : String)
  deriving DecidableEq, Repr

namespace Event

/-- The level of an event. -/
def level : Event → Level
  | redefinition _ _ _ | undefinedRemoval _ | emptyText _ | repeatedText _ | unreadableBody _ _ =>
    .warn
  | header _ | stored _ _ => .info
  | preDirective _ _ | folded _ | declaration _ | placed _ _ _ => .trace
  | _ => .debug

/-- Where an event comes from, as the log names it. -/
def origin : Event → String
  | loading _ _ | preDirective _ _ | redefinition _ _ _ | undefinedRemoval _ | expanded _ _ =>
    "cwasm::assembler::phases::preprocess"
  | folded _ => "cwasm::assembler::phases::expr"
  | header _ | declaration _ | constantDeclared _ _ _ | emptyText _ | repeatedText _
  | slotDeclared _ _ | declared _ _ _ => "cwasm::assembler::phases::precompile"
  | extended _ => "cwasm::assembler::lang"
  | symbolOpened _ _ | placed _ _ _ | laidOut _ => "cwasm::assembler::phases::compile"
  | linked _ _ _ => "cwasm::assembler::phases::resolve"
  | serialized _ => "cwasm::assembler::phases::serialize"
  | stored _ _ | unreadableBody _ _ => "cwasm::cli::command"

/-- How the log shows a location. -/
def showLocation? : Option Location → String
  | none => "None"
  | some loc =>
    "Some(Loc \x7b file: " ++ toString loc.file ++ ", line: " ++ toString loc.line ++ ", col: " ++
      toString loc.column ++ " \x7d)"

/-- How the log shows an index. -/
def showIndex? : Option UInt8 → String
  | none => "None"
  | some index => "Some(" ++ toString index.toNat ++ ")"

/-- The wording of an event. -/
def message : Event → String
  | loading name file => "preprocessing '" ++ name ++ "' (file " ++ toString file ++ ")"
  | preDirective name loc => "directive #" ++ name ++ " at " ++ showLocation? loc
  | redefinition name old new =>
    "redefining '" ++ name ++ "' (was " ++ old.shown ++ ") as " ++ new.shown
  | undefinedRemoval name => "'#undef " ++ name ++ "' of a name that is not defined"
  | expanded files items =>
    "preprocessed " ++ toString files ++ " file(s) into " ++ toString items ++ " items"
  | folded value => "folded expression to " ++ value.shown
  | header type => "assembling a " ++ type.text
  | declaration name => "first pass directive " ++ name
  | constantDeclared kind name index =>
    kind.text ++ " constant '" ++ name ++ "' is entry " ++ toString index.toNat
  | emptyText what => "empty " ++ what ++ " string"
  | repeatedText what => what ++ " set more than once, keeping the last"
  | slotDeclared name index => "module '" ++ name ++ "' bound to slot " ++ toString index.toNat
  | extended instruction => "registered extended instruction " ++ instruction.text
  | declared constants slots deferred =>
    "first pass: " ++ toString constants ++ " constant(s), " ++ toString slots ++ " slot(s), " ++
      toString deferred ++ " deferred item(s)"
  | symbolOpened name fixed => "symbol '" ++ name ++ "' (fixed index: " ++ showIndex? fixed ++ ")"
  | placed mnemonic symbol offset => mnemonic ++ " at " ++ symbol ++ "+" ++ toString offset
  | laidOut symbols => "second pass: " ++ toString symbols ++ " symbol(s)"
  | linked symbol index size =>
    "symbol '" ++ symbol ++ "' -> index " ++ toString index.toNat ++ ", " ++ toString size ++
      " byte(s)"
  | serialized size => "serialized " ++ toString size ++ " byte(s)"
  | stored size path => "wrote " ++ toString size ++ " byte(s) to '" ++ path ++ "'"
  | unreadableBody index reason => "symbol #" ++ toString index.toNat ++ ": " ++ reason

/-- The indentation of the log below the first line of a message. -/
def logIndent : String := "    "

/-- What the log says of an event: a line, or several if the message holds line feeds. -/
def logLine (event : Event) : String :=
  "[" ++ event.level.label ++ " " ++ event.origin ++ "] " ++
    Text.hanging logIndent event.message

end Event

end StackAsm
