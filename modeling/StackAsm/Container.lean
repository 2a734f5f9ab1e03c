import StackAsm.Width

/-!
# Containers

What the assembler makes: an executable or a library of one width, with its metadata, the modules
it needs, its constants and its symbols.
-/

namespace StackAsm

/-- What a container is for. -/
inductive ContainerKind where
  | executable
  | library
  deriving DecidableEq, Repr

/-- How a kind is shown. -/
def ContainerKind.text : ContainerKind → String
  | executable => "executable"
  | library => "library"

/-- The kind and the width of a container. -/
structure ContainerType where
  kind : ContainerKind
  width : Width
  deriving DecidableEq, Repr

/-- How a type is shown. -/
def ContainerType.text (type : ContainerType) : String :=
  type.width.text ++ " " ++ type.kind.text

/-- Three bytes, such as the parts of a version. -/
structure Triple where
  first : UInt8 := 0
  second : UInt8 := 0
  third : UInt8 := 0
  deriving DecidableEq, Repr

/-- The bytes in their order. -/
def Triple.toList (t : Triple) : Bytes := [t.first, t.second, t.third]

/-- What a container says about itself. -/
structure Metadata where
  title : String := ""
  description : String := ""
  author : String := ""
  /-- The version of the program. -/
  version : Triple := {}
  /-- The version of the machine it needs. -/
  runtime : Triple := {}
  /-- The resources it needs. -/
  resources : Triple := {}
  deriving DecidableEq, Repr

/-- A slot into which another module is loaded. -/
structure Slot where
  /-- The name of the module. -/
  name : String
  /-- The index of the slot. -/
  index : UInt8
  /-- Whether the module may be missing. -/
  optional : Bool
  deriving DecidableEq, Repr

/-- A symbol with its code. -/
structure SymbolEntry where
  /-- The name, where it is known; it is not written. -/
  name : Option String
  /-- The index. -/
  index : UInt8
  /-- The code. -/
  body : Bytes
  deriving DecidableEq, Repr

/-- An executable or a library. -/
structure Container where
  type : ContainerType
  metadata : Metadata
  slots : List Slot
  constants : List Bytes
  symbols : List SymbolEntry
  deriving DecidableEq, Repr

/-- The first symbol of a name. -/
def Container.symbol? (c : Container) (name : String) : Option SymbolEntry :=
  c.symbols.find? (·.name == some name)

end StackAsm
