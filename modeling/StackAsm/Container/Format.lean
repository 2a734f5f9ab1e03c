import StackAsm.Container

/-!
# The format of containers

The fixed parts of a written container: the magic bytes, the type tag and the flags.
-/

namespace StackAsm.Container

/-- The bytes every container starts with. -/
def magic : Bytes := [0xCA, 0xFE]

/-- The bytes every type tag starts with: `CW`. -/
def tagStart : Bytes := [0x43, 0x57]

/-- The last byte of the type tag: `X` or `L`. -/
def kindTag : ContainerKind → UInt8
  | .executable => 0x58
  | .library => 0x4C

/-- The kind of a last tag byte. -/
def kindOfTag? (b : UInt8) : Option ContainerKind :=
  if b = 0x58 then some .executable else if b = 0x4C then some .library else none

/-- The bit that repeats in the flags whether the container is a library. -/
def libraryBit : ContainerKind → UInt8
  | .executable => 0
  | .library => 1

/-- The flags of a type: the library bit, and above it the code of the width. -/
def typeFlags (type : ContainerType) : UInt8 := libraryBit type.kind + 2 * type.width.code

/-- The width in a byte of flags, which has no bit beyond those of a type. -/
def widthOfFlags? (flags : UInt8) : Option Width := Width.ofCode? (flags.toNat / 2)

/-- The bit of a slot byte that marks an optional module. -/
def optionalBit : UInt8 := 0x20

/-- The byte of a slot: its index, with the optional bit. -/
def slotByte (slot : Slot) : UInt8 :=
  if slot.optional then slot.index ||| optionalBit else slot.index

/-- The index in a slot byte. -/
def slotIndex (raw : UInt8) : UInt8 := raw &&& ~~~optionalBit

/-- Whether a slot byte marks an optional module. -/
def slotIsOptional (raw : UInt8) : Bool := raw &&& optionalBit != 0

end StackAsm.Container
