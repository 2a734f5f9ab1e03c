/-!
# Widths

A container is assembled at one of four widths. Numbers and lengths are written as that many bits,
least significant byte first.

A number is a word of 64 bits whatever the width, and the width is a mask on it: the bits above are
dropped when it is written and are zero when it is read. No word is shifted by 64, so the largest
width has cases of its own. That all this is arithmetic modulo a power of two is proved, not assumed
here.
-/

namespace StackAsm

/-- A sequence of bytes. -/
abbrev Bytes := List UInt8

/-- The size of the numbers in a container. -/
inductive Width where
  /-- One byte. -/
  | w8
  /-- Two bytes. -/
  | w16
  /-- Four bytes. -/
  | w32
  /-- Eight bytes. -/
  | w64
  deriving DecidableEq, Repr

namespace Width

/-- The number of bits. -/
def bits : Width → Nat
  | w8 => 8
  | w16 => 16
  | w32 => 32
  | w64 => 64

/-- The number of bytes. -/
def bytes : Width → Nat
  | w8 => 1
  | w16 => 2
  | w32 => 4
  | w64 => 8

/-- The two-bit code under which a container records its width. -/
def code : Width → UInt8
  | w8 => 0
  | w16 => 1
  | w32 => 2
  | w64 => 3

/-- The width of a code. -/
def ofCode? (code : Nat) : Option Width :=
  match code with
  | 0 => some w8
  | 1 => some w16
  | 2 => some w32
  | 3 => some w64
  | _ => none

/-- The width of a number of bits. -/
def ofBits? (bits : Int64) : Option Width :=
  if bits = 8 then some w8
  else if bits = 16 then some w16
  else if bits = 32 then some w32
  else if bits = 64 then some w64
  else none

/-- How a width is shown. -/
def text : Width → String
  | w8 => "8-bit"
  | w16 => "16-bit"
  | w32 => "32-bit"
  | w64 => "64-bit"

/-! ### Ranges -/

/-- The largest unsigned number of the width. -/
def maxUnsigned (w : Width) : UInt64 :=
  match w with
  | w64 => ~~~0 -- a number cannot be shifted by all of its bits
  | _ => (1 <<< UInt64.ofNat w.bits) - 1

/-- Whether a length can be written at the width. -/
def fitsLength (w : Width) (length : Nat) : Bool :=
  length < UInt64.size && UInt64.ofNat length ≤ w.maxUnsigned

/-- Whether a number can be written at the width, as a signed or as an unsigned quantity. -/
def fitsValue (w : Width) (v : Int64) : Bool :=
  match w with
  | w64 => true
  | _ => -(1 <<< Int64.ofNat (w.bits - 1)) ≤ v && v ≤ w.maxUnsigned.toInt64

/-- The number without the bits above the width. -/
def mask (w : Width) (v : UInt64) : UInt64 := v &&& w.maxUnsigned

/-! ### Bytes -/

/-- The bytes of a number, least significant first. -/
def littleEndian (v : UInt64) : Bytes :=
  (List.range 8).map fun i => (v >>> UInt64.ofNat (8 * i)).toUInt8

/-- The number whose bytes these are, least significant first. -/
def ofLittleEndian (bs : Bytes) : UInt64 := bs.foldr (fun b v => v <<< 8 ||| b.toUInt64) 0

/-- A number written at the width, its high bits dropped. -/
def encode (w : Width) (v : UInt64) : Bytes := (littleEndian (w.mask v)).take w.bytes

/-- The number at the front of the bytes, if there are enough of them. The bytes that the width
lacks are zero. -/
def decode (w : Width) (bs : Bytes) : Option UInt64 :=
  if w.bytes ≤ bs.length then
    some (ofLittleEndian (bs.take w.bytes ++ List.replicate (8 - w.bytes) 0))
  else none

end Width

/-- Whether a number is a byte. -/
def fitsByte (v : Int64) : Bool := 0 ≤ v.toInt && v.toInt ≤ 255

end StackAsm
