/-!
# Numerals

Reading and writing whole numbers in base ten and sixteen. A numeral is an optional sign followed
by digits; reading stops at the first character that is no digit or that carries the value out of
range, and says which of the two it was.
-/

namespace StackAsm.Text

/-- Why a numeral cannot be read. -/
inductive NumeralError where
  /-- There is no character at all. -/
  | empty
  /-- A character is no digit of the base, or there is a sign and nothing else. -/
  | badDigit
  /-- The value lies above the range. -/
  | tooLarge
  /-- The value lies below the range. -/
  | tooSmall
  deriving DecidableEq, Repr

/-- The wording of an unreadable numeral. -/
def NumeralError.message : NumeralError → String
  | .empty => "cannot parse integer from empty string"
  | .badDigit => "invalid digit found in string"
  | .tooLarge => "number too large to fit in target type"
  | .tooSmall => "number too small to fit in target type"

/-! ### Reading -/

/-- The value of a digit of the base, which is at most sixteen; both cases of a letter count. -/
def digitValue? (base : Nat) (c : Char) : Option Nat :=
  let value? :=
    if '0' ≤ c ∧ c ≤ '9' then some (c.toNat - '0'.toNat)
    else if 'a' ≤ c ∧ c ≤ 'f' then some (c.toNat - 'a'.toNat + 10)
    else if 'A' ≤ c ∧ c ≤ 'F' then some (c.toNat - 'A'.toNat + 10)
    else none
  value?.filter (· < base)

/-- Reads on from the value `n` of the digits so far; a value above `limit` is `excess`. -/
def readDigits (base limit : Nat) (excess : NumeralError) (n : Nat) :
    List Char → Except NumeralError Nat
  | [] => .ok n
  | c :: cs =>
    match digitValue? base c with
    | none => .error .badDigit
    | some d =>
      if n * base + d ≤ limit then readDigits base limit excess (n * base + d) cs
      else .error excess

/-- The largest signed number of 64 bits. -/
def maxInt64 : Nat := 0x7FFFFFFFFFFFFFFF

/-- The largest unsigned number of 32 bits. -/
def maxUInt32 : Nat := 0xFFFFFFFF

/-- Reads a signed number of 64 bits. -/
def readInt64 (base : Nat) (s : String) : Except NumeralError Int64 :=
  match s.toList with
  | [] => .error .empty
  | ['+'] => .error .badDigit
  | ['-'] => .error .badDigit
  | '-' :: cs => (readDigits base (maxInt64 + 1) .tooSmall 0 cs).map fun n => Int64.ofInt (-n)
  | '+' :: cs => (readDigits base maxInt64 .tooLarge 0 cs).map Int64.ofNat
  | cs => (readDigits base maxInt64 .tooLarge 0 cs).map Int64.ofNat

/-- Reads an unsigned number of 32 bits; only a plus sign may stand in front of it. -/
def readNat32 (base : Nat) (s : String) : Except NumeralError Nat :=
  match s.toList with
  | [] => .error .empty
  | ['+'] => .error .badDigit
  | '+' :: cs => readDigits base maxUInt32 .tooLarge 0 cs
  | cs => readDigits base maxUInt32 .tooLarge 0 cs

/-- Reads a decimal number of 64 bits. -/
def readDecimal (s : String) : Except NumeralError Int64 := readInt64 10 s

/-- Reads a hexadecimal number of 32 bits, none of which is a sign. -/
def readHex (s : String) : Except NumeralError Int64 := (readNat32 16 s).map Int64.ofNat

/-! ### Writing -/

/-- The decimal numeral of a number of 64 bits. -/
def decimal (n : Int64) : String := toString n.toInt

/-- The decimal numeral with its sign, also where that is a plus. -/
def signedDecimal (n : Int64) : String :=
  if n.toInt < 0 then decimal n else "+" ++ decimal n

/-- Fills a text up to a length from the left. -/
def padLeft (fill : Char) (length : Nat) (s : String) : String :=
  String.ofList (List.replicate (length - s.length) fill) ++ s

/-- The hexadecimal numeral with small letters. -/
def hexLower (n : Nat) : String := String.ofList (Nat.toDigits 16 n)

/-- The hexadecimal numeral with capital letters, of at least `length` digits. -/
def hexUpper (length n : Nat) : String :=
  padLeft '0' length (String.ofList ((Nat.toDigits 16 n).map Char.toUpper))

/-- A byte as two hexadecimal digits. -/
def hexByte (b : UInt8) : String := hexUpper 2 b.toNat

end StackAsm.Text
