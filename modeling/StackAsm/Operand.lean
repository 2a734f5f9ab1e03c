import StackAsm.Contract
import StackAsm.Limit
import StackAsm.Text.Numeral

/-!
# Operands

An operand is a number or a reference. Under a contract it is either refused or brought into the
form in which it is written. Nothing is cut off on the way: what does not fit is refused.
-/

namespace StackAsm

/-- An operand whose value is known. -/
inductive Operand where
  /-- A number. -/
  | value (v : Int64)
  /-- A reference by distance. -/
  | distance (target : Target) (d : Int64)
  /-- A reference by index. -/
  | index (target : Target) (i : UInt8)
  deriving DecidableEq, Repr

/-- How an operand is shown. -/
def Operand.text : Operand → String
  | value v => Text.decimal v
  | distance target d => target.text ++ "(" ++ Text.signedDecimal d ++ ")"
  | index target i => target.text ++ "#" ++ toString i.toNat

/-- An operand as it is written. -/
inductive Encoded where
  | byte (b : UInt8)
  | number (n : UInt64)
  deriving DecidableEq, Repr

/-- The bytes of an operand. -/
def Encoded.bytes (w : Width) : Encoded → Bytes
  | byte b => [b]
  | number n => w.encode n

/-- Why a contract refuses an operand. -/
inductive OperandError where
  /-- The contract does not take operands of this kind. -/
  | incompatible (contract : Contract) (operand : Operand)
  /-- The value lies outside what the contract can hold. -/
  | outOfRange (contract : Contract) (v : Int64)
  deriving DecidableEq, Repr

/-- The wording of a refusal. -/
def OperandError.message : OperandError → String
  | incompatible contract operand =>
    "operand '" ++ operand.text ++ "' is not acceptable for a " ++ contract.name ++ " argument"
  | outOfRange contract v =>
    "value " ++ Text.decimal v ++ " is out of range for a " ++ contract.name ++ " argument"

namespace Contract

/-- Refuses a value outside `low` to `high`. -/
def checkRange (contract : Contract) (v : Int64) (low high : Int) : Except OperandError Unit :=
  if low ≤ v.toInt ∧ v.toInt ≤ high then .ok () else .error (.outOfRange contract v)

/-- Whether the contract takes a number, whatever the width. -/
def checkValue (contract : Contract) (v : Int64) : Except OperandError Unit :=
  match contract with
  | number | anything => .ok ()
  | byte => contract.checkRange v 0 255
  | slot => contract.checkRange v 0 Limit.slotIndex
  | external => contract.checkRange v 0 Limit.symbolIndex
  | _ => .error (.incompatible contract (.value v))

/-- Whether the contract, which takes references to the target, takes them by distance. -/
def checkDistance (contract : Contract) (target : Target) (d : Int64) :
    Except OperandError Unit :=
  match contract with
  | number | anything | label => .ok ()
  | byte => contract.checkRange d 0 255
  | forward => contract.checkRange d 1 Limit.shortLabel
  | backward => contract.checkRange d (-Limit.shortLabel) (-1)
  | _ => .error (.incompatible contract (.distance target d))

/-- Whether the contract takes an operand, whatever the width. -/
def check (contract : Contract) (operand : Operand) : Except OperandError Unit :=
  match operand with
  | .value v => contract.checkValue v
  | .distance target d =>
    if contract.accepts target then contract.checkDistance target d
    else .error (.incompatible contract operand)
  | .index target _ =>
    if contract.accepts target then .ok () else .error (.incompatible contract operand)

/-- The number or distance `v` as it is written at the width. -/
def encodeNumber (contract : Contract) (w : Width) (v : Int64) : Except OperandError Encoded :=
  if w.fitsValue v then .ok (.number v.toUInt64) else .error (.outOfRange contract v)

/-- The operand as it is written under the contract. A short label back is written as the positive
distance. -/
def normalize (contract : Contract) (w : Width) (operand : Operand) :
    Except OperandError Encoded := do
  contract.check operand
  match contract.form, operand with
  | .byte, .index _ i => return .byte i
  | .byte, .value v => return .byte v.toUInt64.toUInt8
  | .byte, .distance _ d =>
    if contract = .backward then return .byte (-d).toUInt64.toUInt8
    else return .byte d.toUInt64.toUInt8
  | .number, .index _ i => return .number i.toUInt64
  | .number, .value v | .number, .distance _ v => contract.encodeNumber w v

end Contract

end StackAsm
