import StackAsm.Container.Reader
import StackAsm.InstructionSet

/-!
# Listings

The code of a symbol is a sequence of instructions, each an opcode followed by its operands. A
listing gives them back with their offsets.

Code is read as a container is, and the next instruction stands where the reading of the operands
has come to. The listing does not know which operands are references: they are given as the unsigned
numbers that stand there.
-/

namespace StackAsm

/-- An instruction in the code of a symbol. -/
structure ListingLine where
  /-- Where the instruction starts. -/
  offset : Nat
  /-- The instruction. -/
  instruction : Instruction
  /-- The operands as unsigned numbers. -/
  arguments : List UInt64
  deriving DecidableEq, Repr

/-- How an operand is shown under its contract. -/
def Contract.showArgument (contract : Contract) (raw : UInt64) : String :=
  let n := toString raw.toNat
  match contract with
  | .backward => "-" ++ n
  | .forward => "+" ++ n
  | .number | .label | .anything | .byte => n
  | _ => contract.name ++ "#" ++ n

/-- How a line of a listing is shown. -/
def ListingLine.text (line : ListingLine) : String :=
  let shown := line.instruction.contracts.zipWith Contract.showArgument line.arguments
  line.instruction.name ++
    (if shown.isEmpty then "" else " " ++ String.intercalate ", " shown)

namespace Listing

/-- The next operand, in the form of its contract. -/
def readArgument (w : Width) (contract : Contract) : Reader UInt64 :=
  match contract.form with
  | .byte => return (← Container.readByte "symbol body").toUInt64
  | .number => Container.readNumber w "symbol body"

/-- The next operands. -/
def readArguments (w : Width) : List Contract → Reader (List UInt64)
  | [] => return []
  | contract :: contracts => do
    let argument ← readArgument w contract
    let arguments ← readArguments w contracts
    return argument :: arguments

/-- The next instruction, which starts at `offset`. -/
def readLine (set : InstructionSet) (w : Width) (offset : Nat) : Reader ListingLine := do
  let opcode ← Container.readByte "symbol body"
  match set.withOpcode? opcode with
  | none => throw (.unknownOpcode opcode offset)
  | some instruction =>
    let arguments ← readArguments w instruction.contracts
    return { offset, instruction, arguments }

/-! ### What is left

Every instruction takes at least a byte, so a body has an end. -/

/-- The reader takes at least `n` bytes. -/
def Takes {α : Type} (n : Nat) (read : Reader α) : Prop :=
  ∀ ⦃bs x rest⦄, read bs = .ok (x, rest) → rest.length + n ≤ bs.length

theorem takes_pure {α : Type} (x : α) : Takes 0 (pure x : Reader α) := by
  intro bs y rest h
  cases h
  exact Nat.le_refl _

theorem takes_throw {α : Type} (n : Nat) (e : ReadError) : Takes n (throw e : Reader α) := by
  intro bs x rest h
  cases h

theorem Takes.mono {α : Type} {m n : Nat} {read : Reader α} (h : Takes n read) (hle : m ≤ n) :
    Takes m read := by
  intro bs x rest hread
  have := h hread
  omega

theorem Takes.bind {α β : Type} {m n : Nat} {read : Reader α} {next : α → Reader β}
    (h : Takes m read) (h' : ∀ x, Takes n (next x)) : Takes (m + n) (read >>= next) := by
  intro bs y rest hread
  simp only [Bind.bind, StateT.bind, Except.bind] at hread
  split at hread
  · cases hread
  · next p hp =>
    have hfirst := h hp
    have hnext := h' _ hread
    omega

theorem takes_bytes (what : String) (n : Nat) : Takes n (Container.readBytes what n) := by
  intro bs x rest h
  unfold Container.readBytes at h
  dsimp only at h
  split at h <;> cases h
  next hlength =>
  rw [List.length_take] at hlength
  rw [List.length_drop]
  omega

theorem takes_byte (what : String) : Takes 1 (Container.readByte what) := by
  intro bs b rest h
  cases bs <;> cases h
  exact Nat.le_refl _

theorem takes_argument (w : Width) (contract : Contract) : Takes 0 (readArgument w contract) := by
  unfold readArgument
  cases contract.form with
  | byte => exact ((takes_byte _).bind fun _ => takes_pure _).mono (Nat.zero_le _)
  | number =>
    refine ((takes_bytes _ w.bytes).bind fun bytes => ?_).mono (Nat.zero_le (w.bytes + 0))
    cases w.decode bytes with
    | none => exact takes_throw 0 _
    | some n => exact takes_pure n

theorem takes_arguments (w : Width) (contracts : List Contract) :
    Takes 0 (readArguments w contracts) := by
  induction contracts with
  | nil => exact takes_pure []
  | cons contract contracts ih =>
    exact (takes_argument w contract).bind fun _ => ih.bind fun _ => takes_pure _

theorem takes_line (set : InstructionSet) (w : Width) (offset : Nat) :
    Takes 1 (readLine set w offset) := by
  refine Takes.bind (n := 0) (takes_byte _) fun opcode => ?_
  cases set.withOpcode? opcode with
  | none => exact takes_throw 0 _
  | some i => exact (takes_arguments w i.contracts).bind fun _ => takes_pure _

/-! ### Bodies -/

/-- Adds to `done` the lines of the rest `bs` of a body, which starts at `offset`. -/
def linesInto (set : InstructionSet) (w : Width) (done : Array ListingLine) (offset : Nat)
    (bs : Bytes) : Except ReadError (Array ListingLine) :=
  if bs = [] then .ok done
  else
    match _h : readLine set w offset bs with
    | .error e => .error e
    | .ok (line, rest) =>
      linesInto set w (done.push line) (offset + (bs.length - rest.length)) rest
termination_by bs.length
decreasing_by exact takes_line set w offset _h

/-- The instructions in the code of a symbol. -/
def ofBody (set : InstructionSet) (w : Width) (body : Bytes) :
    Except ReadError (List ListingLine) :=
  (linesInto set w #[] 0 body).map Array.toList

end Listing

end StackAsm
