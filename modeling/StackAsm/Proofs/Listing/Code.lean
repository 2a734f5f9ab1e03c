import StackAsm.Proofs.Container.Canonical
import StackAsm.Proofs.Listing

/-!
# Code and its listing

The code of a symbol is the same thing as a sequence of instructions with a number for every
operand, each in the range of the operand's form. Writing such a sequence gives the code, and its
listing gives back the sequence with the offsets, which are the lengths of what comes before. In
turn, whatever has a listing is what the listing is written as. This holds of the instructions of
the machine with any extensions.
-/

namespace StackAsm

/-! ### Numbers in a form -/

/-- How many numbers a form can tell apart. -/
def Form.range (w : Width) : Form → Nat
  | number => w.range
  | byte => 256

/-- A number as it is written in a form. -/
def Form.encode : Form → UInt64 → Encoded
  | number, raw => .number raw
  | byte, raw => .byte raw.toUInt8

theorem Form.form_encode (form : Form) (raw : UInt64) : (form.encode raw).form = form := by
  cases form <;> rfl

theorem Form.raw_encode {form : Form} {w : Width} {raw : UInt64} (h : raw.toNat < form.range w) :
    (form.encode raw).raw w = raw := by
  cases form with
  | number => exact Width.mask_of_lt h
  | byte =>
    have hlt : raw.toNat < 2 ^ 8 := h
    apply UInt64.toNat_inj.mp
    show raw.toUInt8.toUInt64.toNat = raw.toNat
    rw [UInt8.toNat_toUInt64, UInt64.toNat_toUInt8, Nat.mod_eq_of_lt hlt]

namespace Listing

/-! ### Operands in code -/

/-- Every number is in the range of the form in which its operand is written. -/
def InRange (w : Width) (contracts : List Contract) (arguments : List UInt64) : Prop :=
  List.Forall₂ (fun contract raw => raw.toNat < contract.form.range w) contracts arguments

/-- The numbers as they are written under their contracts. -/
def operands (contracts : List Contract) (arguments : List UInt64) : List Encoded :=
  contracts.zipWith (fun contract raw => contract.form.encode raw) arguments

theorem forms_operands {w : Width} {contracts : List Contract} {arguments : List UInt64}
    (h : InRange w contracts arguments) :
    List.Forall₂ (fun contract e => e.form = contract.form) contracts
      (operands contracts arguments) := by
  induction h with
  | nil => exact .nil
  | cons _ _ ih => exact .cons (Form.form_encode _ _) ih

/-- Nothing of a number in the range is lost in writing. -/
theorem map_raw_operands {w : Width} {contracts : List Contract} {arguments : List UInt64}
    (h : InRange w contracts arguments) :
    (operands contracts arguments).map (Encoded.raw w) = arguments := by
  induction h with
  | nil => rfl
  | cons hraw _ ih => exact congrArg₂ List.cons (Form.raw_encode hraw) ih

/-- The operand that is read is in its range and is written as the bytes it was read from. -/
theorem bytes_of_readArgument {w : Width} {contract : Contract} {raw : UInt64} {bs rest : Bytes}
    (h : readArgument w contract bs = .ok (raw, rest)) :
    raw.toNat < contract.form.range w ∧ bs = (contract.form.encode raw).bytes w ++ rest := by
  unfold readArgument at h
  cases hform : contract.form with
  | byte =>
    rw [hform] at h
    obtain ⟨b, mid, hb, h⟩ := stateT_bind_eq_ok.mp h
    cases h
    refine ⟨?_, ?_⟩
    · rw [UInt8.toNat_toUInt64]
      exact b.toNat_lt
    · have hbyte : b.toUInt64.toUInt8 = b := by simp
      rw [Container.readByte_eq_ok hb, Form.encode, Encoded.bytes, hbyte]
  | number =>
    rw [hform] at h
    exact Container.readNumber_eq_ok h

/-- The operands that are read are in their ranges and are written as the bytes they were read
from. -/
theorem operands_of_readArguments {w : Width} {contracts : List Contract}
    {arguments : List UInt64} {bs rest : Bytes}
    (h : readArguments w contracts bs = .ok (arguments, rest)) :
    InRange w contracts arguments ∧
      bs = (operands contracts arguments).flatMap (Encoded.bytes w) ++ rest := by
  induction contracts generalizing bs arguments with
  | nil =>
    cases h
    exact ⟨.nil, rfl⟩
  | cons contract contracts ih =>
    obtain ⟨raw, mid, hraw, h⟩ := stateT_bind_eq_ok.mp h
    obtain ⟨raws, mid', hraws, h⟩ := stateT_bind_eq_ok.mp h
    cases h
    obtain ⟨hrange, rfl⟩ := bytes_of_readArgument hraw
    obtain ⟨hranges, rfl⟩ := ih hraws
    exact ⟨.cons hrange hranges, (List.append_assoc ..).symm⟩

/-! ### Instructions in code -/

variable {set : InstructionSet} {w : Width}

/-- An instruction of the set with a number in the range for each operand. -/
structure Coded (set : InstructionSet) (w : Width) where
  instruction : Instruction
  arguments : List UInt64
  known : instruction ∈ set.instructions
  inRange : InRange w instruction.contracts arguments

/-- The opcode, and the operands as their contracts say. -/
def Coded.bytes (i : Coded set w) : Bytes :=
  i.instruction.opcode :: (operands i.instruction.contracts i.arguments).flatMap (Encoded.bytes w)

theorem Coded.length_bytes (i : Coded set w) : i.bytes.length = i.instruction.size w := by
  rw [bytes, List.length_cons, length_flatMap_bytes (forms_operands i.inRange), Nat.add_comm]
  rfl

/-- The lines of instructions that start at `offset`: each stands where the bytes of those before it
end. -/
def lines (offset : Nat) : List (Coded set w) → List ListingLine
  | [] => []
  | i :: code => ⟨offset, i.instruction, i.arguments⟩ :: lines (offset + i.bytes.length) code

/-- A listing passes over an instruction in one step. -/
theorem linesInto_coded (hset : set.Coherent) (i : Coded set w) (done : Array ListingLine)
    (offset : Nat) (rest : Bytes) :
    linesInto set w done offset (i.bytes ++ rest) =
      linesInto set w (done.push ⟨offset, i.instruction, i.arguments⟩) (offset + i.bytes.length)
        rest := by
  rw [Coded.length_bytes, Coded.bytes,
    linesInto_operands hset i.known (forms_operands i.inRange), map_raw_operands i.inRange]

theorem linesInto_code (hset : set.Coherent) (code : List (Coded set w))
    (done : Array ListingLine) (offset : Nat) :
    linesInto set w done offset (code.flatMap Coded.bytes) =
      .ok (done ++ (lines offset code).toArray) := by
  induction code generalizing done offset with
  | nil =>
    rw [List.flatMap_nil, linesInto, if_pos rfl]
    simp [lines]
  | cons i code ih =>
    rw [List.flatMap_cons, linesInto_coded hset, ih, lines]
    simp

/-- What is read as an instruction is an instruction of the set. -/
theorem exists_coded (hset : set.Coherent) {line : ListingLine} {offset : Nat} {bs rest : Bytes}
    (h : readLine set w offset bs = .ok (line, rest)) :
    ∃ c : Coded set w, line = ⟨offset, c.instruction, c.arguments⟩ ∧ bs = c.bytes ++ rest := by
  obtain ⟨opcode, mid, rfl, hopcode, rfl, harguments⟩ := readLine_eq_ok.mp h
  obtain ⟨hknown, rfl⟩ := hset.mem_of_withOpcode? hopcode
  obtain ⟨hrange, rfl⟩ := operands_of_readArguments harguments
  exact ⟨⟨line.instruction, line.arguments, hknown, hrange⟩, rfl, rfl⟩

/-- Bytes with a listing are the bytes of its instructions. -/
theorem code_of_linesInto (hset : set.Coherent) {done result : Array ListingLine} {offset : Nat}
    {bs : Bytes} (h : linesInto set w done offset bs = .ok result) :
    ∃ code : List (Coded set w), bs = code.flatMap Coded.bytes ∧
      result = done ++ (lines offset code).toArray := by
  fun_induction linesInto set w done offset bs with
  | case1 done offset =>
    cases h
    exact ⟨[], rfl, by simp [lines]⟩
  | case2 => cases h
  | case3 done offset bs _ line rest hline ih =>
    obtain ⟨code, hrest, rfl⟩ := ih h
    obtain ⟨c, rfl, rfl⟩ := exists_coded hset hline
    have htaken : (c.bytes ++ rest).length - rest.length = c.bytes.length := by
      rw [List.length_append, Nat.add_sub_cancel]
    refine ⟨c :: code, ?_, ?_⟩
    · rw [List.flatMap_cons, hrest]
    · rw [lines, htaken]
      simp

/-- **Code and instructions are in bijection**: whatever extensions of the machine were attempted,
some bytes have a listing exactly if they are the bytes of instructions with numbers in the ranges
of their operands, and the listing is then the sequence of these instructions, with the lengths of
what comes before as offsets. -/
theorem ofBody_eq_ok_iff (attempts : List Instruction) (w : Width) (body : Bytes)
    (listing : List ListingLine) :
    ofBody (InstructionSet.native.extendAll attempts) w body = .ok listing ↔
      ∃ code : List (Coded (InstructionSet.native.extendAll attempts) w),
        body = code.flatMap Coded.bytes ∧ listing = lines 0 code := by
  have hset := InstructionSet.native_coherent.extendAll attempts
  rw [ofBody, except_map_eq_ok]
  constructor
  · rintro ⟨result, hresult, rfl⟩
    obtain ⟨code, hbody, rfl⟩ := code_of_linesInto hset hresult
    exact ⟨code, hbody, by simp⟩
  · rintro ⟨code, rfl, rfl⟩
    exact ⟨_, linesInto_code hset code #[] 0, by simp⟩

example :
    ofBody (InstructionSet.native.extendAll [⟨"blit", 0x80, [.byte, .label]⟩]) .w16
        [0x20, 0xFE, 0xFF, 0x80, 0x07, 0xFD, 0xFF, 0x00] =
      .ok [⟨0, ⟨"push", 0x20, [.number]⟩, [0xFFFE]⟩, ⟨3, ⟨"blit", 0x80, [.byte, .label]⟩, [7, 0xFFFD]⟩,
        ⟨7, ⟨"nop", 0x00, []⟩, []⟩] := by
  decide +kernel

-- the name is in use, so the attempt is refused and its opcode stands for nothing
example :
    ofBody (InstructionSet.native.extendAll [⟨"nop", 0x81, []⟩]) .w16 [0x00, 0x81] =
      .error (.unknownOpcode 0x81 1) := by
  decide +kernel

end Listing

end StackAsm
