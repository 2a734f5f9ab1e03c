import StackAsm.Proofs.InstructionSet
import StackAsm.Proofs.Text.Lowercase

/-!
# Mnemonics and opcodes

A set is searched in two ways: for a mnemonic, written in any case, and for an opcode. Each has a
table of its own. Both find the same instructions as long as the tables are coherent and every
mnemonic is in lower case (`WellFormed`). The machine's own instructions are so, and an extension
that is taken in keeps the set so. Hence the two searches agree, whatever extensions were attempted
before, and none of them gets in the way of an instruction of the machine (`Consistent`).
-/

namespace StackAsm.InstructionSet

variable {set set' : InstructionSet} {i : Instruction} {name : String} {opcode : UInt8}

/-- The tables are coherent, mnemonics are in lower case, and what is not of the machine is in the
extended range. -/
structure WellFormed (set : InstructionSet) : Prop where
  coherent : set.Coherent
  lowercase : ∀ i ∈ set.instructions, Text.lowercase i.name = i.name
  native : Instruction.native ⊆ set.instructions
  added : ∀ i ∈ set.instructions, i ∈ Instruction.native ∨ i.isExtended = true

theorem native_wellFormed : native.WellFormed where
  coherent := native_coherent
  lowercase := by
    have hall : native.instructions.all (fun i => Text.lowercase i.name == i.name) = true := by
      decide +kernel
    intro i hi
    have hname := List.all_eq_true.mp hall i hi
    exact eq_of_beq hname
  native := List.Subset.refl _
  added _ hi := .inl hi

/-! ### Both searches -/

/-- An instruction is found by its mnemonic. -/
theorem WellFormed.find?_name (h : set.WellFormed) (hi : i ∈ set.instructions) :
    set.find? i.name = some i := by
  rw [find?, h.lowercase i hi]
  exact h.coherent.withName?_name hi

theorem name_of_find? (h : set.find? name = some i) : i.name = Text.lowercase name := by
  simpa using List.find?_some h

/-! ### Extensions -/

theorem define_name (name : String) (opcode : UInt8) (contracts : List Contract) :
    Text.lowercase (Instruction.define name opcode contracts).name =
      (Instruction.define name opcode contracts).name := Text.lowercase_lowercase name

/-- An extension with a mnemonic in lower case that is taken in keeps the set as it has to be. -/
theorem WellFormed.extend (h : set.WellFormed) (hname : Text.lowercase i.name = i.name)
    (hi : set.extend i = .ok set') : set'.WellFormed := by
  have hcoherent := h.coherent.extend hi
  obtain ⟨hextended, -, -, rfl⟩ := (extend_eq_ok_iff set set' i).mp hi
  refine ⟨hcoherent, ?_, ?_, ?_⟩
  · intro j hj
    rcases List.mem_append.mp hj with hold | hnew
    · exact h.lowercase j hold
    · rw [List.mem_singleton.mp hnew]
      exact hname
  · intro j hj
    exact List.mem_append_left _ (h.native hj)
  · intro j hj
    rcases List.mem_append.mp hj with hold | hnew
    · exact h.added j hold
    · rw [List.mem_singleton.mp hnew]
      exact .inr hextended

theorem WellFormed.tryExtend (h : set.WellFormed) (hname : Text.lowercase i.name = i.name) :
    (set.tryExtend i).WellFormed := by
  rcases set.tryExtend_cases i with hextend | hsame
  · exact h.extend hname hextend
  · rwa [hsame]

/-- The set after attempts at extensions, each given by a mnemonic in any case, an opcode and
contracts. -/
def defineAll (set : InstructionSet) (attempts : List (String × UInt8 × List Contract)) :
    InstructionSet :=
  set.extendAll (attempts.map fun attempt => .define attempt.1 attempt.2.1 attempt.2.2)

theorem WellFormed.defineAll (h : set.WellFormed)
    (attempts : List (String × UInt8 × List Contract)) : (set.defineAll attempts).WellFormed := by
  induction attempts generalizing set with
  | nil => exact h
  | cons attempt attempts ih =>
    exact ih (h.tryExtend (define_name attempt.1 attempt.2.1 attempt.2.2))

/-- A free mnemonic and a free opcode of the extended range are taken in, and found from then on. -/
theorem WellFormed.exists_extend (h : set.WellFormed) (contracts : List Contract)
    (hopcode : 0x80 ≤ opcode) (hname : set.find? name = none)
    (hfree : set.withOpcode? opcode = none) :
    ∃ set', set.extend (.define name opcode contracts) = .ok set' ∧
      set'.find? name = some (.define name opcode contracts) ∧
      set'.withOpcode? opcode = some (.define name opcode contracts) := by
  have hlookup : set.opcodes.lookup opcode = none := by
    rw [h.coherent.withOpcode?_eq] at hfree
    rw [h.coherent.tables, lookup_opcode, hfree, Option.map_none]
  have hextend : set.extend (.define name opcode contracts) =
      .ok (set.insert (.define name opcode contracts)) :=
    (extend_eq_ok_iff _ _ _).mpr ⟨decide_eq_true hopcode, hname, hlookup, rfl⟩
  have hcoherent := h.coherent.extend hextend
  have hmem : Instruction.define name opcode contracts ∈
      (set.insert (.define name opcode contracts)).instructions := by simp [insert]
  exact ⟨_, hextend, hcoherent.withName?_name hmem, hcoherent.withOpcode?_opcode hmem⟩

/-! ### Any attempts -/

/-- The two searches of a set agree, and a further extension is taken in or leaves everything as it
is. -/
structure Consistent (set : InstructionSet) : Prop where
  /-- What a mnemonic stands for has it as its name and is what its opcode stands for. -/
  ofName {name : String} {i : Instruction} (h : set.find? name = some i) :
    i.name = Text.lowercase name ∧ set.withOpcode? i.opcode = some i
  /-- What an opcode stands for has this opcode and is what its mnemonic stands for. -/
  ofOpcode {opcode : UInt8} {i : Instruction} (h : set.withOpcode? opcode = some i) :
    i.opcode = opcode ∧ set.find? i.name = some i
  /-- The instructions of the machine are where they were. -/
  native : ∀ i ∈ Instruction.native,
    set.find? i.name = some i ∧ set.withOpcode? i.opcode = some i
  /-- All others are in the extended range. -/
  added : ∀ i ∈ set.instructions, i ∉ Instruction.native → 0x80 ≤ i.opcode
  /-- What is free is taken in. -/
  accepted {name : String} {opcode : UInt8} (contracts : List Contract) (hopcode : 0x80 ≤ opcode)
    (hname : set.find? name = none) (hfree : set.withOpcode? opcode = none) :
    ∃ set', set.extend (.define name opcode contracts) = .ok set' ∧
      set'.find? name = some (.define name opcode contracts) ∧
      set'.withOpcode? opcode = some (.define name opcode contracts)
  /-- An attempt that is refused changes nothing. -/
  refused {i : Instruction} {e : ExtensionError} (h : set.extend i = .error e) :
    register i set = .error e set

theorem WellFormed.consistent (h : set.WellFormed) : set.Consistent where
  ofName hfind := ⟨name_of_find? hfind, h.coherent.withOpcode?_opcode (mem_of_find? hfind)⟩
  ofOpcode hfind := by
    obtain ⟨hmem, hopcode⟩ := h.coherent.mem_of_withOpcode? hfind
    exact ⟨hopcode, h.find?_name hmem⟩
  native i hi := ⟨h.find?_name (h.native hi), h.coherent.withOpcode?_opcode (h.native hi)⟩
  added i hi hother := of_decide_eq_true ((h.added i hi).resolve_left hother)
  accepted contracts hopcode hname hfree := h.exists_extend contracts hopcode hname hfree
  refused hrefused := register_of_refused hrefused

/-- **Mnemonics and opcodes lead to the same instructions**, whatever extensions of the machine were
attempted, taken in or not. -/
theorem consistent_defineAll (attempts : List (String × UInt8 × List Contract)) :
    (native.defineAll attempts).Consistent :=
  (native_wellFormed.defineAll attempts).consistent

/-- A mnemonic in another case, a native one and an opcode that is in use are refused. -/
example :
    (native.defineAll [("Blit", 0x80, [.byte]), ("BLIT", 0x81, []), ("Nop", 0x82, []),
      ("beep", 0x80, []), ("beep", 0x7F, []), ("beep", 0x83, [])]).instructions.drop
        Instruction.native.length = [⟨"blit", 0x80, [.byte]⟩, ⟨"beep", 0x83, []⟩] := by
  decide +kernel

end StackAsm.InstructionSet
