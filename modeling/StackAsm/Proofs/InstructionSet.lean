import StackAsm.InstructionSet
import StackAsm.Proofs.Effects
import Mathlib.Data.List.Nodup

/-!
# Opcodes and instructions

The two tables of a set hold the same instructions, and no two of these share a name or an opcode
(`Coherent`). This holds of the machine's own instructions, and an extension is only taken in with a
name and an opcode that are free. So an opcode gives back the instruction it was taken from,
whatever extensions were attempted before.
-/

namespace StackAsm.InstructionSet

variable {set set' : InstructionSet} {i : Instruction}

/-- The two tables hold the same instructions, each with a name and an opcode of its own. -/
structure Coherent (set : InstructionSet) : Prop where
  tables : set.opcodes = set.instructions.map fun i => (i.opcode, i.name)
  names : (set.instructions.map (·.name)).Nodup
  opcodes : (set.instructions.map (·.opcode)).Nodup

theorem native_coherent : native.Coherent where
  tables := rfl
  names := by decide +kernel
  opcodes := by
    unfold native
    decide

/-! ### Looking up -/

/-- An instruction is found by what it shares with no other. -/
theorem find?_of_nodup_map {κ : Type} [BEq κ] [LawfulBEq κ] {key : Instruction → κ}
    {instructions : List Instruction} (h : (instructions.map key).Nodup) {i : Instruction}
    (hi : i ∈ instructions) : instructions.find? (key · == key i) = some i := by
  cases hf : instructions.find? (key · == key i) with
  | none => simpa using List.find?_eq_none.mp hf i hi
  | some j =>
    have hkey : key j = key i := by simpa using List.find?_some hf
    rw [List.inj_on_of_nodup_map h (List.mem_of_find?_eq_some hf) hi hkey]

/-- What a mnemonic is looked up as is an instruction of the set. -/
theorem mem_of_find? {name : String} (h : set.find? name = some i) : i ∈ set.instructions :=
  List.mem_of_find?_eq_some h

theorem Coherent.withName?_name (h : set.Coherent) (hi : i ∈ set.instructions) :
    set.withName? i.name = some i := find?_of_nodup_map h.names hi

theorem lookup_opcode (instructions : List Instruction) (opcode : UInt8) :
    (instructions.map fun i => (i.opcode, i.name)).lookup opcode =
      (instructions.find? (·.opcode == opcode)).map (·.name) := by
  induction instructions with
  | nil => rfl
  | cons i instructions ih =>
    rw [List.map_cons, List.lookup_cons, List.find?_cons, ih, BEq.comm (a := opcode)]
    cases i.opcode == opcode <;> rfl

/-- By way of the name, an opcode leads to the instruction that has it. -/
theorem Coherent.withOpcode?_eq (h : set.Coherent) (opcode : UInt8) :
    set.withOpcode? opcode = set.instructions.find? (·.opcode == opcode) := by
  rw [withOpcode?, h.tables, lookup_opcode]
  cases hfind : set.instructions.find? (·.opcode == opcode) with
  | none => rfl
  | some i => exact h.withName?_name (List.mem_of_find?_eq_some hfind)

/-- The opcode of an instruction of the set gives the instruction back. -/
theorem Coherent.withOpcode?_opcode (h : set.Coherent) (hi : i ∈ set.instructions) :
    set.withOpcode? i.opcode = some i := by
  rw [h.withOpcode?_eq]
  exact find?_of_nodup_map h.opcodes hi

theorem Coherent.mem_of_withOpcode? (h : set.Coherent) {opcode : UInt8}
    (hi : set.withOpcode? opcode = some i) : i ∈ set.instructions ∧ i.opcode = opcode := by
  rw [h.withOpcode?_eq] at hi
  exact ⟨List.mem_of_find?_eq_some hi, by simpa using List.find?_some hi⟩

/-! ### Extensions -/

theorem register_eq (i : Instruction) (set : InstructionSet) :
    register i set =
      if !i.isExtended then .error (.notExtended i.opcode) set
      else if (set.withName? i.name).isSome then .error (.nameTaken i.name) set
      else
        match set.opcodes.lookup i.opcode with
        | some owner => .error (.opcodeTaken i.opcode owner) set
        | none => .ok () (set.insert i) := by
  have hget : (get : EStateM ExtensionError InstructionSet InstructionSet) set = .ok set set := rfl
  rw [register, estate_bind_of_ok hget]
  split
  · rfl
  · split
    · rfl
    · cases set.opcodes.lookup i.opcode <;> rfl

/-- What an extension is taken in for, and what the set is then. -/
theorem extend_eq_ok_iff (set set' : InstructionSet) (i : Instruction) :
    set.extend i = .ok set' ↔
      i.isExtended ∧ set.withName? i.name = none ∧ set.opcodes.lookup i.opcode = none ∧
        set' = set.insert i := by
  rw [extend, register_eq]
  cases i.isExtended with
  | false => simp
  | true =>
    cases set.withName? i.name with
    | some owner => simp
    | none =>
      cases set.opcodes.lookup i.opcode with
      | some owner => simp
      | none => simp [eq_comm]

/-- A refusal comes before any change. -/
theorem eq_of_register_error {e : ExtensionError} (h : register i set = .error e set') :
    set' = set := by
  rw [register_eq] at h
  split at h
  · cases h
    rfl
  · split at h
    · cases h
      rfl
    · cases hlookup : set.opcodes.lookup i.opcode with
      | some owner =>
        rw [hlookup] at h
        cases h
        rfl
      | none =>
        rw [hlookup] at h
        cases h

theorem register_of_refused {e : ExtensionError} (h : set.extend i = .error e) :
    register i set = .error e set := by
  cases hregister : register i set with
  | ok u set' =>
    rw [extend, hregister] at h
    cases h
  | error e' set' =>
    rw [extend, hregister] at h
    cases h
    rw [eq_of_register_error hregister]

/-- A name or an opcode that no instruction has is new among them. -/
theorem nodup_map_insert {κ : Type} [BEq κ] [LawfulBEq κ] {key : Instruction → κ}
    {instructions : List Instruction} (h : (instructions.map key).Nodup)
    (hi : instructions.find? (key · == key i) = none) : ((instructions ++ [i]).map key).Nodup := by
  rw [List.map_append, List.map_singleton]
  refine h.append (List.nodup_singleton _) (List.disjoint_singleton.mpr ?_)
  intro hmem
  obtain ⟨j, hj, hsame⟩ := List.mem_map.mp hmem
  have hne := List.find?_eq_none.mp hi j hj
  simp [hsame] at hne

theorem Coherent.extend (h : set.Coherent) (hi : set.extend i = .ok set') : set'.Coherent := by
  obtain ⟨-, hname, hopcode, rfl⟩ := (extend_eq_ok_iff set set' i).mp hi
  rw [h.tables, lookup_opcode, Option.map_eq_none_iff] at hopcode
  refine ⟨?_, nodup_map_insert h.names hname, nodup_map_insert h.opcodes hopcode⟩
  show set.opcodes ++ _ = (set.instructions ++ [i]).map _
  rw [h.tables, List.map_append, List.map_singleton]

/-! ### Attempts at extensions -/

/-- The set after an attempt at an extension, taken in or refused. -/
def tryExtend (set : InstructionSet) (i : Instruction) : InstructionSet :=
  stateAfter (register i set)

/-- The set after attempts at extensions, one after the other. -/
def extendAll (set : InstructionSet) (attempts : List Instruction) : InstructionSet :=
  attempts.foldl tryExtend set

/-- An attempt extends the set or leaves it as it is. -/
theorem tryExtend_cases (set : InstructionSet) (i : Instruction) :
    set.extend i = .ok (set.tryExtend i) ∨ set.tryExtend i = set := by
  cases hi : set.extend i with
  | error e => exact .inr (congrArg stateAfter (register_of_refused hi))
  | ok set' =>
    rw [InstructionSet.extend] at hi
    split at hi
    · next hregister =>
      cases hi
      rw [tryExtend, hregister]
      exact .inl rfl
    · cases hi

theorem Coherent.extendAll (h : set.Coherent) (attempts : List Instruction) :
    (set.extendAll attempts).Coherent := by
  induction attempts generalizing set with
  | nil => exact h
  | cons i attempts ih =>
    have hnext : (set.tryExtend i).Coherent := by
      rcases set.tryExtend_cases i with hextend | hsame
      · exact h.extend hextend
      · rwa [hsame]
    exact ih hnext

end StackAsm.InstructionSet
