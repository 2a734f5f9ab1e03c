import StackAsm.Proofs.Listing

/-!
# Operands under their contracts

What a contract takes, told from the operand: references by index keep their index, some contracts
take nothing else, and a distance is written as a number, as a byte, or as a byte without its sign.
-/

namespace StackAsm.Contract

variable {contract : Contract} {w : Width} {operand : Operand} {e : Encoded}

/-- Whether the contract asks for a constant of the pool. -/
def takesConstant : Contract → Bool
  | data | values | string | array | byteArray => true
  | _ => false

/-- Whether the contract asks for an entry of a table of the container. -/
def takesEntry (contract : Contract) : Bool := contract.takesConstant || contract == symbol

theorem check_of_normalize (h : contract.normalize w operand = .ok e) :
    contract.check operand = .ok () := by
  obtain ⟨⟨⟩, hcheck, -⟩ := except_bind_eq_ok.mp h
  exact hcheck

/-- Numbers and distances are refused where an entry of a table is asked for. -/
theorem exists_index_of_normalize (hentry : contract.takesEntry = true)
    (h : contract.normalize w operand = .ok e) : ∃ target i, operand = .index target i := by
  have hcheck := check_of_normalize h
  cases operand with
  | index target i => exact ⟨target, i, rfl⟩
  | value v => cases contract <;> cases hentry <;> cases hcheck
  | distance target d =>
    unfold check at hcheck
    dsimp only at hcheck
    split at hcheck
    · cases contract <;> cases hentry <;> cases hcheck
    · cases hcheck

/-- Where a constant is asked for, only constants are taken. -/
theorem exists_kind_of_accepts {target : Target} (hconstant : contract.takesConstant = true)
    (h : contract.accepts target = true) : ∃ kind : ConstantKind, target = kind.target := by
  cases target with
  | data => exact ⟨.data, rfl⟩
  | values => exact ⟨.values, rfl⟩
  | string => exact ⟨.string, rfl⟩
  | _ => cases contract <;> cases hconstant <;> cases h

/-- A reference by index is written as its index. -/
theorem raw_of_normalize_index {target : Target} {i : UInt8}
    (h : contract.normalize w (.index target i) = .ok e) :
    contract.accepts target = true ∧ e.raw w = i.toUInt64 := by
  have hcheck := check_of_normalize h
  unfold check at hcheck
  dsimp only at hcheck
  split at hcheck
  · next haccepts =>
    refine ⟨haccepts, ?_⟩
    obtain ⟨⟨⟩, -, h⟩ := except_bind_eq_ok.mp h
    cases hform : contract.form with
    | byte =>
      rw [hform] at h
      cases h
      rfl
    | number =>
      rw [hform] at h
      cases h
      have hlt : i.toUInt64.toNat < w.range := by
        rw [UInt8.toNat_toUInt64]
        exact Nat.lt_of_lt_of_le i.toNat_lt (by cases w <;> decide)
      exact Width.mask_of_lt hlt
  · cases hcheck

theorem checkRange_eq_ok {v : Int64} {low high : Int}
    (h : contract.checkRange v low high = .ok ()) : low ≤ v.toInt ∧ v.toInt ≤ high := by
  unfold checkRange at h
  split at h
  · assumption
  · cases h

/-- How a distance to a label is written, and under which contracts. -/
theorem normalize_label_eq_ok {d : Int64} (h : contract.normalize w (.distance .label d) = .ok e) :
    ((contract = .number ∨ contract = .anything ∨ contract = .label) ∧ w.fitsValue d = true ∧
        e = .number d.toUInt64) ∨
      ((contract = .byte ∨ contract = .forward) ∧ 0 ≤ d.toInt ∧ d.toInt ≤ 255 ∧
        e = .byte d.toUInt64.toUInt8) ∨
      (contract = .backward ∧ -255 ≤ d.toInt ∧ d.toInt ≤ -1 ∧
        e = .byte (-d).toUInt64.toUInt8) := by
  have hcheck := check_of_normalize h
  obtain ⟨⟨⟩, -, h⟩ := except_bind_eq_ok.mp h
  have hnumber (h : contract.encodeNumber w d = .ok e) :
      w.fitsValue d = true ∧ e = .number d.toUInt64 := by
    unfold encodeNumber at h
    split at h
    · next hfits =>
      cases h
      exact ⟨hfits, rfl⟩
    · cases h
  cases contract with
  | number => exact .inl ⟨.inl rfl, hnumber h⟩
  | anything => exact .inl ⟨.inr (.inl rfl), hnumber h⟩
  | label => exact .inl ⟨.inr (.inr rfl), hnumber h⟩
  | byte =>
    have hrange := checkRange_eq_ok hcheck
    cases h
    exact .inr (.inl ⟨.inl rfl, hrange.1, hrange.2, rfl⟩)
  | forward =>
    have hrange : 1 ≤ d.toInt ∧ d.toInt ≤ 255 := checkRange_eq_ok hcheck
    cases h
    exact .inr (.inl ⟨.inr rfl, by omega, hrange.2, rfl⟩)
  | backward =>
    have hrange : -255 ≤ d.toInt ∧ d.toInt ≤ -1 := checkRange_eq_ok hcheck
    cases h
    exact .inr (.inr ⟨rfl, hrange.1, hrange.2, rfl⟩)
  | _ => cases hcheck

end StackAsm.Contract
