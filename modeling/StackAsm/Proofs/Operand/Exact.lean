import StackAsm.Proofs.Operand

/-!
# Operands are written exactly

A contract that takes an operand may still write it in fewer bits than it has. That nothing is cut
off then rests on two checks: what is written as a byte was in the range of a byte when the contract
took it, and what is written as a number is compared with the width. So the bytes of an operand hold
the operand itself. Only a label back is held without its sign, and a negative number as its
remainder modulo the range of the width.
-/

namespace StackAsm

/-! ### What an operand stands for -/

/-- The number that an operand stands for: its value, its distance or its index. -/
def Operand.number : Operand → Int
  | value v => v.toInt
  | distance _ d => d.toInt
  | index _ i => i.toNat

/-- Whether the operand is a reference by index. -/
def Operand.isIndex : Operand → Bool
  | index _ _ => true
  | _ => false

namespace Contract

variable {contract : Contract} {w : Width} {v : Int64} {target : Target} {operand : Operand}
  {e : Encoded}

/-- What the bytes of an operand under the contract hold: a distance to a label back without its
sign, a negative number of the width as its remainder, and all else as it is. -/
def held (contract : Contract) (w : Width) : Operand → Int
  | .distance _ d =>
    if contract = .backward then -d.toInt
    else if contract.form = .number ∧ d.toInt < 0 then d.toInt + 2 ^ w.bits
    else d.toInt
  | .value v => if contract.form = .number ∧ v.toInt < 0 then v.toInt + 2 ^ w.bits else v.toInt
  | .index _ i => i.toNat

/-- The operand is written as a byte or a number as the contract says, in as many bytes as it says,
and these hold what the operand stands for. -/
structure WritesExactly (contract : Contract) (w : Width) (operand : Operand) (e : Encoded) :
    Prop where
  form : (∃ b, e = .byte b) ↔ contract.form = .byte
  length : (e.bytes w).length = contract.size w
  held : (Width.ofLowBytes (e.bytes w) : Int) = contract.held w operand

/-! ### What was checked -/

/-- A value that is taken to be written as a byte is a byte. -/
theorem value_of_check (hform : contract.form = .byte) (h : contract.check (.value v) = .ok ()) :
    0 ≤ v.toInt ∧ v.toInt ≤ 255 := by
  cases contract with
  | byte => exact checkRange_eq_ok h
  | slot =>
    have hrange : 0 ≤ v.toInt ∧ v.toInt ≤ 15 := checkRange_eq_ok h
    omega
  | external =>
    have hrange : 0 ≤ v.toInt ∧ v.toInt ≤ 254 := checkRange_eq_ok h
    omega
  | number | label | anything => cases hform
  | _ => cases h

/-- A distance that is taken to be written as a byte is one, or one without its sign where the label
lies back. -/
theorem distance_of_check (hform : contract.form = .byte)
    (h : contract.check (.distance target v) = .ok ()) :
    (contract = .backward ∧ -255 ≤ v.toInt ∧ v.toInt ≤ -1) ∨
      (contract ≠ .backward ∧ 0 ≤ v.toInt ∧ v.toInt ≤ 255) := by
  unfold check at h
  dsimp only at h
  split at h
  · cases contract with
    | byte => exact .inr ⟨by simp, checkRange_eq_ok h⟩
    | forward =>
      have hrange : 1 ≤ v.toInt ∧ v.toInt ≤ 255 := checkRange_eq_ok h
      exact .inr ⟨by simp, by omega, by omega⟩
    | backward => exact .inl ⟨rfl, checkRange_eq_ok h⟩
    | number | label | anything => cases hform
    | _ => cases h
  · cases h

/-! ### Operands in a byte -/

/-- The low byte of what is written for an operand. -/
def lowByte (contract : Contract) : Operand → UInt8
  | .index _ i => i
  | .value v => v.toUInt64.toUInt8
  | .distance _ d =>
    if contract = .backward then (-d).toUInt64.toUInt8 else d.toUInt64.toUInt8

theorem normalize_of_byte (hform : contract.form = .byte) :
    contract.normalize w operand =
      (contract.check operand).map fun _ => .byte (contract.lowByte operand) := by
  unfold normalize
  rw [hform]
  cases contract.check operand with
  | error refusal => rfl
  | ok =>
    cases operand with
    | value v => rfl
    | index target i => rfl
    | distance target d =>
      show (if contract = .backward then _ else _) = Except.ok (Encoded.byte (if _ then _ else _))
      split <;> rfl

/-- The low byte of an operand that is taken to be written as a byte is what the operand stands
for. -/
theorem toNat_lowByte (hform : contract.form = .byte) (h : contract.check operand = .ok ()) :
    ((contract.lowByte operand).toNat : Int) = contract.held w operand := by
  have hbyte : ¬(contract.form = .number ∧ operand.number < 0) := by simp [hform]
  cases operand with
  | index target i => rfl
  | value v =>
    obtain ⟨hlow, hhigh⟩ := value_of_check hform h
    exact (Width.toNat_lowByte hlow hhigh).trans (if_neg hbyte).symm
  | distance target d =>
    rcases distance_of_check hform h with ⟨rfl, hlow, hhigh⟩ | ⟨hne, hlow, hhigh⟩
    · have hneg : (-d).toInt = -d.toInt := by
        rw [Int64.toInt_neg, Int.bmod_eq_of_le (by omega) (by omega)]
      rw [lowByte, if_pos rfl, held, if_pos rfl, ← hneg]
      exact Width.toNat_lowByte (by omega) (by omega)
    · rw [lowByte, if_neg hne, held, if_neg hne]
      exact (Width.toNat_lowByte hlow hhigh).trans (if_neg hbyte).symm

/-! ### Operands as numbers -/

/-- What is written for an operand as a number of the width. -/
def wideNumber (contract : Contract) (w : Width) : Operand → Except OperandError Encoded
  | .index _ i => .ok (.number i.toUInt64)
  | .value v | .distance _ v => contract.encodeNumber w v

theorem normalize_of_number (hform : contract.form = .number) :
    contract.normalize w operand =
      contract.check operand >>= fun _ => contract.wideNumber w operand := by
  unfold normalize
  rw [hform]
  cases operand <;> rfl

theorem encodeNumber_eq_ok_iff :
    contract.encodeNumber w v = .ok e ↔
      (-2 ^ (w.bits - 1) ≤ v.toInt ∧ v.toInt ≤ 2 ^ w.bits - 1) ∧ e = .number v.toUInt64 := by
  rw [← w.fitsValue_iff, encodeNumber]
  split
  · next hfits => simp [hfits, eq_comm]
  · next hfits => simp [hfits]

theorem exists_wideNumber_iff :
    (∃ e, contract.wideNumber w operand = .ok e) ↔
      (operand.isIndex = false →
        -2 ^ (w.bits - 1) ≤ operand.number ∧ operand.number ≤ 2 ^ w.bits - 1) := by
  cases operand with
  | index target i => simp [wideNumber, Operand.isIndex]
  | value v => simp [wideNumber, Operand.isIndex, Operand.number, encodeNumber_eq_ok_iff]
  | distance target d => simp [wideNumber, Operand.isIndex, Operand.number, encodeNumber_eq_ok_iff]

theorem held_of_wideNumber (hform : contract.form = .number)
    (h : contract.wideNumber w operand = .ok e) :
    (Width.ofLowBytes (e.bytes w) : Int) = contract.held w operand := by
  have hne : contract ≠ .backward := by
    rintro rfl
    cases hform
  cases operand with
  | index target i =>
    cases h
    have hlt : i.toNat < w.range := Nat.lt_of_lt_of_le i.toNat_lt (by cases w <;> decide)
    show ((Width.ofLowBytes (w.encode i.toUInt64) : Nat) : Int) = (i.toNat : Nat)
    rw [Width.ofLowBytes_encode, UInt8.toNat_toUInt64, Nat.mod_eq_of_lt hlt]
  | value v =>
    obtain ⟨hfits, rfl⟩ := encodeNumber_eq_ok_iff.mp h
    rw [Encoded.bytes, Width.ofLowBytes_encode_of_fitsValue ((w.fitsValue_iff v).mpr hfits), held]
    simp only [hform, true_and]
  | distance target d =>
    obtain ⟨hfits, rfl⟩ := encodeNumber_eq_ok_iff.mp h
    rw [Encoded.bytes, Width.ofLowBytes_encode_of_fitsValue ((w.fitsValue_iff d).mpr hfits), held,
      if_neg hne]
    simp only [hform, true_and]

/-! ### Operands under their contracts -/

/-- An operand that is taken can be written, unless it is a number that does not fit the width. -/
theorem exists_normalize_iff :
    (∃ e, contract.normalize w operand = .ok e) ↔
      contract.check operand = .ok () ∧
        (contract.form = .number → operand.isIndex = false →
          -2 ^ (w.bits - 1) ≤ operand.number ∧ operand.number ≤ 2 ^ w.bits - 1) := by
  cases hform : contract.form with
  | byte =>
    rw [normalize_of_byte hform]
    constructor
    · rintro ⟨e, h⟩
      obtain ⟨⟨⟩, hcheck, -⟩ := except_map_eq_ok.mp h
      exact ⟨hcheck, by simp⟩
    · rintro ⟨hcheck, -⟩
      exact ⟨_, except_map_eq_ok.mpr ⟨(), hcheck, rfl⟩⟩
  | number =>
    rw [normalize_of_number hform]
    constructor
    · rintro ⟨e, h⟩
      obtain ⟨⟨⟩, hcheck, hwide⟩ := except_bind_eq_ok.mp h
      exact ⟨hcheck, fun _ => exists_wideNumber_iff.mp ⟨e, hwide⟩⟩
    · rintro ⟨hcheck, hfits⟩
      obtain ⟨e, hwide⟩ := exists_wideNumber_iff.mpr (hfits rfl)
      exact ⟨e, except_bind_eq_ok.mpr ⟨(), hcheck, hwide⟩⟩

theorem writesExactly_of_normalize (h : contract.normalize w operand = .ok e) :
    contract.WritesExactly w operand e where
  form := by
    rw [← form_of_normalize h]
    cases e <;> simp [Encoded.form]
  length := by
    rw [Encoded.length_bytes, form_of_normalize h]
    rfl
  held := by
    cases hform : contract.form with
    | byte =>
      rw [normalize_of_byte hform] at h
      obtain ⟨⟨⟩, hcheck, rfl⟩ := except_map_eq_ok.mp h
      exact toNat_lowByte hform hcheck
    | number =>
      rw [normalize_of_number hform] at h
      obtain ⟨⟨⟩, -, hwide⟩ := except_bind_eq_ok.mp h
      exact held_of_wideNumber hform hwide

/-- **Nothing of an operand is cut off.** Whatever the contract, the operand and the width, the
operand is written exactly if the contract takes it and, where it is a value or a distance to be
written as a number, if it is a signed or unsigned number of the width; and it is then written in
the form and the size of the contract, as what it stands for. -/
theorem normalize_exact (contract : Contract) (w : Width) (operand : Operand) :
    ((∃ e, contract.normalize w operand = .ok e) ↔
        contract.check operand = .ok () ∧
          (contract.form = .number → operand.isIndex = false →
            -2 ^ (w.bits - 1) ≤ operand.number ∧ operand.number ≤ 2 ^ w.bits - 1)) ∧
      ∀ e, contract.normalize w operand = .ok e → contract.WritesExactly w operand e :=
  ⟨exists_normalize_iff, fun _ => writesExactly_of_normalize⟩

/-- A label back, a negative number, and a number that no longer fits. -/
theorem normalize_exact_samples :
    Contract.backward.WritesExactly .w16 (.distance .label (-200)) (.byte 200) ∧
      Contract.number.WritesExactly .w16 (.value (-2)) (.number 0xFFFFFFFFFFFFFFFE) ∧
      Contract.number.check (.value 65536) = .ok () ∧
      ¬∃ e, Contract.number.normalize .w16 (.value 65536) = .ok e := by
  refine ⟨(normalize_exact _ _ _).2 _ (by decide), (normalize_exact _ _ _).2 _ (by decide), rfl, ?_⟩
  rw [(normalize_exact _ _ _).1]
  rintro ⟨-, hfits⟩
  exact absurd (hfits rfl rfl).2 (by decide)

end Contract

end StackAsm
