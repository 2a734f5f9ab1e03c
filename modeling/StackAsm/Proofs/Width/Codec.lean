import StackAsm.Proofs.Width

/-!
# Exactly what a width keeps

Writing a number at a width and reading it back loses the bits above the width and nothing else, and
reading bytes and writing them again loses nothing. The bytes of a signed number can be read in two
ways, as an unsigned number and as one in two's complement. A signed number is among the numbers of
the width if one of the two gives it back: the first does so from zero up to the largest unsigned
number, the second in the lower half of this range and as far below zero.
-/

namespace StackAsm.Width

/-! ### Bytes and bits -/

theorem bytes_eq_bits_div (w : Width) : w.bytes = w.bits / 8 := by
  cases w <;> rfl

theorem decode_eq_none_iff (w : Width) (bs : Bytes) : w.decode bs = none ↔ bs.length < w.bytes := by
  rw [decode]
  by_cases hle : w.bytes ≤ bs.length
  · simp [hle]
  · simpa [hle] using Nat.lt_of_not_le hle

/-- The bytes that were read are what the number is written as. -/
theorem encode_of_decode {w : Width} {bs : Bytes} {u : UInt64} (h : w.decode bs = some u) :
    w.encode u = bs.take w.bytes := by
  have hle : w.bytes ≤ bs.length := by
    by_contra hlt
    rw [(w.decode_eq_none_iff bs).mpr (Nat.lt_of_not_le hlt)] at h
    cases h
  rw [decode_eq, if_pos hle] at h
  cases h
  exact encode_ofLowBytes (List.length_take_of_le hle)

/-! ### The two readings of a signed number -/

/-- The unsigned number at the front of the bytes. -/
def readUnsigned (w : Width) (bs : Bytes) : Option Int := (w.decode bs).map fun u => (u.toNat : Int)

/-- The number in two's complement at the front of the bytes. -/
def readSigned (w : Width) (bs : Bytes) : Option Int := (w.decode bs).map w.signed

theorem decode_encode (w : Width) (v : UInt64) : w.decode (w.encode v) = some (w.mask v) := by
  have h := w.decode_encode_append v []
  rwa [List.append_nil] at h

theorem readUnsigned_encode (w : Width) (v : Int64) :
    w.readUnsigned (w.encode v.toUInt64) = some (v.toInt % 2 ^ w.bits) := by
  have hmask := w.toNat_mask_ofInt v.toInt
  rw [Int64.ofInt_toInt] at hmask
  rw [readUnsigned, decode_encode, Option.map_some, hmask]

theorem readSigned_encode (w : Width) (v : Int64) :
    w.readSigned (w.encode v.toUInt64) = some (v.toInt.bmod (2 ^ w.bits)) := by
  have hmask := w.signed_mask_ofInt v.toInt
  rw [Int64.ofInt_toInt] at hmask
  rw [readSigned, decode_encode, Option.map_some, hmask]

/-- Read as unsigned, the numbers that are given back are the unsigned ones. -/
theorem readUnsigned_encode_eq_iff (w : Width) (v : Int64) :
    w.readUnsigned (w.encode v.toUInt64) = some v.toInt ↔ 0 ≤ v.toInt ∧ v.toInt < 2 ^ w.bits := by
  have hpos : (0 : Int) < 2 ^ w.bits := Int.pow_pos (by decide)
  rw [readUnsigned_encode, Option.some_inj]
  constructor
  · intro h
    have hnonneg := Int.emod_nonneg v.toInt (Int.ne_of_gt hpos)
    have hlt := Int.emod_lt_of_pos v.toInt hpos
    omega
  · rintro ⟨hnonneg, hlt⟩
    exact Int.emod_eq_of_lt hnonneg hlt

/-- Read in two's complement, the numbers that are given back are the signed ones. -/
theorem readSigned_encode_eq_iff (w : Width) (v : Int64) :
    w.readSigned (w.encode v.toUInt64) = some v.toInt ↔
      -2 ^ (w.bits - 1) ≤ v.toInt ∧ v.toInt < 2 ^ (w.bits - 1) := by
  have hpos : 0 < 2 ^ w.bits := Nat.two_pow_pos _
  have hlow := Int.le_bmod (x := v.toInt) hpos
  have hhigh := Int.bmod_lt (x := v.toInt) hpos
  rw [readSigned_encode, Option.some_inj]
  constructor
  · intro h
    rw [h] at hlow hhigh
    cases w <;> simp only [bits] at hlow hhigh ⊢ <;> omega
  · rintro ⟨hle, hlt⟩
    apply Int.bmod_eq_of_le
    · cases w <;> simp only [bits] at hle ⊢ <;> omega
    · cases w <;> simp only [bits] at hlt ⊢ <;> omega

/-- **A width keeps the low bits and nothing else.** What is written has the bytes of the width and
is read back, whatever follows it, as the number modulo the range. What is read is written again as
the bytes it was read from, and nothing is read only where bytes are lacking. The signed numbers
that fit are those that one of the two readings gives back. -/
theorem codec_exact (w : Width) :
    (∀ v rest, (w.encode v).length = w.bits / 8 ∧
      ∃ u, w.decode (w.encode v ++ rest) = some u ∧ u.toNat = v.toNat % 2 ^ w.bits) ∧
    (∀ bs : Bytes, w.bits / 8 ≤ bs.length →
      ∃ u, w.decode bs = some u ∧ w.encode u = bs.take (w.bits / 8)) ∧
    (∀ bs, w.decode bs = none ↔ bs.length < w.bits / 8) ∧
    ∀ v : Int64, w.fitsValue v = true ↔
      w.readUnsigned (w.encode v.toUInt64) = some v.toInt ∨
        w.readSigned (w.encode v.toUInt64) = some v.toInt := by
  rw [← bytes_eq_bits_div]
  refine ⟨fun v rest => ⟨w.length_encode v, w.mask v, w.decode_encode_append v rest, ?_⟩, ?_,
    w.decode_eq_none_iff, ?_⟩
  · rw [toNat_mask, range_eq_two_pow]
  · intro bs hle
    cases hdecode : w.decode bs with
    | none => exact absurd ((w.decode_eq_none_iff bs).mp hdecode) (Nat.not_lt.mpr hle)
    | some u => exact ⟨u, rfl, encode_of_decode hdecode⟩
  · intro v
    rw [fitsValue_iff, readUnsigned_encode_eq_iff, readSigned_encode_eq_iff]
    -- the two ranges overlap from zero to the largest signed number
    cases w <;> simp only [bits] <;> omega

theorem codec_exact_front :
    Width.w16.bits / 8 ≤ [0x34, 0x92, (0xff : UInt8)].length ∧
    ∃ u, Width.w16.decode [0x34, 0x92, 0xff] = some u ∧ Width.w16.encode u = [0x34, 0x92] :=
  ⟨by decide, (codec_exact .w16).2.1 [0x34, 0x92, 0xff] (by decide)⟩

end StackAsm.Width
