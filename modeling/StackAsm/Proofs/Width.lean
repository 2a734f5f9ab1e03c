import StackAsm.Width
import Mathlib.Algebra.Group.Nat.Defs
import Mathlib.Algebra.Group.Int.Defs
import Mathlib.Data.List.Nodup
import Mathlib.Data.List.Perm.Subperm

/-!
# Numbers as bytes

The masks and shifts at a width are arithmetic modulo the range of the width, which is the power of
two with the bits of the width. A number written at a width is as many bytes as the width has, and
reading them back gives the number modulo the range. So nothing is lost of a number below the range,
and lengths are only ever written below it. In turn, as many bytes as the width has stand for a
number below the range and are what this number is written as. A signed number that is cut to the
width is read back as a signed number up to a multiple of the range.
-/

namespace StackAsm.Width

/-! ### Low bytes -/

/-- The `count` low bytes of `n`, least significant first. -/
def lowBytes : (count n : Nat) → Bytes
  | 0, _ => []
  | count + 1, n => UInt8.ofNat (n % 256) :: lowBytes count (n / 256)

/-- The natural number whose bytes these are, least significant first. -/
def ofLowBytes : Bytes → Nat
  | [] => 0
  | b :: bs => b.toNat + 256 * ofLowBytes bs

@[simp] theorem length_lowBytes (count n : Nat) : (lowBytes count n).length = count := by
  induction count generalizing n with
  | zero => rfl
  | succ count ih => simp [lowBytes, ih]

/-- Reading back the low bytes of a number gives the number modulo what they can hold. -/
theorem ofLowBytes_lowBytes (count n : Nat) :
    ofLowBytes (lowBytes count n) = n % 256 ^ count := by
  induction count generalizing n with
  | zero => simp [lowBytes, ofLowBytes, Nat.mod_one]
  | succ count ih =>
    have hb : (UInt8.ofNat (n % 256)).toNat = n % 256 := by simp
    rw [lowBytes, ofLowBytes, ih, hb, Nat.pow_succ, Nat.mul_comm (256 ^ count) 256, Nat.mod_mul]

/-- The low bytes of the number that some bytes stand for are these bytes. -/
theorem lowBytes_ofLowBytes (bs : Bytes) : lowBytes bs.length (ofLowBytes bs) = bs := by
  induction bs with
  | nil => rfl
  | cons b bs ih =>
    have hb := b.toNat_lt
    have hlow : (b.toNat + 256 * ofLowBytes bs) % 256 = b.toNat := by omega
    have hhigh : (b.toNat + 256 * ofLowBytes bs) / 256 = ofLowBytes bs := by omega
    rw [List.length_cons, ofLowBytes, lowBytes, hlow, hhigh, ih, UInt8.ofNat_toNat]

/-- The low bytes depend on what they can hold only. -/
theorem lowBytes_mod (count n : Nat) : lowBytes count (n % 256 ^ count) = lowBytes count n := by
  have h := lowBytes_ofLowBytes (lowBytes count n)
  rwa [length_lowBytes, ofLowBytes_lowBytes] at h

theorem ofLowBytes_lt (bs : Bytes) : ofLowBytes bs < 256 ^ bs.length := by
  induction bs with
  | nil => decide
  | cons b bs ih =>
    have hb := b.toNat_lt
    rw [ofLowBytes, List.length_cons, Nat.pow_succ]
    omega

/-- High bytes that are zero add nothing. -/
theorem ofLowBytes_append_zeros (bs : Bytes) (count : Nat) :
    ofLowBytes (bs ++ List.replicate count 0) = ofLowBytes bs := by
  induction bs with
  | nil =>
    induction count with
    | zero => rfl
    | succ count ih =>
      have hzeros : ofLowBytes (List.replicate count 0) = 0 := ih
      simp [List.replicate_succ, ofLowBytes, hzeros]
  | cons b bs ih => rw [List.cons_append, ofLowBytes, ih, ofLowBytes]

/-- A byte at a time, the number is shifted to the right. -/
theorem lowBytes_eq_map (count n : Nat) :
    lowBytes count n = (List.range count).map fun i => UInt8.ofNat (n >>> (8 * i)) := by
  induction count generalizing n with
  | zero => rfl
  | succ count ih =>
    have hfirst : UInt8.ofNat (n % 256) = UInt8.ofNat (n >>> (8 * 0)) :=
      UInt8.toNat_inj.mp (by simp)
    rw [lowBytes, ih, List.range_succ_eq_map, List.map_cons, List.map_map, hfirst]
    refine congrArg (List.cons _) (List.map_congr_left fun i _ => ?_)
    rw [Function.comp_apply, Nat.mul_succ, Nat.add_comm, Nat.shiftRight_add,
      Nat.shiftRight_eq_div_pow n 8]

theorem littleEndian_eq (v : UInt64) : littleEndian v = lowBytes 8 v.toNat := by
  rw [littleEndian, lowBytes_eq_map]
  refine List.map_congr_left fun i hi => UInt8.toNat_inj.mp ?_
  have hlt : 8 * i < 64 := by
    have := List.mem_range.mp hi
    omega
  have hshift : (UInt64.ofNat (8 * i)).toNat % 64 = 8 * i := by
    rw [UInt64.toNat_ofNat']
    omega
  rw [UInt64.toNat_toUInt8, UInt64.toNat_shiftRight, hshift, UInt8.toNat_ofNat']

/-- A byte that is put below a number fills the bits that the shift has freed. -/
theorem toNat_shiftLeft_or (v : UInt64) (b : UInt8) :
    (v <<< 8 ||| b.toUInt64).toNat = (b.toNat + 256 * v.toNat) % 2 ^ 64 := by
  have hb := b.toNat_lt
  have hv := v.toNat_lt
  have hkept : v.toNat <<< 8 % 2 ^ 64 = (v.toNat % 2 ^ 56) <<< 8 := by
    rw [Nat.shiftLeft_eq, Nat.shiftLeft_eq]
    omega
  rw [UInt64.toNat_or, UInt64.toNat_shiftLeft, UInt8.toNat_toUInt64]
  show v.toNat <<< 8 % 2 ^ 64 ||| b.toNat = _
  rw [hkept, ← Nat.shiftLeft_add_eq_or_of_lt hb, Nat.shiftLeft_eq]
  omega

theorem toNat_ofLittleEndian (bs : Bytes) :
    (ofLittleEndian bs).toNat = ofLowBytes bs % 2 ^ 64 := by
  induction bs with
  | nil => rfl
  | cons b bs ih =>
    rw [ofLittleEndian, List.foldr_cons, toNat_shiftLeft_or]
    rw [ofLittleEndian] at ih
    rw [ih, ofLowBytes]
    omega

/-! ### Ranges -/

/-- How many numbers the width can tell apart. -/
def range : Width → Nat
  | w8 => 0x100
  | w16 => 0x10000
  | w32 => 0x100000000
  | w64 => 0x10000000000000000

theorem range_eq_pow (w : Width) : w.range = 256 ^ w.bytes := by
  cases w <;> rfl

theorem range_eq_two_pow (w : Width) : w.range = 2 ^ w.bits := by
  cases w <;> rfl

theorem range_pos (w : Width) : 0 < w.range := by
  cases w <;> decide

theorem range_le_size (w : Width) : w.range ≤ UInt64.size := by
  cases w <;> decide

theorem toNat_maxUnsigned (w : Width) : w.maxUnsigned.toNat = w.range - 1 := by
  cases w <;> rfl

/-- The mask keeps the remainder. -/
theorem toNat_mask (w : Width) (v : UInt64) : (w.mask v).toNat = v.toNat % w.range := by
  rw [mask, UInt64.toNat_and, toNat_maxUnsigned, range_eq_two_pow, Nat.and_two_pow_sub_one_eq_mod]

theorem mask_of_lt {w : Width} {v : UInt64} (h : v.toNat < w.range) : w.mask v = v := by
  apply UInt64.toNat_inj.mp
  rw [toNat_mask, Nat.mod_eq_of_lt h]

/-- The lengths that fit are those below the range. -/
theorem fitsLength_iff (w : Width) (n : Nat) : w.fitsLength n = true ↔ n < w.range := by
  have hsize := w.range_le_size
  have hpos := w.range_pos
  rw [fitsLength, Bool.and_eq_true, decide_eq_true_eq, decide_eq_true_eq, UInt64.le_iff_toNat_le,
    UInt64.toNat_ofNat', toNat_maxUnsigned]
  constructor
  · rintro ⟨hlt, hle⟩
    rw [Nat.mod_eq_of_lt hlt] at hle
    omega
  · intro h
    have hlt := Nat.lt_of_lt_of_le h hsize
    rw [Nat.mod_eq_of_lt hlt]
    exact ⟨hlt, by omega⟩

/-- A number fits a width if it is one of its signed or unsigned numbers. -/
theorem fitsValue_iff (w : Width) (v : Int64) :
    w.fitsValue v = true ↔ -2 ^ (w.bits - 1) ≤ v.toInt ∧ v.toInt ≤ 2 ^ w.bits - 1 := by
  cases w with
  | w64 =>
    have hlow := v.le_toInt
    have hhigh := v.toInt_lt
    simp only [fitsValue, bits, true_iff]
    omega
  | w8 | w16 | w32 =>
    unfold fitsValue
    dsimp only
    rw [Bool.and_eq_true, decide_eq_true_eq, decide_eq_true_eq, Int64.le_iff_toInt_le,
      Int64.le_iff_toInt_le]
    exact Iff.rfl

/-! ### Encoding -/

/-- Only the bits of the width are written. -/
theorem encode_eq (w : Width) (v : UInt64) : w.encode v = lowBytes w.bytes v.toNat := by
  have hle : w.bytes ≤ 8 := by cases w <;> decide
  rw [← lowBytes_mod, ← range_eq_pow, ← toNat_mask, encode, littleEndian_eq, lowBytes_eq_map,
    lowBytes_eq_map, ← List.map_take, List.take_range, Nat.min_eq_left hle]

/-- The bytes that the width has are read. -/
theorem decode_eq (w : Width) (bs : Bytes) :
    w.decode bs =
      if w.bytes ≤ bs.length then some (UInt64.ofNat (ofLowBytes (bs.take w.bytes))) else none := by
  rw [decode]
  split
  · refine congrArg some (UInt64.toNat_inj.mp ?_)
    rw [toNat_ofLittleEndian, ofLowBytes_append_zeros, UInt64.toNat_ofNat']
  · rfl

@[simp] theorem length_encode (w : Width) (v : UInt64) : (w.encode v).length = w.bytes := by
  rw [encode_eq, length_lowBytes]

theorem ofLowBytes_encode (w : Width) (v : UInt64) :
    ofLowBytes (w.encode v) = v.toNat % w.range := by
  rw [encode_eq, ofLowBytes_lowBytes, range_eq_pow]

theorem ofLowBytes_lt_range {w : Width} {bs : Bytes} (h : bs.length = w.bytes) :
    ofLowBytes bs < w.range := by
  rw [range_eq_pow, ← h]
  exact ofLowBytes_lt bs

/-- As many bytes as the width has are what their number is written as. -/
theorem encode_ofLowBytes {w : Width} {bs : Bytes} (h : bs.length = w.bytes) :
    w.encode (UInt64.ofNat (ofLowBytes bs)) = bs := by
  have hlt : ofLowBytes bs < 2 ^ 64 := Nat.lt_of_lt_of_le (ofLowBytes_lt_range h) w.range_le_size
  rw [encode_eq, UInt64.toNat_ofNat', Nat.mod_eq_of_lt hlt, ← h, lowBytes_ofLowBytes]

/-- What is read at the front of a number that was written is the number, cut to the width. -/
theorem decode_encode_append (w : Width) (v : UInt64) (rest : Bytes) :
    w.decode (w.encode v ++ rest) = some (w.mask v) := by
  have hle : w.bytes ≤ (w.encode v ++ rest).length := by simp
  rw [decode_eq, if_pos hle, List.take_left' (w.length_encode v), ofLowBytes_encode, ← toNat_mask,
    UInt64.ofNat_toNat]

/-- As many bytes as the width has are read as the number that they are written from. -/
theorem exists_decode {w : Width} {bs : Bytes} (h : bs.length = w.bytes) :
    ∃ n, w.decode bs = some n ∧ n.toNat < w.range ∧ w.encode n = bs := by
  have hlt := ofLowBytes_lt_range h
  refine ⟨UInt64.ofNat (ofLowBytes bs), ?_, ?_, encode_ofLowBytes h⟩
  · rw [decode_eq, if_pos (Nat.le_of_eq h.symm), List.take_of_length_le (Nat.le_of_eq h)]
  · rw [UInt64.toNat_ofNat', Nat.mod_eq_of_lt (Nat.lt_of_lt_of_le hlt w.range_le_size)]
    exact hlt

/-! ### Low bytes of signed numbers -/

/-- The low byte of a number that is a byte is the number. -/
theorem toNat_lowByte {v : Int64} (h : 0 ≤ v.toInt) (h' : v.toInt ≤ 255) :
    (v.toUInt64.toUInt8.toNat : Int) = v.toInt := by
  have hbits : v.toUInt64.toNat = v.toBitVec.toNat := rfl
  have hv : v.toInt = _ := BitVec.toInt_eq_toNat_cond v.toBitVec
  have hlt := v.toUInt64.toNat_lt
  rw [UInt64.toNat_toUInt8]
  rw [← hbits] at hv
  split at hv <;> omega

/-! ### Signed numbers at a width -/

/-- The bits of a number, read as a two's complement number of the width. -/
def signed (w : Width) (raw : UInt64) : Int := (BitVec.ofNat w.bits raw.toNat).toInt

theorem signed_lt (w : Width) (raw : UInt64) : w.signed raw < 2 ^ (w.bits - 1) := BitVec.toInt_lt

/-- A signed number is cut to its remainder. -/
theorem toNat_mask_ofInt (w : Width) (x : Int) :
    ((w.mask (Int64.ofInt x).toUInt64).toNat : Int) = x % 2 ^ w.bits := by
  have hbits : (Int64.ofInt x).toUInt64.toNat = (x % 2 ^ 64).toNat := by
    show (Int64.ofInt x).toBitVec.toNat = _
    rw [Int64.toBitVec_ofInt, BitVec.toNat_ofInt]
    rfl
  have hdvd : (2 : Int) ^ w.bits ∣ 2 ^ 64 := by cases w <;> decide
  rw [toNat_mask, hbits, range_eq_two_pow, Int.natCast_emod,
    Int.toNat_of_nonneg (Int.emod_nonneg x (by decide)), Int.natCast_pow]
  exact Int.emod_emod_of_dvd x hdvd

theorem signed_mask_ofInt (w : Width) (x : Int) :
    w.signed (w.mask (Int64.ofInt x).toUInt64) = x.bmod (2 ^ w.bits) := by
  rw [signed, BitVec.toInt_ofNat', toNat_mask_ofInt]
  have hmod := Int.emod_bmod x (2 ^ w.bits)
  rwa [Int.natCast_pow] at hmod

/-- What is written of a signed number is its remainder. -/
theorem ofLowBytes_encode_toUInt64 (w : Width) (v : Int64) :
    (ofLowBytes (w.encode v.toUInt64) : Int) = v.toInt % 2 ^ w.bits := by
  have hmask := w.toNat_mask_ofInt v.toInt
  rw [Int64.ofInt_toInt, toNat_mask] at hmask
  rw [ofLowBytes_encode, hmask]

/-- Of a number that fits, only the sign is lost. -/
theorem ofLowBytes_encode_of_fitsValue {w : Width} {v : Int64} (h : w.fitsValue v = true) :
    (ofLowBytes (w.encode v.toUInt64) : Int) =
      if v.toInt < 0 then v.toInt + 2 ^ w.bits else v.toInt := by
  obtain ⟨hlow, hhigh⟩ := (w.fitsValue_iff v).mp h
  rw [ofLowBytes_encode_toUInt64]
  split
  · cases w <;> simp only [bits] at hlow ⊢ <;> omega
  · exact Int.emod_eq_of_lt (by omega) (by omega)

/-- There are no more different bytes up to a bound than numbers. -/
theorem length_le_of_nodup_bytes {bound : Nat} {bytes : List UInt8} (hnodup : bytes.Nodup)
    (hrange : ∀ b ∈ bytes, b.toNat ≤ bound) : bytes.length ≤ bound + 1 := by
  have hsub : bytes.map UInt8.toNat ⊆ List.range (bound + 1) := by
    intro n hn
    obtain ⟨b, hb, rfl⟩ := List.mem_map.mp hn
    exact List.mem_range.mpr (Nat.lt_succ_of_le (hrange b hb))
  have hnodup' := hnodup.map fun i j => UInt8.toNat_inj.mp
  simpa using (List.subperm_of_subset hnodup' hsub).length_le

end StackAsm.Width
