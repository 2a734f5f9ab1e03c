import StackAsm.Text.Lowercase
import StackAsm.Text.Numeral
import Mathlib.Data.List.Basic

/-!
# Numerals and small letters

A number is read back from its decimal numeral, from one end of the range to the other: the range
reaches further below zero than above, and the numeral is read with the limit of its sign. A text of
ASCII characters is put in lower case character by character.
-/

namespace StackAsm.Text

/-! ### Numerals -/

theorem digitValue?_of_isDigit {c : Char} (h : c.isDigit = true) :
    digitValue? 10 c = some (c.toNat - '0'.toNat) := by
  have hrange : 48 ≤ c.toNat ∧ c.toNat ≤ 57 := Char.isDigit_iff_toNat.mp h
  have hdigit : '0' ≤ c ∧ c ≤ '9' := by
    simp only [Char.le_def, UInt32.le_iff_toNat_le]
    exact hrange
  simp only [digitValue?, hdigit, and_self, if_true]
  refine Option.filter_some_pos (decide_eq_true ?_)
  show c.toNat - 48 < 10
  omega

/-- A numeral does not become smaller by further digits. -/
theorem le_ofDigitChars (n : Nat) (cs : List Char) : n ≤ Nat.ofDigitChars 10 cs n := by
  induction cs generalizing n with
  | nil => exact Nat.le_refl n
  | cons c cs ih =>
    rw [Nat.ofDigitChars_cons]
    have hrest := ih (10 * n + (c.toNat - '0'.toNat))
    omega

/-- Digits are read up to the limit. -/
theorem readDigits_of_le {limit : Nat} {excess : NumeralError} {cs : List Char}
    (hdigits : ∀ c ∈ cs, c.isDigit = true) {n : Nat} (hle : Nat.ofDigitChars 10 cs n ≤ limit) :
    readDigits 10 limit excess n cs = .ok (Nat.ofDigitChars 10 cs n) := by
  induction cs generalizing n with
  | nil => rfl
  | cons c cs ih =>
    obtain ⟨hc, hcs⟩ := List.forall_mem_cons.mp hdigits
    rw [Nat.ofDigitChars_cons, Nat.mul_comm] at hle ⊢
    -- what is read so far lies within the limit because the whole does
    have hsofar := Nat.le_trans (le_ofDigitChars _ cs) hle
    rw [readDigits, digitValue?_of_isDigit hc]
    dsimp only
    rw [if_pos hsofar, ih hcs hle]

theorem readDigits_toDigits {limit m : Nat} {excess : NumeralError} (hle : m ≤ limit) :
    readDigits 10 limit excess 0 (Nat.toDigits 10 m) = .ok m := by
  have hdigits : ∀ c ∈ Nat.toDigits 10 m, c.isDigit = true := fun c hc =>
    Nat.isDigit_of_mem_toDigits (by decide) (by decide) hc
  have hvalue : Nat.ofDigitChars 10 (Nat.toDigits 10 m) 0 = m := Nat.ofDigitChars_ten_toDigits
  rw [readDigits_of_le hdigits (by rwa [hvalue]), hvalue]

/-- A numeral is the digits of a number, with a sign in front if the number lies below zero. -/
theorem decimal_cases (n : Int64) : ∃ m,
    (decimal n).toList = Nat.toDigits 10 m ∧ n.toInt = m ∨
    (decimal n).toList = '-' :: Nat.toDigits 10 m ∧ n.toInt = -m := by
  unfold decimal
  cases n.toInt with
  | ofNat m =>
    refine ⟨m, .inl ⟨?_, rfl⟩⟩
    show (toString m).toList = _
    rw [Nat.toString_eq_ofList_toDigits, String.toList_ofList]
  | negSucc m =>
    refine ⟨m + 1, .inr ⟨?_, rfl⟩⟩
    show ("-" ++ toString (m + 1)).toList = _
    simp

/-- The digits of a number are some. -/
theorem exists_toDigits (m : Nat) : ∃ c cs, Nat.toDigits 10 m = c :: cs ∧ c.isDigit = true ∧
    ∀ d ∈ cs, d.isDigit = true := by
  obtain ⟨c, cs, heq⟩ := List.exists_cons_of_ne_nil (Nat.toDigits_ne_nil (n := m) (b := 10))
  have hdigits : ∀ d ∈ c :: cs, d.isDigit = true := fun d hd =>
    Nat.isDigit_of_mem_toDigits (by decide) (by decide) (heq ▸ hd)
  exact ⟨c, cs, heq, List.forall_mem_cons.mp hdigits⟩

theorem readDecimal_of_digit {s : String} {c : Char} {cs : List Char} (h : s.toList = c :: cs)
    (hc : c.isDigit = true) :
    readDecimal s = (readDigits 10 maxInt64 .tooLarge 0 (c :: cs)).map Int64.ofNat := by
  have hplus : c ≠ '+' := by
    rintro rfl
    cases hc
  have hminus : c ≠ '-' := by
    rintro rfl
    cases hc
  simp [readDecimal, readInt64, h, hplus, hminus]

/-- **A number is read back from its numeral.** -/
theorem readDecimal_decimal (n : Int64) : readDecimal (decimal n) = .ok n := by
  have hlow := Int64.le_toInt n
  have hhigh := Int64.toInt_lt n
  have hback := Int64.ofInt_toInt n
  obtain ⟨m, ⟨htext, hn⟩ | ⟨htext, hn⟩⟩ := decimal_cases n
  · obtain ⟨c, cs, heq, hc, -⟩ := exists_toDigits m
    have hle : m ≤ maxInt64 := by
      rw [maxInt64]
      omega
    rw [readDecimal_of_digit (htext.trans heq) hc, ← heq, readDigits_toDigits hle]
    rw [hn] at hback
    exact congrArg Except.ok hback
  · obtain ⟨c, cs, heq, -⟩ := exists_toDigits m
    have hle : m ≤ maxInt64 + 1 := by
      rw [maxInt64]
      omega
    have hread : readDecimal (decimal n) =
        (readDigits 10 (maxInt64 + 1) .tooSmall 0 (Nat.toDigits 10 m)).map
          fun n => Int64.ofInt (-n) := by
      simp [readDecimal, readInt64, htext, heq]
    rw [hread, readDigits_toDigits hle]
    rw [hn] at hback
    exact congrArg Except.ok hback

/-! ### Small letters -/

theorem toNat_toLower (c : Char) :
    c.toLower.toNat = if 65 ≤ c.toNat ∧ c.toNat ≤ 90 then c.toNat + 32 else c.toNat := by
  have hrange : (c.val ≥ 'A'.val ∧ c.val ≤ 'Z'.val) ↔ 65 ≤ c.toNat ∧ c.toNat ≤ 90 := by
    simp [UInt32.le_iff_toNat_le]
  unfold Char.toLower
  by_cases h : 65 ≤ c.toNat ∧ c.toNat ≤ 90
  · rw [dif_pos (hrange.mpr h), if_pos h]
    show (c.val + ('a'.val - 'A'.val)).toNat = c.toNat + 32
    rw [UInt32.toNat_add]
    exact Nat.mod_eq_of_lt (show c.toNat + 32 < 2 ^ 32 by omega)
  · rw [dif_neg fun hc => h (hrange.mp hc), if_neg h]

/-- An ASCII character in lower case is one. -/
theorem toNat_toLower_lt {c : Char} (h : c.toNat < 0x80) : c.toLower.toNat < 0x80 := by
  rw [toNat_toLower]
  split
  · omega
  · exact h

theorem lowerInto_of_ascii (before done : List Char) {cs : List Char}
    (h : ∀ c ∈ cs, c.toNat < 0x80) :
    lowerInto before done cs = done.reverse ++ cs.map Char.toLower := by
  induction cs generalizing before done with
  | nil => simp [lowerInto]
  | cons c cs ih =>
    obtain ⟨hc, hcs⟩ := List.forall_mem_cons.mp h
    have hsigma : c.toNat ≠ 0x3A3 := by omega
    rw [lowerInto, if_neg hsigma, lowerChar, if_pos hc, ih _ _ hcs]
    simp

/-- A text of ASCII characters is put in lower case character by character. -/
theorem toList_lowercase {s : String} (h : ∀ c ∈ s.toList, c.toNat < 0x80) :
    (lowercase s).toList = s.toList.map Char.toLower := by
  rw [lowercase, lowerInto_of_ascii [] [] h, String.toList_ofList]
  rfl

end StackAsm.Text
