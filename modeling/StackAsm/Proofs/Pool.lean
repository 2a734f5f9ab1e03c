import StackAsm.Pool
import StackAsm.Proofs.Effects
import Mathlib.Data.List.Infix
import Mathlib.Data.List.Nodup

/-!
# The pool of constants as it grows

Entries are only ever added at the end, so a constant that was registered is found at its index
from then on. No constant is added twice or without bytes, and no more than 255 are taken in; so an
index is a byte, and a constant has no other.
-/

namespace StackAsm.Pool

variable {pool pool' : Pool} {bytes : Bytes} {i j : UInt8}

/-- No constant stands twice, none is empty, and every index is a byte. -/
structure WellFormed (pool : Pool) : Prop where
  distinct : pool.entries.Nodup
  filled : [] ∉ pool.entries
  size_le : pool.size ≤ Limit.constants

theorem wellFormed_empty : WellFormed {} := ⟨List.nodup_nil, List.not_mem_nil, Nat.zero_le _⟩

theorem add_eq (bytes : Bytes) (pool : Pool) :
    add bytes pool =
      if bytes = [] then .error .empty pool
      else
        match pool.entries.idxOf? bytes with
        | some k => .ok (UInt8.ofNat k) pool
        | none =>
          if Limit.constants ≤ pool.size then .error .full pool
          else .ok (UInt8.ofNat pool.size) ⟨pool.entries ++ [bytes]⟩ := by
  have hget : (get : EStateM PoolError Pool Pool) pool = .ok pool pool := rfl
  have hlast : (⟨pool.entries ++ [bytes]⟩ : Pool).size - 1 = pool.size := by
    rw [size, List.length_append, List.length_singleton, Nat.add_sub_cancel]
    rfl
  rw [add, estate_bind_of_ok hget]
  split
  · rfl
  · cases pool.entries.idxOf? bytes with
    | some k => rfl
    | none =>
      dsimp only
      split
      · rfl
      · rw [← hlast]
        rfl

theorem register_eq_ok : pool.register bytes = .ok (i, pool') ↔ add bytes pool = .ok i pool' := by
  rw [register]
  cases add bytes pool with
  | ok k pool₁ => simp
  | error e pool₁ => simp

/-- A constant is registered where it stands already, or at the end if it is new. -/
theorem register_cases (h : pool.register bytes = .ok (i, pool')) :
    (∃ k, pool.entries.idxOf? bytes = some k ∧ i = UInt8.ofNat k ∧ pool' = pool) ∨
      (bytes ≠ [] ∧ bytes ∉ pool.entries ∧ pool.size < Limit.constants ∧
        i = UInt8.ofNat pool.size ∧ pool' = ⟨pool.entries ++ [bytes]⟩) := by
  rw [register_eq_ok, add_eq] at h
  split at h
  · cases h
  · next hne =>
    split at h
    · next k hk =>
      cases h
      exact .inl ⟨k, hk, rfl, rfl⟩
    · next hnew =>
      split at h
      · cases h
      · next hroom =>
        cases h
        exact .inr ⟨hne, List.idxOf?_eq_none_iff.mp hnew, Nat.lt_of_not_le hroom, rfl, rfl⟩

/-- A refusal comes before any change. -/
theorem eq_of_add_error {e : PoolError} (h : add bytes pool = .error e pool') : pool' = pool := by
  rw [add_eq] at h
  split at h
  · cases h
    rfl
  · split at h
    · cases h
    · split at h
      · cases h
        rfl
      · cases h

theorem add_of_refused {e : PoolError} (h : pool.register bytes = .error e) :
    add bytes pool = .error e pool := by
  cases hadd : add bytes pool with
  | ok k pool₁ =>
    rw [register, hadd] at h
    cases h
  | error e' pool₁ =>
    rw [register, hadd] at h
    cases h
    rw [eq_of_add_error hadd]

/-- The pool has grown: nothing that was in it has moved, and it stays as it has to be. -/
structure Grows (pool pool' : Pool) : Prop where
  entries : pool.entries <+: pool'.entries
  wellFormed : pool.WellFormed → pool'.WellFormed

theorem Grows.refl (pool : Pool) : pool.Grows pool := ⟨List.prefix_rfl, id⟩

theorem Grows.trans {pool₁ : Pool} (h : pool.Grows pool₁) (h' : pool₁.Grows pool') :
    pool.Grows pool' :=
  ⟨h.entries.trans h'.entries, fun hpool => h'.wellFormed (h.wellFormed hpool)⟩

theorem grows_register (h : pool.register bytes = .ok (i, pool')) : pool.Grows pool' := by
  obtain ⟨k, -, -, rfl⟩ | ⟨hne, hnew, hroom, -, rfl⟩ := register_cases h
  · exact .refl _
  · refine ⟨List.prefix_append _ _, fun hpool => ⟨?_, ?_, ?_⟩⟩
    · exact hpool.distinct.append (List.nodup_singleton _) (List.disjoint_singleton.mpr hnew)
    · simpa using ⟨hpool.filled, hne⟩
    · rw [size, List.length_append, List.length_singleton]
      exact hroom

/-- An index below the number of constants is a byte. -/
theorem WellFormed.toNat_index (hpool : pool.WellFormed) {k : Nat} (hk : k ≤ pool.size) :
    (UInt8.ofNat k).toNat = k := by
  have hle : k ≤ 255 := Nat.le_trans hk hpool.size_le
  rw [UInt8.toNat_ofNat', Nat.mod_eq_of_lt (by omega)]

/-- A constant is found where it was registered. -/
theorem WellFormed.get?_register (hpool : pool.WellFormed)
    (h : pool.register bytes = .ok (i, pool')) : pool'.get? i = some bytes := by
  obtain ⟨k, hk, rfl, rfl⟩ | ⟨-, -, -, rfl, rfl⟩ := register_cases h
  · obtain ⟨hlt, hat, -⟩ := List.idxOf?_eq_some_iff.mp hk
    rw [get?, hpool.toNat_index (Nat.le_of_lt hlt), List.getElem?_eq_getElem hlt, hat]
  · rw [get?, hpool.toNat_index (Nat.le_refl _), size, List.getElem?_concat_length]

/-- What is found in the pool is found below its size. -/
theorem lt_size_of_get? (h : pool.get? i = some bytes) : i.toNat < pool.size :=
  (List.getElem?_eq_some_iff.mp h).1

/-- What is found at an index is found there as long as the pool only grows. -/
theorem Grows.get? (h : pool.Grows pool') (hi : pool.get? i = some bytes) :
    pool'.get? i = some bytes := by
  obtain ⟨added, hadded⟩ := h.entries
  rw [Pool.get?, ← hadded, List.getElem?_append_left (lt_size_of_get? hi)]
  exact hi

/-- A constant has one index only. -/
theorem WellFormed.get?_inj (hpool : pool.WellFormed) (hi : pool.get? i = some bytes)
    (hj : pool.get? j = some bytes) : i = j := by
  refine UInt8.toNat_inj.mp ((List.getElem?_inj (lt_size_of_get? hi) hpool.distinct).mp ?_)
  exact hi.trans hj.symm

end StackAsm.Pool
