import StackAsm.Proofs.Pool

/-!
# The pool of constants over time

Constants are registered one after the other, and some are refused. Whatever was registered before,
the pool is well-formed and has only grown since. So what was registered is found at its index for
good, and two indices are the same exactly if the constants are. Only a constant without bytes, or a
new one when there is no index left, is refused (`Lawful`).
-/

namespace StackAsm.Pool

variable {pool pool' : Pool} {bytes : Bytes} {i : UInt8}

/-- The pool after an attempt to register a constant, taken in or refused. -/
def tryRegister (pool : Pool) (bytes : Bytes) : Pool := stateAfter (add bytes pool)

/-- The pool after attempts to register constants, one after the other. -/
def registerAll (pool : Pool) (attempts : List Bytes) : Pool := attempts.foldl tryRegister pool

theorem grows_tryRegister (pool : Pool) (bytes : Bytes) : pool.Grows (pool.tryRegister bytes) := by
  rw [tryRegister]
  cases h : add bytes pool with
  | ok i pool' => exact grows_register (register_eq_ok.mpr h)
  | error e pool' =>
    rw [eq_of_add_error h]
    exact .refl pool

theorem grows_registerAll (pool : Pool) (attempts : List Bytes) :
    pool.Grows (pool.registerAll attempts) := by
  induction attempts generalizing pool with
  | nil => exact .refl pool
  | cons bytes attempts ih => exact (grows_tryRegister pool bytes).trans (ih _)

/-! ### One attempt -/

/-- A constant that is there already is registered without a change. -/
theorem register_of_mem (hne : bytes ≠ []) (h : bytes ∈ pool.entries) :
    ∃ i, pool.register bytes = .ok (i, pool) := by
  have hsome : (pool.entries.idxOf? bytes).isSome = true := by simpa using h
  obtain ⟨k, hk⟩ := Option.isSome_iff_exists.mp hsome
  refine ⟨UInt8.ofNat k, ?_⟩
  rw [register_eq_ok, add_eq, if_neg hne, hk]

/-- A new constant is registered as long as there is an index left. -/
theorem register_of_notMem (hne : bytes ≠ []) (h : bytes ∉ pool.entries) :
    pool.register bytes =
      if Limit.constants ≤ pool.size then .error .full
      else .ok (UInt8.ofNat pool.size, ⟨pool.entries ++ [bytes]⟩) := by
  rw [register, add_eq, if_neg hne, List.idxOf?_eq_none_iff.mpr h]
  by_cases hfull : Limit.constants ≤ pool.size
  · simp [hfull]
  · simp [hfull]

theorem register_eq_empty_iff : pool.register bytes = .error .empty ↔ bytes = [] := by
  constructor
  · intro h
    by_contra hne
    by_cases hmem : bytes ∈ pool.entries
    · obtain ⟨i, hi⟩ := register_of_mem hne hmem
      simp [hi] at h
    · rw [register_of_notMem hne hmem] at h
      split at h <;> simp at h
  · rintro rfl
    simp [register, add_eq]

theorem register_eq_full_iff :
    pool.register bytes = .error .full ↔
      bytes ≠ [] ∧ bytes ∉ pool.entries ∧ Limit.constants ≤ pool.size := by
  by_cases hne : bytes = []
  · simp [register, add_eq, hne]
  · by_cases hmem : bytes ∈ pool.entries
    · obtain ⟨i, hi⟩ := register_of_mem hne hmem
      simp [hi, hmem]
    · rw [register_of_notMem hne hmem]
      simp [hne, hmem]

/-! ### Any attempts -/

/-- What holds of the pool and of the attempts to register constants from here on. -/
structure Lawful (pool : Pool) : Prop where
  /-- No constant stands in the pool twice. -/
  distinct : pool.entries.Nodup
  /-- Every constant has bytes. -/
  filled : ∀ entry ∈ pool.entries, entry ≠ []
  /-- There are no more than 255. -/
  size_le : pool.size ≤ 255
  /-- A constant that is registered is found at its index, now and after any further attempts. -/
  found {bytes : Bytes} {i : UInt8} {pool' : Pool} (h : pool.register bytes = .ok (i, pool'))
    (later : List Bytes) : (pool'.registerAll later).get? i = some bytes
  /-- Now and later, the index is the same exactly if the constant is. -/
  index_eq_iff {bytes other : Bytes} {i j : UInt8} {pool' pool'' : Pool} {later : List Bytes}
    (h : pool.register bytes = .ok (i, pool'))
    (hlater : (pool'.registerAll later).register other = .ok (j, pool'')) : i = j ↔ bytes = other
  /-- A constant that is there already is registered without a change, also when no index is
  left. -/
  present : ∀ bytes ∈ pool.entries, ∃ i, pool.register bytes = .ok (i, pool)
  /-- A constant is refused as empty exactly if it has no bytes. -/
  empty_iff (bytes : Bytes) : pool.register bytes = .error .empty ↔ bytes = []
  /-- One with bytes is refused exactly if it is new and there are 255 already. -/
  full_iff (bytes : Bytes) : pool.register bytes = .error .full ↔
    bytes ≠ [] ∧ bytes ∉ pool.entries ∧ pool.size = 255
  /-- An attempt that is refused changes nothing. -/
  refused {bytes : Bytes} {e : PoolError} (h : pool.register bytes = .error e) :
    add bytes pool = .error e pool

/-- What two attempts have registered is the same exactly if it has the same index. -/
theorem WellFormed.index_eq_iff (hpool : pool.WellFormed) {other : Bytes} {j : UInt8}
    {pool'' : Pool} {later : List Bytes} (h : pool.register bytes = .ok (i, pool'))
    (hlater : (pool'.registerAll later).register other = .ok (j, pool'')) :
    i = j ↔ bytes = other := by
  have hgrows := grows_registerAll pool' later
  have hwell := hgrows.wellFormed ((grows_register h).wellFormed hpool)
  have hold : pool''.get? i = some bytes :=
    (grows_register hlater).get? (hgrows.get? (hpool.get?_register h))
  have hnew : pool''.get? j = some other := hwell.get?_register hlater
  constructor
  · rintro rfl
    exact Option.some.inj (hold.symm.trans hnew)
  · rintro rfl
    exact ((grows_register hlater).wellFormed hwell).get?_inj hold hnew

theorem WellFormed.lawful (hpool : pool.WellFormed) : pool.Lawful where
  distinct := hpool.distinct
  filled entry hentry := by
    rintro rfl
    exact hpool.filled hentry
  size_le := hpool.size_le
  found h later := (grows_registerAll _ later).get? (hpool.get?_register h)
  index_eq_iff h hlater := hpool.index_eq_iff h hlater
  present bytes hmem := by
    refine register_of_mem ?_ hmem
    rintro rfl
    exact hpool.filled hmem
  empty_iff _ := register_eq_empty_iff
  full_iff _ := by
    have hle : pool.size ≤ 255 := hpool.size_le
    have hfull : Limit.constants ≤ pool.size ↔ pool.size = 255 := by
      simp only [Limit.constants]
      omega
    rw [register_eq_full_iff, hfull]
  refused h := add_of_refused h

/-- **A pool keeps to its laws**, whatever was registered or refused before. -/
theorem lawful_registerAll (attempts : List Bytes) : (empty.registerAll attempts).Lawful :=
  ((grows_registerAll empty attempts).wellFormed wellFormed_empty).lawful

/-- In a pool with 255 constants there is no room for another, and the first is where it was. -/
example :
    (⟨(List.range 255).map fun n => [UInt8.ofNat n]⟩ : Pool).register [7, 7] = .error .full ∧
      ((⟨(List.range 255).map fun n => [UInt8.ofNat n]⟩ : Pool).register [0]).map Prod.fst =
        .ok 0 := by
  decide +kernel

end StackAsm.Pool
