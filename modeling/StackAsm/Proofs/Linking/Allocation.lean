import StackAsm.Proofs.Linking
import Mathlib.Data.Nat.Nth

/-!
# How indices are given to symbols

A symbol that asks for an index gets it, and the others take the free indices in their order. What
is free depends on all symbols, so an index that the last symbol asks for is kept from the first.
There are 255 indices; since no two symbols ask for the same one, they suffice for 255 symbols and
for no more, and a refusal names the first symbol that finds none.
-/

namespace StackAsm.Linking

variable {symbols : List Symbol} {symbol : Symbol} {free indices : List UInt8} {index : UInt8}
  {e : Located Error}

/-! ### One symbol after the other -/

/-- How many of the symbols ask for no index. -/
def unfixed (symbols : List Symbol) : Nat := symbols.countP (·.fixed.isNone)

theorem unfixed_cons_some (h : symbol.fixed = some index) :
    unfixed (symbol :: symbols) = unfixed symbols := by
  simp [unfixed, h]

theorem unfixed_cons_none (h : symbol.fixed = none) :
    unfixed (symbol :: symbols) = unfixed symbols + 1 := by
  simp [unfixed, h]

/-- There are enough free indices, and every symbol gets the index it asks for or the next free
one. -/
structure Assigns (free : List UInt8) (symbols : List Symbol) (indices : List UInt8) : Prop where
  enough : unfixed symbols ≤ free.length
  given : ∀ (position : Nat) (symbol : Symbol), symbols[position]? = some symbol →
    indices[position]? = symbol.fixed.or free[unfixed (symbols.take position)]?

/-- The error is that of a symbol before which all free indices have been taken. -/
def RunsOut (free : List UInt8) (symbols : List Symbol) (e : Located Error) : Prop :=
  ∃ before symbol after, symbols = before ++ symbol :: after ∧ symbol.fixed = none ∧
    unfixed before = free.length ∧ e = ⟨symbol.loc, .tooManySymbols⟩

theorem Assigns.cons_some (h : Assigns free symbols indices) (hfixed : symbol.fixed = some index) :
    Assigns free (symbol :: symbols) (index :: indices) where
  enough := by
    rw [unfixed_cons_some hfixed]
    exact h.enough
  given := by
    rintro (_ | position) other hother
    · cases hother
      simp [hfixed]
    · rw [List.take_succ_cons, unfixed_cons_some hfixed]
      exact h.given position other hother

theorem Assigns.cons_none (h : Assigns free symbols indices) (hfixed : symbol.fixed = none)
    (index : UInt8) : Assigns (index :: free) (symbol :: symbols) (index :: indices) where
  enough := by
    rw [unfixed_cons_none hfixed]
    exact Nat.succ_le_succ h.enough
  given := by
    rintro (_ | position) other hother
    · cases hother
      simp [hfixed, unfixed]
    · rw [List.take_succ_cons, unfixed_cons_none hfixed]
      exact h.given position other hother

theorem RunsOut.cons_some (h : RunsOut free symbols e) (hfixed : symbol.fixed = some index) :
    RunsOut free (symbol :: symbols) e := by
  obtain ⟨before, last, after, rfl, hlast, hcount, he⟩ := h
  refine ⟨symbol :: before, last, after, rfl, hlast, ?_, he⟩
  rw [unfixed_cons_some hfixed, hcount]

theorem RunsOut.cons_none (h : RunsOut free symbols e) (hfixed : symbol.fixed = none)
    (index : UInt8) : RunsOut (index :: free) (symbol :: symbols) e := by
  obtain ⟨before, last, after, rfl, hlast, hcount, he⟩ := h
  refine ⟨symbol :: before, last, after, rfl, hlast, ?_, he⟩
  rw [unfixed_cons_none hfixed, hcount, List.length_cons]

/-- The symbols get their indices from the free ones in order, or one of them finds none left. -/
theorem outcome_assignIndices (free : List UInt8) (symbols : List Symbol) :
    Lands (Assigns free symbols) (RunsOut free symbols) (assignIndices free symbols) := by
  induction symbols generalizing free with
  | nil => exact ⟨Nat.zero_le _, by simp⟩
  | cons symbol symbols ih =>
    cases hfixed : symbol.fixed with
    | some index =>
      simp only [assignIndices, hfixed]
      exact ((ih free).imp_error fun _ h => h.cons_some hfixed).map fun _ h => h.cons_some hfixed
    | none =>
      cases free with
      | nil =>
        simp only [assignIndices, hfixed]
        exact ⟨[], symbol, symbols, rfl, hfixed, rfl, rfl⟩
      | cons index free =>
        simp only [assignIndices, hfixed]
        exact ((ih free).imp_error fun _ h => h.cons_none hfixed index).map
          fun _ h => h.cons_none hfixed index

/-! ### The free indices -/

/-- The index is in range, and no symbol asks for it. -/
def IsFree (symbols : List Symbol) (n : Nat) : Prop :=
  n ≤ 254 ∧ n ∉ (symbols.filterMap (·.fixed)).map UInt8.toNat

instance (symbols : List Symbol) : DecidablePred (IsFree symbols) :=
  fun _ => inferInstanceAs (Decidable (_ ∧ _))

theorem isFree_iff_all {n : Nat} (h : n < Limit.symbols) :
    IsFree symbols n ↔ symbols.all (·.fixed != some (UInt8.ofNat n)) = true := by
  have hn : (UInt8.ofNat n).toNat = n := UInt8.toNat_ofNat_of_lt' (Nat.lt_trans h (by decide))
  have hmem : n ∈ (symbols.filterMap (·.fixed)).map UInt8.toNat ↔
      UInt8.ofNat n ∈ symbols.filterMap (·.fixed) := by
    conv_lhs => rw [← hn]
    exact List.mem_map_of_injective fun i j => UInt8.toNat_inj.mp
  rw [IsFree, and_iff_right (Nat.le_of_lt_succ h), hmem]
  simp [List.mem_filterMap]

theorem freeIndices_eq (symbols : List Symbol) :
    freeIndices symbols =
      ((List.range Limit.symbols).filter fun n => decide (IsFree symbols n)).map UInt8.ofNat := by
  rw [freeIndices, List.filter_map]
  congr 1
  refine List.filter_congr fun n hn => Bool.eq_iff_iff.mpr ?_
  rw [decide_eq_true_iff, isFree_iff_all (List.mem_range.mp hn)]
  rfl

theorem length_freeIndices (symbols : List Symbol) :
    (freeIndices symbols).length = Nat.count (IsFree symbols) 255 := by
  rw [freeIndices_eq, List.length_map, ← List.countP_eq_length_filter]
  rfl

/-- The elements of a filtered range are the numbers with the property, from the smallest. -/
theorem nth_of_getElem?_filter_range {p : Nat → Prop} [DecidablePred p] {n k m : Nat}
    (h : ((List.range n).filter fun i => decide (p i))[k]? = some m) : p m ∧ Nat.nth p k = m := by
  have hm : p m := of_decide_eq_true (List.mem_filter.mp (List.mem_of_getElem? h)).2
  suffices hcount : Nat.count p m = k from ⟨hm, by rw [← hcount, Nat.nth_count hm]⟩
  induction n with
  | zero => simp at h
  | succ n ih =>
    rw [List.range_succ, List.filter_append] at h
    by_cases hk : k < ((List.range n).filter fun i => decide (p i)).length
    · rw [List.getElem?_append_left hk] at h
      exact ih h
    · -- the last element, which all those before it are below
      rw [List.getElem?_append_right (Nat.le_of_not_lt hk)] at h
      obtain ⟨hlast, rfl⟩ : k - ((List.range n).filter fun i => decide (p i)).length = 0 ∧ n = m := by
        have hmem := List.mem_filter.mp (List.mem_of_getElem? h)
        have hlt := (List.getElem?_eq_some_iff.mp h).1
        have hle := List.length_filter_le (fun i => decide (p i)) [n]
        rw [List.length_singleton] at hle
        exact ⟨by omega, (List.mem_singleton.mp hmem.1).symm⟩
      show List.countP (fun i => decide (p i)) (List.range n) = k
      rw [List.countP_eq_length_filter]
      omega

/-- The free indices are handed out from the smallest. -/
theorem isFree_of_getElem?_freeIndices {k : Nat} (h : (freeIndices symbols)[k]? = some index) :
    IsFree symbols index.toNat ∧ Nat.nth (IsFree symbols) k = index.toNat := by
  rw [freeIndices_eq, List.getElem?_map] at h
  obtain ⟨n, hn, rfl⟩ := Option.map_eq_some_iff.mp h
  have hfree := nth_of_getElem?_filter_range hn
  rwa [UInt8.toNat_ofNat_of_lt' (Nat.lt_of_le_of_lt hfree.1.1 (by decide))]

/-! ### Counting -/

theorem length_filterMap_add_unfixed (symbols : List Symbol) :
    (symbols.filterMap (·.fixed)).length + unfixed symbols = symbols.length := by
  induction symbols with
  | nil => rfl
  | cons symbol symbols ih =>
    rw [List.length_cons, ← ih]
    cases hfixed : symbol.fixed with
    | some index =>
      rw [List.filterMap_cons_some hfixed, unfixed_cons_some hfixed, List.length_cons,
        Nat.add_right_comm]
    | none => rw [List.filterMap_cons_none hfixed, unfixed_cons_none hfixed, Nat.add_assoc]

/-- Where the symbols ask for different indices in range, these and the free ones are all. -/
theorem count_isFree_add (hdistinct : (symbols.filterMap (·.fixed)).Nodup)
    (hrange : ∀ index ∈ symbols.filterMap (·.fixed), index.toNat ≤ 254) :
    Nat.count (IsFree symbols) 255 + (symbols.filterMap (·.fixed)).length = 255 := by
  have hperm : ((List.range 255).filter fun n => ¬IsFree symbols n).Perm
      ((symbols.filterMap (·.fixed)).map UInt8.toNat) := by
    refine (List.perm_ext_iff_of_nodup (List.nodup_range.filter _)
      (hdistinct.map fun i j => UInt8.toNat_inj.mp)).mpr fun n => ?_
    rw [List.mem_filter, List.mem_range, decide_eq_true_iff]
    constructor
    · rintro ⟨hlt, hnot⟩
      by_contra hmem
      exact hnot ⟨Nat.le_of_lt_succ hlt, hmem⟩
    · intro hmem
      obtain ⟨index, hindex, rfl⟩ := List.mem_map.mp hmem
      exact ⟨Nat.lt_succ_of_le (hrange index hindex), fun hfree => hfree.2 hmem⟩
  have hlength := hperm.length_eq
  rw [List.length_map, ← List.countP_eq_length_filter] at hlength
  have hall : (List.range 255).length = _ :=
    List.length_eq_countP_add_countP fun n => decide (IsFree symbols n)
  simp only [List.length_range, decide_eq_true_iff] at hall
  rw [← hlength, Nat.count]
  exact hall.symm

/-! ### The indices of a program -/

/-- The symbols have different indices in range, each the one it asks for, and the others the
smallest that no symbol asks for. -/
structure Allocated (symbols : List Symbol) (indices : List UInt8) : Prop where
  length : indices.length = symbols.length
  distinct : indices.Nodup
  inRange : ∀ index ∈ indices, index.toNat ≤ 254
  fixed : ∀ (position : Nat) (symbol : Symbol) (index : UInt8),
    symbols[position]? = some symbol → symbol.fixed = some index →
      indices[position]? = some index
  lowest : ∀ (position : Nat) (symbol : Symbol),
    symbols[position]? = some symbol → symbol.fixed = none →
      ∃ index, indices[position]? = some index ∧ IsFree symbols index.toNat ∧
        index.toNat = Nat.nth (IsFree symbols) (unfixed (symbols.take position))

/-- The symbol at the position asks for no index, and those before it that ask for none have taken
all that are free. -/
def NoneLeft (symbols : List Symbol) (position : Nat) : Prop :=
  ∃ symbol, symbols[position]? = some symbol ∧ symbol.fixed = none ∧
    Nat.count (IsFree symbols) 255 ≤ unfixed (symbols.take position)

theorem allocated_of_assigns (h : Assigns (freeIndices symbols) symbols indices)
    (hlength : indices.length = symbols.length) (hdistinct : indices.Nodup)
    (hrange : ∀ index ∈ indices, index.toNat ≤ 254) : Allocated symbols indices where
  length := hlength
  distinct := hdistinct
  inRange := hrange
  fixed position symbol index hsymbol hfixed := by
    rw [h.given position symbol hsymbol, hfixed, Option.some_or]
  lowest position symbol hsymbol hfixed := by
    have hgiven := h.given position symbol hsymbol
    rw [hfixed, Option.none_or] at hgiven
    have hlt : position < indices.length := by
      rw [hlength]
      exact (List.getElem?_eq_some_iff.mp hsymbol).1
    rw [List.getElem?_eq_getElem hlt] at hgiven ⊢
    obtain ⟨hfree, hnth⟩ := isFree_of_getElem?_freeIndices hgiven.symm
    exact ⟨_, rfl, hfree, hnth.symm⟩

/-- A symbol that asks for no index counts where it stands before another. -/
theorem unfixed_take_lt {position earlier : Nat} (hlt : earlier < position)
    (hsymbol : symbols[earlier]? = some symbol) (hfixed : symbol.fixed = none) :
    unfixed (symbols.take earlier) < unfixed (symbols.take position) := by
  have hstep : unfixed (symbols.take (earlier + 1)) = unfixed (symbols.take earlier) + 1 := by
    rw [List.take_add_one, hsymbol]
    simp [unfixed, hfixed]
  have hle : unfixed (symbols.take (earlier + 1)) ≤ unfixed (symbols.take position) :=
    (List.take_sublist_take_left hlt).countP_le
  omega

theorem NoneLeft.count_lt {position : Nat} (h : NoneLeft symbols position) :
    Nat.count (IsFree symbols) 255 < unfixed symbols := by
  obtain ⟨symbol, hsymbol, hfixed, hleft⟩ := h
  have hlt := unfixed_take_lt (List.getElem?_eq_some_iff.mp hsymbol).1 hsymbol hfixed
  rw [List.take_length] at hlt
  exact Nat.lt_of_le_of_lt hleft hlt

/-- The error is that of the first symbol for which no index is left. -/
theorem exists_first_of_runsOut (h : RunsOut (freeIndices symbols) symbols e) :
    ∃ (position : Nat) (symbol : Symbol), symbols[position]? = some symbol ∧
      NoneLeft symbols position ∧ (∀ earlier < position, ¬NoneLeft symbols earlier) ∧
      e = ⟨symbol.loc, .tooManySymbols⟩ := by
  obtain ⟨before, symbol, after, hsplit, hfixed, hcount, rfl⟩ := h
  rw [length_freeIndices] at hcount
  have htake : symbols.take before.length = before := by rw [hsplit, List.take_left]
  have hget : symbols[before.length]? = some symbol := by
    rw [hsplit, List.getElem?_append_right (Nat.le_refl _), Nat.sub_self]
    rfl
  refine ⟨before.length, symbol, hget, ⟨symbol, hget, hfixed, ?_⟩, ?_, rfl⟩
  · rw [htake, hcount]
  · rintro earlier hlt ⟨other, hother, hnone, hleft⟩
    have := unfixed_take_lt hlt hother hnone
    rw [htake] at this
    omega

/-- **The allocation of indices.** Let the symbols ask for different indices of at most 254. They
all get one just if there are at most 255 of them. Then the indices differ and are in range, a
symbol has the index it asks for, and the others have in their order the smallest that no symbol
asks for, be it before or after them. Else the refusal names the first symbol for which no index is
left. -/
theorem indices_allocated (symbols : List Symbol)
    (hdistinct : (symbols.filterMap (·.fixed)).Nodup)
    (hrange : ∀ index ∈ symbols.filterMap (·.fixed), index.toNat ≤ 254) :
    ((∃ indices, Linking.indices symbols = .ok indices) ↔ symbols.length ≤ 255) ∧
    (∀ indices, Linking.indices symbols = .ok indices → Allocated symbols indices) ∧
    ∀ e, Linking.indices symbols = .error e →
      ∃ (position : Nat) (symbol : Symbol), symbols[position]? = some symbol ∧
        NoneLeft symbols position ∧ (∀ earlier < position, ¬NoneLeft symbols earlier) ∧
        e = ⟨symbol.loc, .tooManySymbols⟩ := by
  have houtcome : Lands (Assigns (freeIndices symbols) symbols)
      (RunsOut (freeIndices symbols) symbols) (Linking.indices symbols) :=
    outcome_assignIndices (freeIndices symbols) symbols
  have hcount := count_isFree_add hdistinct hrange
  have hlength := length_filterMap_add_unfixed symbols
  cases hindices : Linking.indices symbols with
  | ok indices =>
    rw [hindices] at houtcome
    have henough := houtcome.enough
    rw [length_freeIndices] at henough
    refine ⟨⟨fun _ => by omega, fun _ => ⟨indices, rfl⟩⟩, ?_, ?_⟩
    · rintro _ ⟨⟩
      exact allocated_of_assigns houtcome (length_assignIndices hindices)
        (nodup_indices hdistinct hindices) (inRange_indices hrange hindices)
    · rintro _ ⟨⟩
  | error e =>
    rw [hindices] at houtcome
    have hfirst := exists_first_of_runsOut houtcome
    refine ⟨⟨?_, fun hle => ?_⟩, ?_, ?_⟩
    · rintro ⟨_, ⟨⟩⟩
    · obtain ⟨position, symbol, -, hleft, -⟩ := hfirst
      have := hleft.count_lt
      omega
    · rintro _ ⟨⟩
    · rintro _ ⟨⟩
      exact hfirst

/-- Symbols without an index around two that ask for one, the second of them at the end. -/
def sampleSymbols : List Symbol :=
  [⟨"start", none, #[], {}, 0, none⟩, ⟨"fixed", some 1, #[], {}, 0, none⟩,
    ⟨"next", none, #[], {}, 0, none⟩, ⟨"first", some 0, #[], {}, 0, none⟩]

theorem indices_allocated_sampleSymbols :
    Linking.indices sampleSymbols = .ok [2, 1, 3, 0] ∧ Allocated sampleSymbols [2, 1, 3, 0] := by
  have hindices : Linking.indices sampleSymbols = .ok [2, 1, 3, 0] := by decide
  have hrange : ∀ index ∈ sampleSymbols.filterMap (·.fixed), index.toNat ≤ 254 := by
    simp [sampleSymbols]
  exact ⟨hindices, (indices_allocated sampleSymbols (by decide) hrange).2.1 _ hindices⟩

end StackAsm.Linking
