import StackAsm.Proofs.Layout.Symbols
import StackAsm.Proofs.Listing
import Mathlib.Data.List.Perm.Subperm

/-!
# Linked programs

The indices of the symbols are those that the source asks for and some of the free ones. Since the
source asks for no index twice and for none out of range, the indices of a linked program differ
and are in range, so a container never has more symbols than it can hold.

What holds of the operands as linking writes them holds of the operands as a listing of the
container reads them.
-/

namespace StackAsm.Linking

/-! ### Lists that correspond -/

section

variable {α β γ : Type} {R S : α → β → Prop} {xs : List α} {ys : List β}

theorem forall₂_imp_of_mem (h : List.Forall₂ R xs ys) (hRS : ∀ x ∈ xs, ∀ y, R x y → S x y) :
    List.Forall₂ S xs ys :=
  ((List.forall₂_and_left xs ys).mpr ⟨hRS, h⟩).imp fun _ y hxy => hxy.1 y hxy.2

theorem map_eq_map_of_forall₂ {f : α → γ} {g : β → γ}
    (h : List.Forall₂ (fun x y => f x = g y) xs ys) : xs.map f = ys.map g := by
  rw [← List.forall₂_eq_eq_eq, List.forall₂_map_left_iff, List.forall₂_map_right_iff]
  exact h

end

/-! ### Indices -/

variable {session : Session} {symbols : List Symbol} {indices free : List UInt8}
  {container : Container}

/-- The indices are those asked for and the first free ones. -/
theorem perm_assignIndices (h : assignIndices free symbols = .ok indices) :
    ∃ taken, taken <+: free ∧ indices.Perm (symbols.filterMap (·.fixed) ++ taken) := by
  -- for any free indices, since a symbol without an index leaves fewer of them to the rest
  induction symbols generalizing free indices with
  | nil =>
    cases h
    exact ⟨[], List.nil_prefix, .refl _⟩
  | cons symbol symbols ih =>
    cases hfixed : symbol.fixed with
    | some index =>
      simp only [assignIndices, hfixed] at h
      obtain ⟨rest, hrest, rfl⟩ := except_map_eq_ok.mp h
      obtain ⟨taken, htaken, hperm⟩ := ih hrest
      refine ⟨taken, htaken, ?_⟩
      rw [List.filterMap_cons_some hfixed]
      exact hperm.cons index
    | none =>
      cases free with
      | nil =>
        simp only [assignIndices, hfixed] at h
        cases h
      | cons index free =>
        simp only [assignIndices, hfixed] at h
        obtain ⟨rest, hrest, rfl⟩ := except_map_eq_ok.mp h
        obtain ⟨taken, htaken, hperm⟩ := ih hrest
        refine ⟨index :: taken, List.cons_prefix_cons.mpr ⟨rfl, htaken⟩, ?_⟩
        rw [List.filterMap_cons_none hfixed]
        exact (hperm.cons index).trans List.perm_middle.symm

theorem mem_freeIndices {index : UInt8} (h : index ∈ freeIndices symbols) :
    index.toNat ≤ Limit.symbolIndex ∧ index ∉ symbols.filterMap (·.fixed) := by
  obtain ⟨hmem, hfree⟩ := List.mem_filter.mp h
  obtain ⟨n, hn, rfl⟩ := List.mem_map.mp hmem
  refine ⟨?_, ?_⟩
  · rw [List.mem_range] at hn
    rw [UInt8.toNat_ofNat']
    exact Nat.le_trans (Nat.mod_le _ _) (Nat.le_of_lt_succ hn)
  · intro hfixed
    obtain ⟨symbol, hsymbol, hindex⟩ := List.mem_filterMap.mp hfixed
    simpa [hindex] using List.all_eq_true.mp hfree symbol hsymbol

theorem nodup_freeIndices (symbols : List Symbol) : (freeIndices symbols).Nodup := by
  refine List.Nodup.filter _ (List.Nodup.map_on ?_ List.nodup_range)
  intro m hm n hn heq
  rw [List.mem_range, Limit.symbols] at hm hn
  have := congrArg UInt8.toNat heq
  simp only [UInt8.toNat_ofNat'] at this
  omega

/-- Where the source asks for indices that differ, all indices differ. -/
theorem nodup_indices (hdistinct : (symbols.filterMap (·.fixed)).Nodup)
    (h : Linking.indices symbols = .ok indices) : indices.Nodup := by
  obtain ⟨taken, htaken, hperm⟩ := perm_assignIndices h
  refine hperm.nodup_iff.mpr (List.nodup_append.mpr
    ⟨hdistinct, (nodup_freeIndices symbols).sublist htaken.sublist, ?_⟩)
  rintro index hfixed _ hindex rfl
  exact (mem_freeIndices (htaken.subset hindex)).2 hfixed

/-- Where the source asks for indices in range, all indices are in range. -/
theorem inRange_indices
    (hrange : ∀ index ∈ symbols.filterMap (·.fixed), index.toNat ≤ Limit.symbolIndex)
    (h : Linking.indices symbols = .ok indices) :
    ∀ index ∈ indices, index.toNat ≤ Limit.symbolIndex := by
  obtain ⟨taken, htaken, hperm⟩ := perm_assignIndices h
  intro index hindex
  rcases List.mem_append.mp (hperm.subset hindex) with hfixed | hmem
  · exact hrange index hfixed
  · exact (mem_freeIndices (htaken.subset hmem)).1

/-- There are no more than 255 different indices in range. -/
theorem length_le_of_nodup (hnodup : indices.Nodup)
    (hrange : ∀ index ∈ indices, index.toNat ≤ Limit.symbolIndex) :
    indices.length ≤ Limit.symbols := Width.length_le_of_nodup_bytes hnodup hrange

/-! ### Names in operands -/

section

variable {references : Table Reference} {symbol : Symbol} {offset target : Nat}
  {argument : Located Binding} {name : String} {operand : Operand}

/-- References are by index. -/
theorem exists_index_of_referenceOperand? {r : Reference}
    (h : referenceOperand? indices r = some operand) : ∃ target i, operand = .index target i := by
  cases r with
  | symbol position =>
    obtain ⟨i, -, rfl⟩ := Option.map_eq_some_iff.mp h
    exact ⟨_, i, rfl⟩
  | constant i kind => exact ⟨_, i, (Option.some.inj h).symm⟩
  | slot i => exact ⟨_, i, (Option.some.inj h).symm⟩
  | external i => exact ⟨_, i, (Option.some.inj h).symm⟩

theorem constant_of_referenceOperand? {r : Reference} {kind : ConstantKind} {index : UInt8}
    (h : referenceOperand? indices r = some (.index kind.target index)) :
    ∃ kind', r = .constant index kind' := by
  cases r with
  | constant i kind' =>
    obtain ⟨-, rfl⟩ := Operand.index.inj (Option.some.inj h)
    exact ⟨kind', rfl⟩
  | symbol position =>
    obtain ⟨_, _, heq⟩ := Option.map_eq_some_iff.mp h
    cases kind <;> cases heq
  | slot i => cases kind <;> cases h
  | external i => cases kind <;> cases h

theorem symbol_of_referenceOperand? {r : Reference} {index : UInt8}
    (h : referenceOperand? indices r = some (.index .symbol index)) :
    ∃ position : Nat, r = .symbol position ∧ indices[position]? = some index := by
  cases r with
  | symbol position =>
    obtain ⟨_, hindex, heq⟩ := Option.map_eq_some_iff.mp h
    cases heq
    exact ⟨position, rfl, hindex⟩
  | constant i kind => cases kind <;> cases h
  | slot i => cases h
  | external i => cases h

/-- A label is referred to by its distance. -/
theorem resolve_of_label (hname : argument.value = .named name)
    (hlabel : symbol.labels.get? name = some target) :
    resolve references indices symbol offset argument =
      .ok (.distance .label (Int64.ofInt ((target : Int) - offset))) := by
  simp only [resolve, hname, lookup?, hlabel]

/-- Every other name is referred to by its index. -/
theorem index_of_resolve (hname : argument.value = .named name)
    (hlabel : symbol.labels.get? name = none)
    (h : resolve references indices symbol offset argument = .ok operand) :
    ∃ r target i, references.get? name = some r ∧ operand = .index target i ∧
      referenceOperand? indices r = some (.index target i) := by
  simp only [resolve, hname, lookup?, hlabel] at h
  split at h
  · next operand' hoperand =>
    cases h
    obtain ⟨r, hget, hr⟩ := Option.bind_eq_some_iff.mp hoperand
    obtain ⟨target, i, rfl⟩ := exists_index_of_referenceOperand? hr
    exact ⟨r, target, i, hget, rfl, hr⟩
  · cases h

end

/-! ### Linked containers -/

theorem Linked.length_indices (h : Linked session indices container) :
    indices.length = session.symbols.toList.length :=
  length_assignIndices h.assigned

/-- The entries of the container have the names and indices of the symbols, in order. -/
theorem Linked.map_head (h : Linked session indices container) :
    container.symbols.map (fun entry => (entry.name, entry.index)) =
      ((Layout.heads session).map fun head => some head.1).zip indices := by
  have hheads : ((Layout.heads session).map fun head => some head.1).zip indices =
      (session.symbols.toList.zip indices).map fun p => (some p.1.name, p.2) := by
    rw [Layout.heads, List.map_map, List.zip_map_left]
    rfl
  rw [hheads]
  refine (map_eq_map_of_forall₂ (h.symbols.imp ?_)).symm
  rintro p entry ⟨hname, hindex, -⟩
  rw [hname, hindex]

theorem Linked.map_index (h : Linked session indices container) :
    container.symbols.map (·.index) = indices := by
  have hlength : indices.length = ((Layout.heads session).map fun head => some head.1).length := by
    rw [List.length_map, Layout.heads, List.length_map, h.length_indices]
  have hsnd := congrArg (List.map Prod.snd) h.map_head
  rwa [List.map_map, List.map_snd_zip (Nat.le_of_eq hlength)] at hsnd

/-- The code of the symbols is as long as the layout has counted. -/
theorem Linked.map_size (h : Linked session indices container)
    (hset : session.instructionSet.Coherent) (hplaced : Layout.AllWellPlaced session) :
    container.symbols.map (·.body.length) = session.symbols.toList.map (·.size) := by
  refine (map_eq_map_of_forall₂ (forall₂_imp_of_mem h.entries ?_)).symm
  rintro symbol hsymbol entry ⟨-, hbody⟩
  exact (ofBody_body hset (hplaced symbol (Array.mem_toList_iff.mp hsymbol)) hbody).1.symm

/-- A symbol with a name and an index stands in the container exactly if they stand at the same
position. -/
theorem Linked.exists_entry_iff (h : Linked session indices container) (name : String)
    (index : UInt8) :
    (∃ entry ∈ container.symbols, entry.name = some name ∧ entry.index = index) ↔
      ∃ (position : Nat) (fixed : Option UInt8),
        (Layout.heads session)[position]? = some (name, fixed) ∧
          indices[position]? = some index := by
  calc (∃ entry ∈ container.symbols, entry.name = some name ∧ entry.index = index)
      ↔ (some name, index) ∈ container.symbols.map (fun entry => (entry.name, entry.index)) := by
        simp [List.mem_map]
    _ ↔ ∃ position : Nat,
          (((Layout.heads session).map fun head => some head.1).zip indices)[position]? =
            some (some name, index) := by
        rw [h.map_head, List.mem_iff_getElem?]
    _ ↔ _ := by
        simp [List.getElem?_zip_eq_some]

/-! ### Listings of containers -/

/-- A line of a listing is the placed instruction, and every operand satisfies `P` together with
its contract and what the source has written for it. -/
structure ListsWith (P : Contract → Located Binding → UInt64 → Prop) (placed : PlacedInstruction)
    (line : ListingLine) : Prop where
  instruction : line.instruction = placed.instruction
  offset : line.offset = placed.offset
  /-- There is an operand for every contract. -/
  count : placed.arguments.length = placed.instruction.contracts.length
  arguments : List.Forall₂ (fun p raw => P p.1 p.2 raw)
    (placed.instruction.contracts.zip placed.arguments) line.arguments

/-- The entry is the symbol, and its code is listed as the symbol's instructions with operands that
satisfy `P`. -/
structure Listed (set : InstructionSet) (w : Width)
    (P : PlacedInstruction → Contract → Located Binding → UInt64 → Prop) (symbol : Symbol)
    (entry : SymbolEntry) (lines : List ListingLine) : Prop where
  name : entry.name = some symbol.name
  size : entry.body.length = symbol.size
  read : Listing.ofBody set w entry.body = .ok lines
  lines : List.Forall₂ (fun placed => ListsWith (P placed) placed) symbol.instructions.toList lines

/-- The lines of the listing start where the instructions do. -/
theorem Listed.map_offset {set : InstructionSet} {w : Width}
    {P : PlacedInstruction → Contract → Located Binding → UInt64 → Prop} {symbol : Symbol}
    {entry : SymbolEntry} {lines : List ListingLine} (h : Listed set w P symbol entry lines) :
    lines.map (·.offset) = symbol.instructions.toList.map (·.offset) :=
  (map_eq_map_of_forall₂ (h.lines.imp fun _ _ hline => hline.offset.symm)).symm

/-- What holds of an operand as it is written holds of it in the listing. -/
theorem Lists.listsWith {symbol : Symbol} {placed : PlacedInstruction} {line : ListingLine}
    {P : Contract → Located Binding → UInt64 → Prop}
    (h : Lists session indices symbol placed line)
    (hP : ∀ argument ∈ placed.arguments, ∀ contract e,
      WritesAs session indices symbol placed.offset contract argument e →
        P contract argument (e.raw session.type.width)) : ListsWith P placed line where
  instruction := h.instruction
  offset := h.offset
  count := h.count
  arguments := by
    refine forall₂_imp_of_mem h.arguments ?_
    rintro ⟨contract, argument⟩ hmem raw ⟨e, hwrites, rfl⟩
    exact hP argument (List.of_mem_zip hmem).2 contract e hwrites

/-- The container lists all symbols, with what holds of the operands as they are written. -/
theorem Linked.listed {P : Symbol → PlacedInstruction → Contract → Located Binding → UInt64 → Prop}
    (h : Linked session indices container) (hset : session.instructionSet.Coherent)
    (hplaced : Layout.AllWellPlaced session)
    (hP : ∀ symbol ∈ session.symbols, ∀ placed ∈ symbol.instructions,
      ∀ argument ∈ placed.arguments, ∀ contract e,
        WritesAs session indices symbol placed.offset contract argument e →
          P symbol placed contract argument (e.raw session.type.width)) :
    List.Forall₂ (fun symbol entry => symbol ∈ session.symbols ∧
        ∃ lines, Listed session.instructionSet session.type.width (P symbol) symbol entry lines)
      session.symbols.toList container.symbols := by
  refine forall₂_imp_of_mem h.entries ?_
  rintro symbol hmem entry ⟨hname, hbody⟩
  have hsymbol := Array.mem_toList_iff.mp hmem
  obtain ⟨hsize, lines, hlists, hread⟩ := ofBody_body hset (hplaced symbol hsymbol) hbody
  refine ⟨hsymbol, lines, hname, hsize, hread, ?_⟩
  refine forall₂_imp_of_mem hlists fun placed hinstruction line hline => ?_
  exact hline.listsWith (hP symbol hsymbol placed (Array.mem_toList_iff.mp hinstruction))

end StackAsm.Linking
