import StackAsm.Proofs.Layout
import StackAsm.Proofs.Session

/-!
# The symbols of a layout

A symbol keeps its name and the index it asks for from the moment it is opened. With them alone one
can say that a name refers to the symbol that bears it, and that the indices asked for are in range
and differ. What other names refer to, a layout leaves alone.

Of the rest of a symbol it is shown that its labels stand where an instruction starts or at the
end, and that its operands are written among the items laid out.
-/

namespace StackAsm.Layout

variable {items : List (Located Item)} {session session' : Session}

/-! ### Names and indices -/

/-- The symbols' names and the indices they ask for, in order. -/
def heads (session : Session) : List (String × Option UInt8) :=
  session.symbols.toList.map fun symbol => (symbol.name, symbol.fixed)

/-- A change opens a symbol under a free name, or leaves names and indices as they are. -/
theorem Change.heads_cases (h : Change items session session') :
    (heads session' = heads session ∧ session'.references = session.references) ∨
      ∃ name fixed, session.isTaken name = false ∧
        (∀ index ∈ fixed, index.toNat ≤ Limit.symbolIndex) ∧
        (∀ index ∈ fixed, ∀ head ∈ heads session, head.2 ≠ some index) ∧
        heads session' = heads session ++ [(name, fixed)] ∧
        session'.references =
          session.references.insert name (.symbol (heads session).length) := by
  cases h with
  | opened name fixed loc free inRange unclaimed =>
    refine .inr ⟨name, fixed, free, inRange, ?_, ?_, ?_⟩
    · intro index hindex head hhead
      obtain ⟨symbol, hsymbol, rfl⟩ := List.mem_map.mp hhead
      exact unclaimed index hindex symbol (Array.mem_toList_iff.mp hsymbol)
    · simp [heads, addSymbol]
    · simp [heads, addSymbol, Session.refer]
  | labelled before symbol name last =>
    refine .inl ⟨?_, rfl⟩
    simp [heads, last, Symbol.setLabel]
  | placed before symbol mnemonic i arguments loc last =>
    refine .inl ⟨?_, rfl⟩
    simp [heads, last, Symbol.place]

/-- The names of the symbols refer to their positions, and no symbol asks for an index that is out
of range or that another asks for. -/
structure Numbered (references : Table Reference) (heads : List (String × Option UInt8)) :
    Prop where
  referred : ∀ position name fixed, heads[position]? = some (name, fixed) →
    references.get? name = some (.symbol position)
  named : ∀ position name, references.get? name = some (.symbol position) →
    ∃ fixed, heads[position]? = some (name, fixed)
  inRange : ∀ head ∈ heads, ∀ index ∈ head.2, index.toNat ≤ Limit.symbolIndex
  distinct : (heads.filterMap Prod.snd).Nodup

theorem numbered_nil {references : Table Reference}
    (h : ∀ name position, references.get? name ≠ some (.symbol position)) :
    Numbered references [] where
  referred := by simp
  named := fun position name hget => absurd hget (h name position)
  inRange := by simp
  distinct := List.nodup_nil

theorem Numbered.concat {references : Table Reference} {heads : List (String × Option UInt8)}
    {name : String} {fixed : Option UInt8} (h : Numbered references heads)
    (hfree : references.get? name = none)
    (hrange : ∀ index ∈ fixed, index.toNat ≤ Limit.symbolIndex)
    (hunclaimed : ∀ index ∈ fixed, ∀ head ∈ heads, head.2 ≠ some index) :
    Numbered (references.insert name (.symbol heads.length)) (heads ++ [(name, fixed)]) where
  referred := by
    intro position other fixed' hget
    rw [Table.get?_insert]
    -- an older symbol, the new one, or none
    rcases Nat.lt_trichotomy position heads.length with hlt | rfl | hgt
    · rw [List.getElem?_append_left hlt] at hget
      have hold := h.referred position other fixed' hget
      have hne : other ≠ name := by
        rintro rfl
        rw [hfree] at hold
        cases hold
      rw [if_neg hne, hold]
    · rw [List.getElem?_concat_length] at hget
      cases hget
      rw [if_pos rfl]
    · rw [List.getElem?_eq_none (by rw [List.length_append]; exact hgt)] at hget
      cases hget
  named := by
    intro position other hget
    rw [Table.get?_insert] at hget
    split at hget
    · next hother =>
      cases hget
      exact ⟨fixed, by rw [hother, List.getElem?_concat_length]⟩
    · obtain ⟨fixed', hhead⟩ := h.named position other hget
      have hlt := (List.getElem?_eq_some_iff.mp hhead).1
      exact ⟨fixed', by rw [List.getElem?_append_left hlt, hhead]⟩
  inRange := List.forall_mem_append.mpr ⟨h.inRange, by simpa using hrange⟩
  distinct := by
    rw [List.filterMap_append]
    refine List.nodup_append.mpr ⟨h.distinct, ?_, ?_⟩
    · cases fixed <;> simp
    · intro index hold index' hnew
      obtain ⟨head, hhead, hindex⟩ := List.mem_filterMap.mp hold
      rintro rfl
      refine hunclaimed index ?_ head hhead hindex
      cases fixed <;> simp_all

theorem Change.numbered (h : Change items session session')
    (hs : Numbered session.references (heads session)) :
    Numbered session'.references (heads session') := by
  rcases h.heads_cases with ⟨hheads, hreferences⟩ | ⟨name, fixed, hfree, hrange, hunclaimed, hrest⟩
  · rwa [hheads, hreferences]
  · rw [hrest.1, hrest.2]
    exact hs.concat (Session.get?_of_free hfree) hrange hunclaimed

/-- Other references than those to symbols stay as they were. -/
theorem Change.get?_eq_some_iff (h : Change items session session') {r : Reference}
    (hr : ∀ position, r ≠ .symbol position) (name : String) :
    session'.references.get? name = some r ↔ session.references.get? name = some r := by
  rcases h.heads_cases with ⟨-, hreferences⟩ | ⟨opened, fixed, hfree, -, -, -, hreferences⟩
  · rw [hreferences]
  · rw [hreferences, Table.get?_insert]
    constructor
    · intro hget
      split at hget
      · exact absurd (Option.some.inj hget).symm (hr _)
      · exact hget
    · intro hget
      rw [if_neg (Session.ne_of_free hfree hget), hget]

/-- **A layout numbers its symbols**: their names refer to their positions, and the indices they
ask for are in range and differ. -/
theorem numbered_layOut (items : List (Located Item)) (hsymbols : session.symbols = #[])
    (h : ∀ name position, session.references.get? name ≠ some (.symbol position)) :
    Numbered (layOut session items).1.references (heads (layOut session items).1) := by
  refine keeps_of_reflTransGen (P := fun s => Numbered s.references (heads s))
    (changes_layOut session items) (fun s s' hchange => hchange.numbered) ?_
  rw [heads, hsymbols]
  exact numbered_nil h

theorem get?_layOut_eq_some_iff (session : Session) (items : List (Located Item)) {r : Reference}
    (hr : ∀ position, r ≠ .symbol position) (name : String) :
    (layOut session items).1.references.get? name = some r ↔
      session.references.get? name = some r := by
  refine keeps_of_reflTransGen
    (P := fun s => s.references.get? name = some r ↔ session.references.get? name = some r)
    (changes_layOut session items) ?_ Iff.rfl
  intro s s' hchange hs
  rw [hchange.get?_eq_some_iff hr, hs]

/-! ### Labels and operands -/

/-- Every label of the symbol stands where one of its instructions starts, or at its end. -/
def LabelsPlaced (symbol : Symbol) : Prop :=
  ∀ name target, symbol.labels.get? name = some target →
    target = symbol.size ∨ ∃ placed ∈ symbol.instructions, placed.offset = target

theorem kept_labelsPlaced (set : InstructionSet) (w : Width) (items : List (Located Item)) :
    Kept set w items LabelsPlaced where
  opened := by
    intro name fixed loc label target hget
    cases hget
  labelled := by
    intro symbol name _ h label target hget
    rw [Symbol.setLabel, Table.get?_insert] at hget
    split at hget
    · cases hget
      exact .inl rfl
    · exact h label target hget
  placed := by
    intro symbol mnemonic i arguments loc _ _ _ _ h label target hget
    -- a label at the old end stands where the new instruction starts
    refine .inr ?_
    rcases h label target hget with rfl | ⟨placed, hplaced, hoffset⟩
    · exact ⟨_, Array.mem_push_self, rfl⟩
    · exact ⟨placed, Array.mem_push_of_mem _ hplaced, hoffset⟩

/-- Instructions that stand one behind the other start before the end. -/
theorem Consecutive.offset_le {w : Width} {start stop : Nat} {instructions : List PlacedInstruction}
    (h : Consecutive w start instructions stop) :
    start ≤ stop ∧ ∀ placed ∈ instructions, placed.offset ≤ stop := by
  induction instructions generalizing start with
  | nil =>
    cases h
    simp
  | cons first rest ih =>
    obtain ⟨hfirst, hrest⟩ := h
    obtain ⟨hstart, hall⟩ := ih hrest
    refine ⟨by omega, List.forall_mem_cons.mpr ⟨by omega, hall⟩⟩

theorem WellPlaced.offset_le {set : InstructionSet} {w : Width} {symbol : Symbol}
    (h : WellPlaced set w symbol) {placed : PlacedInstruction}
    (hplaced : placed ∈ symbol.instructions) : placed.offset ≤ symbol.size :=
  h.consecutive.offset_le.2 placed (Array.mem_toList_iff.mpr hplaced)

theorem LabelsPlaced.le_size {set : InstructionSet} {w : Width} {symbol : Symbol}
    (h : LabelsPlaced symbol) (hplaced : WellPlaced set w symbol) {name : String} {target : Nat}
    (hlabel : symbol.labels.get? name = some target) : target ≤ symbol.size := by
  rcases h name target hlabel with rfl | ⟨placed, hmem, rfl⟩
  · exact Nat.le_refl _
  · exact hplaced.offset_le hmem

/-- The operands of the symbol are read off the items. -/
def WrittenIn (items : List (Located Item)) (symbol : Symbol) : Prop :=
  ∀ placed ∈ symbol.instructions, ∀ argument ∈ placed.arguments,
    ∃ item ∈ items, readOperand item = .ok argument

theorem kept_writtenIn (set : InstructionSet) (w : Width) (items : List (Located Item)) :
    Kept set w items (WrittenIn items) where
  opened := by simp [WrittenIn]
  labelled := fun _ _ _ h => h
  placed := by
    intro symbol mnemonic i arguments loc _ hwritten _ _ h placed hplaced
    rcases Array.mem_push.mp hplaced with hold | rfl
    · exact h placed hold
    · exact hwritten

end StackAsm.Layout
