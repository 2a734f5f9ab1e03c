import StackAsm.Proofs.Assembly

/-!
# No dangling references

What a name denotes in a container can be told from the container and the lines of the program: the
index of the symbol or slot of that name, the index that a line gives to an external symbol, or the
place in the pool where the bytes of the constant stand that a line declares. A program that is
assembled refers by exactly these indices, and wherever a contract asks for a constant or a symbol,
there is one.
-/

namespace StackAsm.Assembly

/-- The index that a name denotes in the container of a program with these lines. -/
inductive Denotes (lines : List (List (Located Item))) (container : Container) (name : String) :
    UInt8 → Prop where
  /-- The symbol of that name. -/
  | symbol (entry : SymbolEntry) (mem : entry ∈ container.symbols)
      (named : entry.name = some name) : Denotes lines container name entry.index
  /-- The slot of the module of that name. -/
  | slot (slot : Slot) (mem : slot ∈ container.slots) (named : slot.name = name) :
      Denotes lines container name slot.index
  /-- The index that a line gives to the external symbol of that name. -/
  | external (index : UInt8) (line : List (Located Item)) (mem : line ∈ lines)
      (named : Declaration.Names container.type.width ⟨container.constants⟩ name
        (line.map (·.value)) (.external index)) : Denotes lines container name index
  /-- The place where the bytes of the constant stand that a line declares under that name. -/
  | constant (index : UInt8) (kind : ConstantKind) (line : List (Located Item)) (mem : line ∈ lines)
      (named : Declaration.Names container.type.width ⟨container.constants⟩ name
        (line.map (·.value)) (.constant index kind)) : Denotes lines container name index

section

variable {items deferred : List (Located Item)} {declared session : Session}
  {container : Container} {indices : List UInt8} {name : String} {index : UInt8}

/-- What lines declare, told by the container. -/
theorem Passes.names_iff (h : Passes items deferred declared session container) {r : Reference}
    (hr : ∀ position, r ≠ .symbol position) (name : String) :
    session.references.get? name = some r ↔
      ∃ line ∈ Item.lines items, Declaration.Names container.type.width ⟨container.constants⟩ name
        (line.map (·.value)) r := by
  obtain ⟨htype, -, -, hconstants⟩ := h.container_declarations
  rw [h.get?_eq_some_iff hr, htype, hconstants]

/-- **Names denote what they refer to**: the index that linking takes for a name is the one that
the name denotes. -/
theorem Passes.denotes_iff (h : Passes items deferred declared session container)
    (hlinked : Linking.Linked session indices container) :
    Denotes (Item.lines items) container name index ↔
      ∃ r target, session.references.get? name = some r ∧
        Linking.referenceOperand? indices r = some (.index target index) := by
  constructor
  · intro hdenotes
    cases hdenotes with
    | symbol entry mem named =>
      obtain ⟨position, fixed, hhead, hindex⟩ :=
        (hlinked.exists_entry_iff name entry.index).mp ⟨entry, mem, named, rfl⟩
      refine ⟨.symbol position, .symbol, h.numbered.referred position name fixed hhead, ?_⟩
      rw [Linking.referenceOperand?, hindex, Option.map_some]
    | slot slot mem named =>
      subst named
      rw [h.container_declarations.2.2.1] at mem
      exact ⟨.slot slot.index, .slot,
        (h.get?_declared_iff (by simp) _).mpr (h.tables.slotReferred slot mem), rfl⟩
    | external index line mem named =>
      exact ⟨.external index, .external, (h.names_iff (by simp) name).mpr ⟨line, mem, named⟩, rfl⟩
    | constant index kind line mem named =>
      exact ⟨.constant index kind, kind.target,
        (h.names_iff (by simp) name).mpr ⟨line, mem, named⟩, rfl⟩
  · rintro ⟨r, target, hget, hoperand⟩
    cases r with
    | symbol position =>
      obtain ⟨fixed, hhead⟩ := h.numbered.named position name hget
      obtain ⟨_, hindex, heq⟩ := Option.map_eq_some_iff.mp hoperand
      cases heq
      obtain ⟨entry, mem, named, rfl⟩ :=
        (hlinked.exists_entry_iff name index).mpr ⟨position, fixed, hhead, hindex⟩
      exact .symbol entry mem named
    | slot _ =>
      cases hoperand
      obtain ⟨slot, mem, named, rfl⟩ :=
        h.tables.slotNamed name index ((h.get?_declared_iff (by simp) name).mp hget)
      rw [← h.container_declarations.2.2.1] at mem
      exact .slot slot mem named
    | external _ =>
      cases hoperand
      obtain ⟨line, mem, named⟩ := (h.names_iff (by simp) name).mp hget
      exact .external index line mem named
    | constant _ kind =>
      cases hoperand
      obtain ⟨line, mem, named⟩ := (h.names_iff (by simp) name).mp hget
      exact .constant index kind line mem named

/-- A name denotes one index at most. -/
theorem Passes.denotes_unique {other : UInt8}
    (h : Passes items deferred declared session container)
    (hname : Denotes (Item.lines items) container name index)
    (hother : Denotes (Item.lines items) container name other) : other = index := by
  obtain ⟨indices, hlinked⟩ := h.exists_linked
  obtain ⟨r, target, hget, hoperand⟩ := (h.denotes_iff hlinked).mp hname
  obtain ⟨r', target', hget', hoperand'⟩ := (h.denotes_iff hlinked).mp hother
  obtain rfl : r' = r := Option.some.inj (hget'.symm.trans hget)
  cases hoperand'.symm.trans hoperand
  rfl

/-! ### Operands -/

/-- An operand as a listing gives it back dangles nowhere. -/
structure Refers (lines : List (List (Located Item))) (container : Container) (symbol : Symbol)
    (contract : Contract) (argument : Located Binding) (raw : UInt64) : Prop where
  /-- Where a constant is asked for, there is one. -/
  inPool : contract.takesConstant = true → raw.toNat < container.constants.length
  /-- Where a symbol is asked for, exactly one has that index. -/
  isSymbol : contract = .symbol → container.symbols.countP (·.index.toUInt64 == raw) = 1
  /-- A name that is no label of the symbol has become the index that it denotes. -/
  isDenoted : ∀ name, argument.value = .named name → symbol.labels.get? name = none →
    ∃ index, Denotes lines container name index ∧
      (∀ other, Denotes lines container name other → other = index) ∧ raw = index.toUInt64

/-- A reference by index comes from a text in its place or from a name that is no label. -/
theorem resolve_eq_index {symbol : Symbol} {offset : Nat} {argument : Located Binding}
    {target : Target} {item : Located Item} (hwritten : Layout.readOperand item = .ok argument)
    (h : Linking.resolve session.references indices symbol offset argument =
      .ok (.index target index)) :
    (∃ kind : ConstantKind, item.value = .constant index kind ∧ target = kind.target) ∨
      ∃ name r, session.references.get? name = some r ∧
        Linking.referenceOperand? indices r = some (.index target index) := by
  obtain ⟨loc, value⟩ := item
  cases value with
  | number n =>
    cases hwritten
    cases h
  | constant i kind =>
    cases hwritten
    cases h
    exact .inl ⟨kind, rfl, rfl⟩
  | word name =>
    cases hwritten
    cases hlabel : symbol.labels.get? name with
    | some label =>
      rw [Linking.resolve_of_label rfl hlabel] at h
      cases h
    | none =>
      obtain ⟨r, _, _, hget, heq, hoperand⟩ := Linking.index_of_resolve rfl hlabel h
      cases heq
      exact .inr ⟨name, r, hget, hoperand⟩
  | _ => cases hwritten

/-- What is put aside of a program refers to constants of its container. -/
theorem Passes.lt_length_constants (h : Passes items deferred declared session container)
    (hsource : ∀ item ∈ items, Item.IsSource item) {item : Located Item} (hitem : item ∈ deferred)
    {kind : ConstantKind} (hvalue : item.value = .constant index kind) :
    index.toNat < container.constants.length := by
  obtain ⟨head, rest, lines, type, _, hlines, _, _, hreading⟩ :=
    Declaration.reading_readProgram h.read_eq
  have hsource' : ∀ line ∈ lines, ∀ item ∈ line, Item.IsSource item := by
    intro line hline item hitem
    refine hsource item (Item.mem_of_mem_lines ?_ item hitem)
    rw [hlines]
    exact List.mem_cons_of_mem _ hline
  obtain ⟨bytes, hbytes⟩ :=
    hreading.held Pool.wellFormed_empty hsource' item hitem index kind hvalue
  rw [h.container_declarations.2.2.2]
  exact Pool.lt_size_of_get? hbytes

/-- A name that refers to a constant refers to one of the container. -/
theorem Passes.lt_length_of_get? (h : Passes items deferred declared session container)
    {kind : ConstantKind} (hget : session.references.get? name = some (.constant index kind)) :
    index.toNat < container.constants.length := by
  obtain ⟨line, -, hnames⟩ := (h.names_iff (by simp) name).mp hget
  generalize line.map (·.value) = values at hnames
  cases hnames with
  | constant _ _ _ _ _ _ held => exact Pool.lt_size_of_get? held

/-- Exactly one symbol has the index at a position. -/
theorem Passes.countP_index (h : Passes items deferred declared session container)
    (hlinked : Linking.Linked session indices container) {position : Nat}
    (hindex : indices[position]? = some index) :
    container.symbols.countP (·.index.toUInt64 == index.toUInt64) = 1 := by
  have hcount : indices.count index = 1 :=
    List.count_eq_one_of_mem (h.nodup_indices hlinked) (List.mem_of_getElem? hindex)
  rw [← hlinked.map_index, List.count, List.countP_map] at hcount
  rw [← hcount]
  congr 1
  funext entry
  simp [Function.comp, UInt8.toUInt64_inj]

/-- Where a constant is referred to, the container has one. -/
theorem Passes.lt_length_of_resolve (h : Passes items deferred declared session container)
    (hsource : ∀ item ∈ items, Item.IsSource item) {symbol : Symbol} {offset : Nat}
    {argument : Located Binding} {kind : ConstantKind} {item : Located Item}
    (hitem : item ∈ deferred) (hwritten : Layout.readOperand item = .ok argument)
    (hresolve : Linking.resolve session.references indices symbol offset argument =
      .ok (.index kind.target index)) : index.toNat < container.constants.length := by
  rcases resolve_eq_index hwritten hresolve with ⟨kind', hvalue, -⟩ | ⟨name, r, hget, hoperand⟩
  · exact h.lt_length_constants hsource hitem hvalue
  · obtain ⟨kind', rfl⟩ := Linking.constant_of_referenceOperand? hoperand
    exact h.lt_length_of_get? hget

/-- Where a symbol is referred to, exactly one has the index. -/
theorem Passes.countP_of_resolve (h : Passes items deferred declared session container)
    (hlinked : Linking.Linked session indices container) {symbol : Symbol} {offset : Nat}
    {argument : Located Binding} {item : Located Item}
    (hwritten : Layout.readOperand item = .ok argument)
    (hresolve : Linking.resolve session.references indices symbol offset argument =
      .ok (.index .symbol index)) :
    container.symbols.countP (·.index.toUInt64 == index.toUInt64) = 1 := by
  rcases resolve_eq_index hwritten hresolve with ⟨kind, -, htarget⟩ | ⟨name, r, hget, hoperand⟩
  · cases kind <;> cases htarget
  · obtain ⟨position, rfl, hindex⟩ := Linking.symbol_of_referenceOperand? hoperand
    exact h.countP_index hlinked hindex

/-- Every operand of an assembled program refers to something. -/
theorem Passes.refers (h : Passes items deferred declared session container)
    (hlinked : Linking.Linked session indices container)
    (hsource : ∀ item ∈ items, Item.IsSource item) {symbol : Symbol} {placed : PlacedInstruction}
    {argument : Located Binding} {contract : Contract} {e : Encoded} {item : Located Item}
    (hitem : item ∈ deferred) (hwritten : Layout.readOperand item = .ok argument)
    (hwrites : Linking.WritesAs session indices symbol placed.offset contract argument e) :
    Refers (Item.lines items) container symbol contract argument
      (e.raw session.type.width) := by
  obtain ⟨operand, hresolve, hnormalize⟩ := hwrites
  refine ⟨?_, ?_, ?_⟩
  · intro hconstant
    obtain ⟨target, i, rfl⟩ := Contract.exists_index_of_normalize
      (by simp [Contract.takesEntry, hconstant]) hnormalize
    obtain ⟨haccepts, hraw⟩ := Contract.raw_of_normalize_index hnormalize
    obtain ⟨kind, rfl⟩ := Contract.exists_kind_of_accepts hconstant haccepts
    rw [hraw, UInt8.toNat_toUInt64]
    exact h.lt_length_of_resolve hsource hitem hwritten hresolve
  · rintro rfl
    obtain ⟨target, i, rfl⟩ := Contract.exists_index_of_normalize rfl hnormalize
    obtain ⟨haccepts, hraw⟩ := Contract.raw_of_normalize_index hnormalize
    obtain rfl : target = .symbol := by simpa [Contract.accepts] using haccepts
    rw [hraw]
    exact h.countP_of_resolve hlinked hwritten hresolve
  · intro name hname hlabel
    obtain ⟨r, target, i, hget, rfl, hoperand⟩ := Linking.index_of_resolve hname hlabel hresolve
    have hdenotes := (h.denotes_iff hlinked).mpr ⟨r, target, hget, hoperand⟩
    exact ⟨i, hdenotes, fun other => h.denotes_unique hdenotes,
      (Contract.raw_of_normalize_index hnormalize).2⟩

end

/-- **No dangling references**: in the container of a program, every operand that a listing gives
back refers to what its contract asks for, and every name has become the index that it denotes. -/
theorem build_refers {provider : Provider} {root : String} {defines : Table Constant}
    {container : Container} (h : (build provider root defines).1 = .ok container) :
    ∃ items s deferred declared session,
      Expansion.run provider root { constants := defines } = .ok items s ∧
        Passes items deferred declared session container ∧
        List.Forall₂ (fun symbol entry => ∃ lines,
            Linking.Listed session.instructionSet container.type.width
              (fun _ => Refers (Item.lines items) container symbol) symbol entry lines)
          session.symbols.toList container.symbols := by
  obtain ⟨items, s, hrun, hitems⟩ := build_eq_ok h
  obtain ⟨deferred, declared, session, hpasses⟩ := assembleItems_eq_ok hitems
  obtain ⟨indices, hlinked⟩ := hpasses.exists_linked
  have hsource := Expansion.isSource_of_run rfl hrun
  have hwritten := hpasses.forall_symbols (Layout.kept_writtenIn _ _ deferred)
  refine ⟨items, s, deferred, declared, session, hrun, hpasses, ?_⟩
  rw [hlinked.type]
  refine (hlinked.listed (P := fun symbol _ => Refers (Item.lines items) container symbol)
    hpasses.coherent hpasses.allWellPlaced ?_).imp fun symbol entry hentry => hentry.2
  intro symbol hsymbol placed hplaced argument hargument contract e hwrites
  obtain ⟨item, hitem, hoperand⟩ := hwritten symbol hsymbol placed hplaced argument hargument
  exact hpasses.refers hlinked hsource hitem hoperand hwrites

/-- A library with references of every kind. The symbol `main` comes second, since `last` asks for
the first index, and there `greet` is a label. -/
def sampleReferences : Provider :=
  .ofTable (Table.empty.insert "main.cws"
    (".cwl:16\n.str greet, \"hi\"\n.module io, 3\n.extern write, 7\n" ++
      ".symbol main\ncall last\nlds \"ho\"\nlds greet\ncallx io, write\n" ++
      ".symbol last, 0\ngreet: jmp greet\n"))

/-- The container of the library. -/
def sampleReferencesContainer : Container where
  type := ⟨.library, .w16⟩
  metadata := {}
  slots := [⟨"io", 3, false⟩]
  constants := [[0x68, 0x69], [0x68, 0x6F]]
  symbols :=
    [⟨some "main", 1, [0x08, 0, 0x52, 1, 0x52, 0, 0x09, 3, 7]⟩, ⟨some "last", 0, [0x10, 0, 0]⟩]

theorem build_refers_sample :
    (build sampleReferences "main.cws" {}).1 = .ok sampleReferencesContainer ∧
      ∃ items s deferred declared session,
        Expansion.run sampleReferences "main.cws" { constants := {} } = .ok items s ∧
          Passes items deferred declared session sampleReferencesContainer ∧
          List.Forall₂ (fun symbol entry => ∃ lines,
              Linking.Listed session.instructionSet .w16
                (fun _ => Refers (Item.lines items) sampleReferencesContainer symbol) symbol entry
                lines)
            session.symbols.toList sampleReferencesContainer.symbols := by
  have hbuild : (build sampleReferences "main.cws" {}).1 = .ok sampleReferencesContainer := by
    decide +kernel
  exact ⟨hbuild, build_refers hbuild⟩

end StackAsm.Assembly
