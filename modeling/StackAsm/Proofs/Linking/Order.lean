import StackAsm.Proofs.Declaration.Tables
import StackAsm.Proofs.Layout.Blocks
import StackAsm.Proofs.Linking

/-!
# The order of symbols

Where every symbol asks for an index, what a name stands for in an operand does not depend on the
order of the symbols: a symbol's name stands for the index the symbol asks for, wherever it is
opened, and all other names were given before the layout. So a program in blocks may have its blocks
in any order. It is laid out and linked in all of them or in none, and its container differs only in
the order of the entries.
-/

namespace StackAsm.Linking

open Declaration Layout

variable {session session' declared : Session} {indices indices' : List UInt8}
  {symbols symbols' : List Symbol} {container : Container}

/-! ### From entries to containers -/

theorem linkSymbols_of_entries {pairs : List (Symbol × UInt8)} {entries : List SymbolEntry}
    (h : List.Forall₂ (fun p entry => entry.name = some p.1.name ∧ entry.index = p.2 ∧
      body session indices p.1 = .ok entry.body) pairs entries) :
    (linkSymbols session indices pairs).1 = .ok entries := by
  induction h with
  | nil => rfl
  | @cons p entry pairs entries hentry _ ih =>
    obtain ⟨symbol, index⟩ := p
    obtain ⟨name, index', code⟩ := entry
    obtain ⟨hname, hindex, hbody⟩ := hentry
    cases hname
    cases hindex
    simp only [linkSymbols, hbody, ih]
    rfl

theorem link_of_linked (h : Linked session indices container) :
    (link session).1 = .ok container := by
  obtain ⟨type, metadata, slots, constants, symbols⟩ := container
  obtain ⟨rfl, rfl, rfl, rfl, hassigned, hsymbols⟩ := h
  simp only [link, hassigned, linkSymbols_of_entries hsymbols]
  rfl

/-! ### Code -/

/-- Of the session and the indices, only the width and what names stand for matter for the code of a
symbol. -/
theorem body_congr (htype : session'.type = session.type)
    (hnames : ∀ name, (session'.references.get? name).bind (referenceOperand? indices') =
      (session.references.get? name).bind (referenceOperand? indices)) (symbol : Symbol) :
    body session' indices' symbol = body session indices symbol := by
  have hresolve (offset : Nat) (argument : Located Binding) :
      resolve session'.references indices' symbol offset argument =
        resolve session.references indices symbol offset argument := by
    simp only [resolve, lookup?, hnames]
  have hbytes (placed : PlacedInstruction) (position : Nat) (contracts : List Contract)
      (arguments : List (Located Binding)) :
      argumentBytes session' indices' symbol placed position contracts arguments =
        argumentBytes session indices symbol placed position contracts arguments := by
    induction contracts generalizing arguments position with
    | nil => rfl
    | cons contract contracts ih =>
      cases arguments with
      | nil => rfl
      | cons argument arguments => simp only [argumentBytes, hresolve, htype, ih]
  unfold body
  congr 2
  funext placed
  simp only [instructionBytes, hbytes]

/-! ### Names -/

/-- What a name stands for in a program with the symbols: the index that a symbol of this name asks
for, or what was declared. -/
def StandsFor (declared : Session) (symbols : List Symbol) (name : String) (operand : Operand) :
    Prop :=
  (∃ symbol ∈ symbols, symbol.name = name ∧
      ∃ index, symbol.fixed = some index ∧ operand = .index .symbol index) ∨
    ∃ r, (∀ position, r ≠ .symbol position) ∧ declared.references.get? name = some r ∧
      referenceOperand? [] r = some operand

theorem StandsFor.perm (hperm : symbols'.Perm symbols) {name : String} {operand : Operand} :
    StandsFor declared symbols' name operand ↔ StandsFor declared symbols name operand := by
  simp only [StandsFor, hperm.mem_iff]

theorem referenceOperand?_of_ne_symbol {r : Reference} (h : ∀ position, r ≠ .symbol position) :
    referenceOperand? indices r = referenceOperand? [] r := by
  cases r with
  | symbol position => exact absurd rfl (h position)
  | _ => rfl

/-- The indices that the symbols ask for. -/
def fixedIndices (symbols : List Symbol) : List UInt8 := symbols.map (·.fixed.getD 0)

/-- **Names stand for what their symbols ask for**, or for what was declared. -/
theorem standsFor_iff (hsymbols : session.symbols.toList = symbols)
    (hfixed : ∀ symbol ∈ symbols, symbol.fixed.isSome)
    (hnumbered : Numbered session.references (heads session))
    (hdeclared : ∀ r : Reference, (∀ position, r ≠ .symbol position) → ∀ name,
      session.references.get? name = some r ↔ declared.references.get? name = some r)
    (name : String) (operand : Operand) :
    (session.references.get? name).bind (referenceOperand? (fixedIndices symbols)) = some operand ↔
      StandsFor declared symbols name operand := by
  have hheads (k : Nat) : (heads session)[k]? = symbols[k]?.map fun symbol =>
      (symbol.name, symbol.fixed) := by
    rw [heads, hsymbols, List.getElem?_map]
  have hindices (k : Nat) : (fixedIndices symbols)[k]? = symbols[k]?.map (·.fixed.getD 0) :=
    List.getElem?_map
  constructor
  · intro h
    obtain ⟨r, hget, hoperand⟩ := Option.bind_eq_some_iff.mp h
    cases r with
    | symbol position =>
      obtain ⟨fixed, hhead⟩ := hnumbered.named position name hget
      rw [hheads] at hhead
      obtain ⟨symbol, hsymbol, heq⟩ := Option.map_eq_some_iff.mp hhead
      cases heq
      have hmem := List.mem_of_getElem? hsymbol
      obtain ⟨index, hindex⟩ := Option.isSome_iff_exists.mp (hfixed symbol hmem)
      rw [referenceOperand?, hindices, hsymbol] at hoperand
      simp only [Option.map_some, hindex, Option.getD_some, Option.some.injEq] at hoperand
      exact .inl ⟨symbol, hmem, rfl, index, hindex, hoperand.symm⟩
    | _ =>
      refine .inr ⟨_, by simp, (hdeclared _ (by simp) name).mp hget, ?_⟩
      exact hoperand
  · rintro (⟨symbol, hmem, rfl, index, hindex, rfl⟩ | ⟨r, hr, hget, hoperand⟩)
    · obtain ⟨k, hk⟩ := List.getElem?_of_mem hmem
      have hreferred := hnumbered.referred k symbol.name symbol.fixed (by rw [hheads, hk]; rfl)
      rw [hreferred, Option.bind_some, referenceOperand?, hindices, hk]
      simp [hindex]
    · rw [(hdeclared r hr name).mpr hget, Option.bind_some, referenceOperand?_of_ne_symbol hr,
        hoperand]

theorem indices_of_fixed (hfixed : ∀ symbol ∈ symbols, symbol.fixed.isSome) :
    Linking.indices symbols = .ok (fixedIndices symbols) := by
  unfold Linking.indices
  -- whatever is free, none of it is taken
  generalize freeIndices symbols = free
  induction symbols with
  | nil => rfl
  | cons symbol symbols ih =>
    obtain ⟨hfirst, hrest⟩ := List.forall_mem_cons.mp hfixed
    obtain ⟨index, hindex⟩ := Option.isSome_iff_exists.mp hfirst
    simp only [assignIndices, hindex, ih hrest, fixedIndices, List.map_cons, Option.getD_some]
    rfl

/-! ### Programs in blocks -/

/-- The session of a program with the symbols in this order, all of which ask for an index. -/
structure Arranged (declared : Session) (symbols : List Symbol) (session : Session) : Prop where
  type : session.type = declared.type
  metadata : session.metadata = declared.metadata
  slots : session.slots = declared.slots
  pool : session.pool = declared.pool
  order : session.symbols.toList = symbols
  fixed : ∀ symbol ∈ symbols, symbol.fixed.isSome
  names : ∀ name operand,
    (session.references.get? name).bind (referenceOperand? (fixedIndices symbols)) = some operand ↔
      StandsFor declared symbols name operand

theorem symbols_foldl_addSymbol (session : Session) (symbols : List Symbol) :
    (symbols.foldl addSymbol session).symbols.toList = session.symbols.toList ++ symbols := by
  induction symbols generalizing session with
  | nil => simp
  | cons symbol symbols ih => simp [ih, addSymbol]

theorem arranged_layOut {items : List (Located Item)} (hempty : declared.symbols = #[])
    (hnone : ∀ name position, declared.references.get? name ≠ some (.symbol position))
    (hsession : (layOut declared items).1 = symbols.foldl addSymbol declared)
    (hfixed : ∀ symbol ∈ symbols, symbol.fixed.isSome) :
    Arranged declared symbols (layOut declared items).1 := by
  obtain ⟨htype, -, hmetadata, hslots, hpool⟩ := declarations_layOut declared items
  have hsymbols : (layOut declared items).1.symbols.toList = symbols := by
    rw [hsession, symbols_foldl_addSymbol, hempty]
    rfl
  exact ⟨htype, hmetadata, hslots, hpool, hsymbols, hfixed,
    standsFor_iff hsymbols hfixed (numbered_layOut items hempty hnone)
      fun r hr => get?_layOut_eq_some_iff declared items hr⟩

/-- The code of a symbol is the same in any order of the symbols. -/
theorem Arranged.body_eq (h : Arranged declared symbols session)
    (h' : Arranged declared symbols' session') (hperm : symbols'.Perm symbols) (symbol : Symbol) :
    body session' (fixedIndices symbols') symbol = body session (fixedIndices symbols) symbol := by
  refine body_congr (h'.type.trans h.type.symm) (fun name => Option.ext fun operand => ?_) symbol
  rw [h'.names, StandsFor.perm hperm, h.names]

/-- Where the code of every symbol is known, so is the container. -/
theorem Arranged.linked {code : Symbol → Bytes} (h : Arranged declared symbols session)
    (hcode : ∀ symbol ∈ symbols, body session (fixedIndices symbols) symbol = .ok (code symbol)) :
    Linked session (fixedIndices symbols)
      { type := declared.type, metadata := declared.metadata, slots := declared.slots
        constants := declared.pool.entries
        symbols := symbols.map fun symbol =>
          ⟨some symbol.name, symbol.fixed.getD 0, code symbol⟩ } where
  type := h.type.symm
  metadata := h.metadata.symm
  slots := h.slots.symm
  constants := by rw [h.pool]
  assigned := by rw [h.order, indices_of_fixed h.fixed]
  symbols := by
    rw [h.order, fixedIndices, ← List.map_prod_left_eq_zip, List.forall₂_map_left_iff,
      List.forall₂_map_right_iff, List.forall₂_same]
    exact fun symbol hsymbol => ⟨rfl, rfl, hcode symbol hsymbol⟩

/-- The symbols that blocks make ask for an index. -/
theorem isSome_fixed {set : InstructionSet} {type : ContainerType} {blocks : List Block}
    {f : Block → Symbol} (h : ∀ block ∈ blocks, block.Makes set type (f block)) :
    ∀ symbol ∈ blocks.map f, symbol.fixed.isSome := by
  refine List.forall_mem_map.mpr fun block hblock => ?_
  rw [(h block hblock).fixed]
  rfl

/-- A relation that gives every element at most one partner is a function on related lists. What
the function does elsewhere, `other` says. -/
theorem exists_map_of_forall₂ {α β : Type} {R : α → β → Prop} {xs : List α} {ys : List β}
    (other : α → β) (h : List.Forall₂ R xs ys) (hR : ∀ x y y', R x y → R x y' → y = y') :
    ∃ f : α → β, ys = xs.map f ∧ ∀ x ∈ xs, R x (f x) := by
  classical
  refine ⟨fun x => if h : ∃ y, R x y then h.choose else other x, ?_⟩
  induction h with
  | nil => simp
  | @cons x y xs ys hxy _ ih =>
    have hex : ∃ y, R x y := ⟨y, hxy⟩
    have hx : R x (if h : ∃ y, R x y then h.choose else other x) := by
      rw [dif_pos hex]
      exact hex.choose_spec
    refine ⟨?_, List.forall_mem_cons.mpr ⟨hx, ih.2⟩⟩
    rw [List.map_cons, ← ih.1, hR x _ y hx hxy]

/-- A program in blocks is linked if its blocks make symbols that fit together and have code. -/
theorem link_blocks_of_code {blocks : List Block} {f : Block → Symbol} {code : Symbol → Bytes}
    (hempty : declared.symbols = #[])
    (hnone : ∀ name position, declared.references.get? name ≠ some (.symbol position))
    (hmakes : ∀ block ∈ blocks, block.Makes declared.instructionSet declared.type (f block))
    (hfits : Fits declared (blocks.map f))
    (hcode : ∀ session, Arranged declared (blocks.map f) session → ∀ symbol ∈ blocks.map f,
      body session (fixedIndices (blocks.map f)) symbol = .ok (code symbol)) :
    (layOut declared (blocks.flatMap (·.items))).2.1 = none ∧
      (link (layOut declared (blocks.flatMap (·.items))).1).1 =
        .ok { type := declared.type, metadata := declared.metadata, slots := declared.slots
              constants := declared.pool.entries
              symbols := blocks.map fun block =>
                ⟨some block.name, block.byte, code (f block)⟩ } := by
  have hall : List.Forall₂ (Block.Makes declared.instructionSet declared.type) blocks
      (blocks.map f) := by
    rw [List.forall₂_map_right_iff, List.forall₂_same]
    exact hmakes
  obtain ⟨events, hlayout⟩ := layOut_blocks_iff.mpr ⟨_, hall, hfits, rfl⟩
  have harranged := arranged_layOut hempty hnone (by rw [hlayout]) (isSome_fixed hmakes)
  have hlinked := harranged.linked (hcode _ harranged)
  refine ⟨by rw [hlayout], (link_of_linked hlinked).trans ?_⟩
  rw [List.map_map]
  congr 2
  refine List.map_congr_left fun block hblock => ?_
  simp [(hmakes block hblock).name, (hmakes block hblock).fixed]

/-- **The order of blocks does not matter.** If a program in blocks is laid out and linked, so is
the program with its blocks in any other order, and its container differs in nothing but that the
entries of the blocks stand in that order. -/
theorem link_perm_blocks {items deferred : List (Located Item)} {events : List Event}
    (hread : readProgram items = (.ok (declared, deferred), events)) {blocks : List Block}
    (hlayout : (layOut declared (blocks.flatMap (·.items))).2.1 = none)
    (hlink : (link (layOut declared (blocks.flatMap (·.items))).1).1 = .ok container) :
    (∀ block ∈ blocks, (block.byte.toNat : Int) = block.index.toInt) ∧
      ∃ code : Block → Bytes,
        container.symbols = blocks.map (fun block => ⟨some block.name, block.byte, code block⟩) ∧
          ∀ blocks' : List Block, blocks'.Perm blocks →
            (layOut declared (blocks'.flatMap (·.items))).2.1 = none ∧
              (link (layOut declared (blocks'.flatMap (·.items))).1).1 =
                .ok { container with
                  symbols :=
                    blocks'.map fun block => ⟨some block.name, block.byte, code block⟩ } := by
  obtain ⟨head, rest, lines, type, -, -, -, -, hreading⟩ := reading_readProgram hread
  have hempty := symbols_readProgram hread
  have hnone := (hreading.tables (tables_empty type)).noSymbol
  obtain ⟨symbols, hmakes, hfits, hsession⟩ := layOut_blocks_iff.mp
    ⟨(layOut declared (blocks.flatMap (·.items))).2.2, Prod.ext rfl (Prod.ext hlayout rfl)⟩
  obtain ⟨f, rfl, hf⟩ := exists_map_of_forall₂ Block.opened hmakes fun _ _ _ => Block.Makes.unique
  have hfixed := isSome_fixed hf
  have harranged := arranged_layOut hempty hnone hsession hfixed
  obtain ⟨indices, hlinked⟩ := linked_of_link hlink
  obtain rfl : indices = fixedIndices (blocks.map f) := by
    have hassigned := hlinked.assigned
    rw [harranged.order, indices_of_fixed hfixed] at hassigned
    exact (Except.ok.inj hassigned).symm
  have hcode : ∀ symbol ∈ blocks.map f, ∃ bytes,
      body (layOut declared (blocks.flatMap (·.items))).1 (fixedIndices (blocks.map f)) symbol =
        .ok bytes := by
    intro symbol hsymbol
    have hentries := hlinked.entries
    rw [harranged.order] at hentries
    obtain ⟨entry, -, -, hbody⟩ := exists_of_forall₂ hentries.flip hsymbol
    exact ⟨entry.body, hbody⟩
  choose! code hcode using hcode
  refine ⟨fun block hblock => ?_, fun block => code (f block), ?_⟩
  · obtain ⟨hlow, hhigh⟩ := (hf block hblock).inRange
    exact Width.toNat_lowByte hlow (Int.le_trans hhigh (by decide))
  -- in any order, the given one included, the symbols fit together and have this code
  have hany (blocks' : List Block) (hperm : blocks'.Perm blocks) :=
    link_blocks_of_code hempty hnone (fun block hblock => hf block (hperm.subset hblock))
      (hfits.perm (hperm.map f)) fun session hsession symbol hsymbol =>
        (harranged.body_eq hsession (hperm.map f) symbol).trans
          (hcode symbol ((hperm.map f).subset hsymbol))
  obtain rfl := Except.ok.inj (hlink.symm.trans (hany blocks (.refl _)).2)
  exact ⟨rfl, hany⟩

/-- A symbol that calls another and jumps back to its own label. -/
def callerBlock : Block where
  items := List.map .nowhere
    [.directive "symbol", .word "main", .separator ',', .number 1, .lineEnd,
      .word "top", .separator ':', .word "call", .word "leaf", .lineEnd,
      .word "jmp", .word "top", .lineEnd]
  loc := none
  name := "main"
  index := 1
  body := [List.map .nowhere [.word "top", .separator ':', .word "call", .word "leaf"],
    List.map .nowhere [.word "jmp", .word "top"]]
  opening := ⟨none, none, none, ',', by decide⟩
  inside := by decide
  closed := by decide

/-- A symbol that refers to the one above, with a label of the same name. -/
def leafBlock : Block where
  items := List.map .nowhere
    [.directive "symbol", .word "leaf", .separator ',', .number 0, .lineEnd,
      .word "symref", .word "main", .lineEnd,
      .word "top", .separator ':', .word "jmp", .word "top", .lineEnd]
  loc := none
  name := "leaf"
  index := 0
  body := [List.map .nowhere [.word "symref", .word "main"],
    List.map .nowhere [.word "top", .separator ':', .word "jmp", .word "top"]]
  opening := ⟨none, none, none, ',', by decide⟩
  inside := by decide
  closed := by decide

/-- The container of the two symbols in this order. -/
def callerContainer : Container where
  type := ⟨.executable, .w16⟩
  metadata := {}
  slots := []
  constants := []
  symbols :=
    [⟨some "main", 1, [0x08, 0, 0x10, 0xFE, 0xFF]⟩, ⟨some "leaf", 0, [0x0A, 1, 0x10, 0, 0]⟩]

theorem link_perm_blocks_caller :
    (link (layOut { type := ⟨.executable, .w16⟩ }
        ([callerBlock, leafBlock].flatMap (·.items))).1).1 = .ok callerContainer ∧
      (link (layOut { type := ⟨.executable, .w16⟩ }
        ([leafBlock, callerBlock].flatMap (·.items))).1).1 =
          .ok { callerContainer with symbols := callerContainer.symbols.reverse } := by
  have hread : readProgram (List.map .nowhere [.directive "cwx", .separator ':', .number 16]) =
      (.ok ({ type := ⟨.executable, .w16⟩ }, []),
        [.header ⟨.executable, .w16⟩, .declared 0 0 0]) := by
    decide +kernel
  have hlayout : (layOut { type := ⟨.executable, .w16⟩ }
      ([callerBlock, leafBlock].flatMap (·.items))).2.1 = none := by decide +kernel
  have hlink : (link (layOut { type := ⟨.executable, .w16⟩ }
      ([callerBlock, leafBlock].flatMap (·.items))).1).1 = .ok callerContainer := by
    decide +kernel
  obtain ⟨-, code, hsymbols, hall⟩ := link_perm_blocks hread hlayout hlink
  refine ⟨hlink, (hall [leafBlock, callerBlock] (List.Perm.swap _ _ _)).2.trans ?_⟩
  rw [hsymbols]
  rfl

end StackAsm.Linking
