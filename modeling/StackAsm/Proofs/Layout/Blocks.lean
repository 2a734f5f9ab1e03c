import StackAsm.Proofs.Layout.Symbols

/-!
# Programs in blocks

A block is a line that opens a symbol with an index, and the lines of that symbol. What its lines
do they do to the symbol that is open: what becomes of it depends on the instructions and the width
of the container, and neither on the symbols before it nor on any name. So a program in blocks is
laid out exactly if every block makes a symbol, and if the symbols have names and indices that are
free and differ; and then it has these symbols in the order of the blocks.
-/

namespace StackAsm.Layout

/-! ### Steps on the open symbol -/

variable {set : InstructionSet} {type : ContainerType}

/-- In a container of the type, the step makes `after` of the symbol that is open, whatever symbols
and names there are, and does nothing else. -/
def Turns (set : InstructionSet) (type : ContainerType) (x : LayOut Unit)
    (symbol after : Symbol) : Prop :=
  ∀ (s : State) (before : Array Symbol), s.session.instructionSet = set → s.session.type = type →
    s.session.symbols = before.push symbol → s.current = some before.size →
      ∃ events, x s =
        .ok () { s with session := { s.session with symbols := before.push after }, events }

theorem turns_pure (symbol : Symbol) : Turns set type (pure ()) symbol symbol := by
  intro s before _ _ hlast _
  refine ⟨s.events, ?_⟩
  rw [← hlast]
  rfl

theorem Turns.bind {x y : LayOut Unit} {symbol middle after : Symbol}
    (hx : Turns set type x symbol middle) (hy : Turns set type y middle after) :
    Turns set type (x >>= fun _ => y) symbol after := by
  intro s before hset htype hlast hcurrent
  obtain ⟨events, hfirst⟩ := hx s before hset htype hlast hcurrent
  obtain ⟨events', hsecond⟩ :=
    hy { s with session := { s.session with symbols := before.push middle }, events } before hset
      htype rfl hcurrent
  exact ⟨events', estate_bind_eq_ok.mpr ⟨(), _, hfirst, hsecond⟩⟩

/-- A step makes one thing of a symbol. -/
theorem Turns.unique {x : LayOut Unit} {symbol after after' : Symbol}
    (h : Turns set type x symbol after) (h' : Turns set type x symbol after') : after = after' := by
  let s : State :=
    { session := { type, instructionSet := set, symbols := #[symbol] }, current := some 0 }
  obtain ⟨events, hrun⟩ := h s #[] rfl rfl rfl rfl
  obtain ⟨events', hrun'⟩ := h' s #[] rfl rfl rfl rfl
  rw [hrun] at hrun'
  simpa using congrArg (·.session.symbols) (EStateM.Result.ok.inj hrun').2

/-- Where the step succeeds it does so by what it makes of the open symbol, whose name and index it
leaves alone. -/
def ActsOnOpen (x : LayOut Unit) : Prop :=
  ∀ (s t : State) (before : Array Symbol) (symbol : Symbol),
    s.session.symbols = before.push symbol → s.current = some before.size → x s = .ok () t →
      ∃ after : Symbol, after.name = symbol.name ∧ after.fixed = symbol.fixed ∧
        Turns s.session.instructionSet s.session.type x symbol after

theorem actsOnOpen_pure : ActsOnOpen (pure ()) :=
  fun _ _ _ symbol _ _ _ => ⟨symbol, rfl, rfl, turns_pure symbol⟩

theorem actsOnOpen_throw (e : Located Error) : ActsOnOpen (throw e) := by
  intro s t before symbol _ _ h
  cases h

theorem ActsOnOpen.bind {x y : LayOut Unit} (hx : ActsOnOpen x) (hy : ActsOnOpen y) :
    ActsOnOpen (x >>= fun _ => y) := by
  intro s t before symbol hlast hcurrent h
  obtain ⟨⟨⟩, s₁, hfirst, hsecond⟩ := estate_bind_eq_ok.mp h
  obtain ⟨middle, hname, hfixed, hturns⟩ := hx s s₁ before symbol hlast hcurrent hfirst
  obtain ⟨events, hrun⟩ := hturns s before rfl rfl hlast hcurrent
  cases hfirst.symm.trans hrun
  obtain ⟨after, hname', hfixed', hturns'⟩ :=
    hy { s with session := { s.session with symbols := before.push middle }, events } t before
      middle rfl hcurrent hsecond
  exact ⟨after, hname'.trans hname, hfixed'.trans hfixed, hturns.bind hturns'⟩

/-- Of the session, only the instructions and the width matter for reading an instruction. -/
theorem readInstruction_congr {session session' : Session}
    (hset : session'.instructionSet = session.instructionSet)
    (htype : session'.type = session.type) (head : Located Item) (rest : List (Located Item)) :
    readInstruction session' head rest = readInstruction session head rest := by
  unfold readInstruction
  rw [hset, htype]

theorem actsOnOpen_instructionLine (head : Located Item) (rest : List (Located Item)) :
    ActsOnOpen (instructionLine head rest) := by
  intro s t before symbol _ _ h
  obtain ⟨_, _, hget, h⟩ := estate_bind_eq_ok.mp h
  cases hget
  obtain ⟨⟨i, arguments⟩, s₁, hread, -⟩ := estate_bind_eq_ok.mp h
  obtain ⟨hread, rfl⟩ := orFail_eq_ok hread
  refine ⟨symbol.place s₁.session.type.width i arguments head.loc, rfl, rfl, ?_⟩
  intro s' before' hset htype hlast hcurrent
  rw [← readInstruction_congr hset htype] at hread
  rw [← htype]
  exact instructionLine_of_read hread hlast hcurrent

theorem actsOnOpen_setLabel (head : Located Item) (name : String) :
    ActsOnOpen (setLabel head name) := by
  intro s t before symbol hlast hcurrent h
  rw [setLabel, estate_bind_of_ok (openSymbol_of_last head hlast hcurrent)] at h
  have hfree : symbol.labels.contains name = false := by
    by_contra htaken
    rw [Bool.not_eq_false] at htaken
    simp only [if_pos htaken] at h
    cases h
  refine ⟨symbol.setLabel name, rfl, rfl, ?_⟩
  intro s' before' _ _ hlast' hcurrent'
  exact ⟨s'.events, setLabel_of_free head hlast' hcurrent' hfree⟩

theorem actsOnOpen_layOutLine {head : Located Item} (h : head.value ≠ .directive "symbol")
    (rest : List (Located Item)) : ActsOnOpen (layOutLine head rest) := by
  unfold layOutLine
  split
  · next hvalue => exact absurd hvalue h
  · exact actsOnOpen_throw _
  · refine (actsOnOpen_setLabel head _).bind ?_
    split
    · exact actsOnOpen_pure
    · exact actsOnOpen_instructionLine _ _
  · exact actsOnOpen_instructionLine head _

/-- Lines that open no symbol act on the open one. -/
theorem actsOnOpen_layOutLines {lines : List (List (Located Item))}
    (h : ∀ line ∈ lines, ∀ head ∈ line.head?, head.value ≠ .directive "symbol") :
    ActsOnOpen (layOutLines lines) := by
  induction lines with
  | nil => exact actsOnOpen_pure
  | cons line lines ih =>
    obtain ⟨hline, hlines⟩ := List.forall_mem_cons.mp h
    cases line with
    | nil => exact ih hlines
    | cons head rest => exact (actsOnOpen_layOutLine (hline head rfl) rest).bind (ih hlines)

/-! ### Blocks -/

/-- A line that opens a symbol with an index, and the lines of the symbol. -/
structure Block where
  /-- Its items, with the ends of the lines. -/
  items : List (Located Item)
  /-- Where the symbol is opened. -/
  loc : Option Location
  name : String
  index : Int64
  /-- The lines of the symbol. -/
  body : List (List (Located Item))
  opening : ∃ loc₁ loc₂ loc₃ c, Item.lines items =
    [⟨loc, .directive "symbol"⟩, ⟨loc₁, .word name⟩, ⟨loc₂, .separator c⟩,
      ⟨loc₃, .number index⟩] :: body
  inside : ∀ line ∈ body, ∀ head ∈ line.head?, head.value ≠ .directive "symbol"
  closed : items.getLast?.map (·.value) = some .lineEnd

/-- The index of the symbol as a byte. -/
def Block.byte (block : Block) : UInt8 := block.index.toUInt64.toUInt8

/-- The symbol as it is opened. -/
def Block.opened (block : Block) : Symbol :=
  { name := block.name, fixed := some block.byte, loc := block.loc }

/-- The block makes the symbol. -/
structure Block.Makes (set : InstructionSet) (type : ContainerType) (block : Block)
    (symbol : Symbol) : Prop where
  name : symbol.name = block.name
  fixed : symbol.fixed = some block.byte
  inRange : 0 ≤ block.index.toInt ∧ block.index.toInt ≤ Limit.symbolIndex
  turns : Turns set type (layOutLines block.body) block.opened symbol

theorem Block.Makes.unique {block : Block} {symbol symbol' : Symbol}
    (h : block.Makes set type symbol) (h' : block.Makes set type symbol') : symbol = symbol' :=
  h.turns.unique h'.turns

/-- A symbol with an index is opened if its name and its index are free. -/
theorem symbolLine_apply {head : Located Item} {rest : List (Located Item)}
    {name : Located String} {index : UInt8}
    (hread : readSymbol head rest = .ok (name, some index)) (s : State) :
    symbolLine head rest s =
      if s.session.isTaken name.value then .error (name.map .nameTaken) s
      else if s.session.symbols.any (·.fixed == some index) then
        .error (name.withValue (.duplicateSymbolIndex index)) s
      else .ok ()
        { session := addSymbol s.session
            { name := name.value, fixed := some index, loc := head.loc }
          current := some s.session.symbols.size
          events := s.events.push (.symbolOpened name.value (some index)) } := by
  unfold symbolLine
  rw [hread]
  by_cases htaken : s.session.isTaken name.value = true
  · rw [if_pos htaken]
    show (if s.session.isTaken name.value = true then _ else _ : LayOut Unit) s = _
    rw [if_pos htaken]
    rfl
  · rw [if_neg htaken]
    show (if s.session.isTaken name.value = true then _ else _ : LayOut Unit) s = _
    rw [if_neg htaken]
    show (if s.session.symbols.any (·.fixed == some index) = true then _ else _ : LayOut Unit) s = _
    split
    · rfl
    · rfl

/-- The name and the index of the symbol are free. -/
structure Admits (session : Session) (symbol : Symbol) : Prop where
  free : session.isTaken symbol.name = false
  unclaimed : ∀ other ∈ session.symbols, other.fixed ≠ symbol.fixed

/-- A block is laid out in two steps: its symbol is opened, and its lines are laid out. -/
theorem layOutLines_block_eq_ok {block : Block} {s t : State} :
    layOutLines (Item.lines block.items) s = .ok () t ↔
      (0 ≤ block.index.toInt ∧ block.index.toInt ≤ Limit.symbolIndex) ∧
        Admits s.session block.opened ∧
        layOutLines block.body
          { session := addSymbol s.session block.opened
            current := some s.session.symbols.size
            events := s.events.push (.symbolOpened block.name (some block.byte)) } = .ok () t := by
  obtain ⟨loc₁, loc₂, loc₃, c, hlines⟩ := block.opening
  rw [hlines]
  show (symbolLine ⟨block.loc, .directive "symbol"⟩ [⟨loc₁, .word block.name⟩, ⟨loc₂, .separator c⟩,
    ⟨loc₃, .number block.index⟩] >>= fun _ => layOutLines block.body) s = _ ↔ _
  rw [estate_bind_eq_ok]
  by_cases hrange : 0 ≤ block.index.toInt ∧ block.index.toInt ≤ Limit.symbolIndex
  · have hread : readSymbol ⟨block.loc, .directive "symbol"⟩ [⟨loc₁, .word block.name⟩,
        ⟨loc₂, .separator c⟩, ⟨loc₃, .number block.index⟩] =
        .ok (⟨loc₁, block.name⟩, some block.byte) := if_pos hrange
    have hclaimed : s.session.symbols.any (·.fixed == some block.byte) = true ↔
        ¬∀ other ∈ s.session.symbols, other.fixed ≠ block.opened.fixed := by
      rw [Array.any_eq_true']
      simp [Block.opened]
    rw [symbolLine_apply hread]
    constructor
    · rintro ⟨⟨⟩, s₁, hopen, hbody⟩
      split at hopen
      · cases hopen
      · next hfree =>
        split at hopen
        · cases hopen
        · next hunclaimed =>
          cases hopen
          have hfree' := eq_false_of_ne_true hfree
          exact ⟨hrange, ⟨hfree', not_not.mp (hclaimed.not.mp hunclaimed)⟩, hbody⟩
    · rintro ⟨-, ⟨hfree, hunclaimed⟩, hbody⟩
      have hfree' : ¬s.session.isTaken block.name = true := ne_true_of_eq_false hfree
      rw [if_neg hfree', if_neg (hclaimed.not.mpr (not_not.mpr hunclaimed))]
      exact ⟨(), _, rfl, hbody⟩
  · have hread : readSymbol ⟨block.loc, .directive "symbol"⟩ [⟨loc₁, .word block.name⟩,
        ⟨loc₂, .separator c⟩, ⟨loc₃, .number block.index⟩] =
        .error ⟨loc₃, .symbolIndexOutOfRange block.index⟩ := if_neg hrange
    constructor
    · rintro ⟨⟨⟩, s₁, hopen, -⟩
      obtain ⟨⟨name, fixed⟩, _, hfail, -⟩ := estate_bind_eq_ok.mp hopen
      rw [(orFail_eq_ok hfail).1] at hread
      cases hread
    · rintro ⟨hin, -⟩
      exact absurd hin hrange

/-- A block that is laid out makes a symbol, which is added to those before. -/
theorem exists_makes_of_layOutLines {block : Block} {s t : State}
    (h : layOutLines (Item.lines block.items) s = .ok () t) :
    ∃ symbol, block.Makes s.session.instructionSet s.session.type symbol ∧
      Admits s.session symbol ∧ t.session = addSymbol s.session symbol := by
  obtain ⟨hrange, hadmits, hbody⟩ := layOutLines_block_eq_ok.mp h
  obtain ⟨symbol, hname, hfixed, hturns⟩ :=
    actsOnOpen_layOutLines block.inside _ t s.session.symbols block.opened rfl rfl hbody
  obtain ⟨events, hrun⟩ := hturns _ s.session.symbols rfl rfl rfl rfl
  cases hbody.symm.trans hrun
  refine ⟨symbol, ⟨hname, hfixed, hrange, hturns⟩, ⟨?_, ?_⟩, ?_⟩
  · rw [hname]
    exact hadmits.free
  · rw [hfixed]
    exact hadmits.unclaimed
  · simp only [addSymbol, hname]

/-- A block that makes a symbol is laid out if the name and the index of the symbol are free. -/
theorem exists_layOutLines_of_makes {block : Block} {s : State} {symbol : Symbol}
    (h : block.Makes s.session.instructionSet s.session.type symbol)
    (hadmits : Admits s.session symbol) :
    ∃ current events, layOutLines (Item.lines block.items) s =
      .ok () { session := addSymbol s.session symbol, current, events } := by
  let s₁ : State :=
    { session := addSymbol s.session block.opened
      current := some s.session.symbols.size
      events := s.events.push (.symbolOpened block.name (some block.byte)) }
  obtain ⟨events, hrun⟩ := h.turns s₁ s.session.symbols rfl rfl rfl rfl
  have hopened : Admits s.session block.opened := by
    obtain ⟨hfree, hunclaimed⟩ := hadmits
    rw [h.name] at hfree
    rw [h.fixed] at hunclaimed
    exact ⟨hfree, hunclaimed⟩
  refine ⟨some s.session.symbols.size, events,
    layOutLines_block_eq_ok.mpr ⟨h.inRange, hopened, hrun.trans ?_⟩⟩
  simp only [s₁, addSymbol, h.name]
  rfl

/-! ### Programs in blocks -/

theorem layOutLines_append (lines lines' : List (List (Located Item))) :
    layOutLines (lines ++ lines') = layOutLines lines >>= fun _ => layOutLines lines' := by
  induction lines with
  | nil => rfl
  | cons line lines ih =>
    cases line with
    | nil => exact ih
    | cons head rest =>
      rw [List.cons_append, layOutLines, ih, layOutLines, bind_assoc]

/-- The symbols have names and indices that are free and differ. -/
structure Fits (session : Session) (symbols : List Symbol) : Prop where
  free : ∀ symbol ∈ symbols, session.isTaken symbol.name = false
  names : (symbols.map (·.name)).Nodup
  unclaimed : ∀ symbol ∈ symbols, ∀ other ∈ session.symbols, other.fixed ≠ symbol.fixed
  indices : (symbols.map (·.fixed)).Nodup

/-- The order of the symbols does not matter. -/
theorem Fits.perm {session : Session} {symbols symbols' : List Symbol} (h : Fits session symbols)
    (hperm : symbols'.Perm symbols) : Fits session symbols' where
  free symbol hsymbol := h.free symbol (hperm.subset hsymbol)
  names := (hperm.map _).nodup_iff.mpr h.names
  unclaimed symbol hsymbol := h.unclaimed symbol (hperm.subset hsymbol)
  indices := (hperm.map _).nodup_iff.mpr h.indices

theorem isTaken_addSymbol {session : Session} {symbol : Symbol} {name : String} :
    (addSymbol session symbol).isTaken name = false ↔
      name ≠ symbol.name ∧ session.isTaken name = false := by
  by_cases hname : name = symbol.name
  · simp [Session.isTaken, Table.contains, addSymbol, Session.refer, hname, Table.get?_insert]
  · simp [Session.isTaken, Table.contains, addSymbol, Session.refer, hname, Table.get?_insert]

/-- Symbols may be added one after the other. -/
theorem fits_cons {session : Session} {symbol : Symbol} {symbols : List Symbol} :
    Fits session (symbol :: symbols) ↔
      Admits session symbol ∧ Fits (addSymbol session symbol) symbols := by
  constructor
  · rintro ⟨hfree, hnames, hunclaimed, hindices⟩
    obtain ⟨hfirst, hfree⟩ := List.forall_mem_cons.mp hfree
    obtain ⟨hfirst', hunclaimed⟩ := List.forall_mem_cons.mp hunclaimed
    obtain ⟨hname, hnames⟩ := List.nodup_cons.mp hnames
    obtain ⟨hindex, hindices⟩ := List.nodup_cons.mp hindices
    refine ⟨⟨hfirst, hfirst'⟩, fun other hother => ?_, hnames, fun other hother older holder => ?_,
      hindices⟩
    · refine isTaken_addSymbol.mpr ⟨?_, hfree other hother⟩
      intro heq
      exact hname (List.mem_map.mpr ⟨other, hother, heq⟩)
    · rcases Array.mem_push.mp holder with hold | rfl
      · exact hunclaimed other hother older hold
      · intro heq
        exact hindex (List.mem_map.mpr ⟨other, hother, heq.symm⟩)
  · rintro ⟨⟨hfirst, hfirst'⟩, hfree, hnames, hunclaimed, hindices⟩
    refine ⟨List.forall_mem_cons.mpr ⟨hfirst, fun other hother => ?_⟩, ?_,
      List.forall_mem_cons.mpr ⟨hfirst', fun other hother older holder => ?_⟩, ?_⟩
    · exact (isTaken_addSymbol.mp (hfree other hother)).2
    · refine List.nodup_cons.mpr ⟨fun hmem => ?_, hnames⟩
      obtain ⟨other, hother, heq⟩ := List.mem_map.mp hmem
      exact (isTaken_addSymbol.mp (hfree other hother)).1 heq
    · exact hunclaimed other hother older (Array.mem_push_of_mem _ holder)
    · refine List.nodup_cons.mpr ⟨fun hmem => ?_, hindices⟩
      obtain ⟨other, hother, heq⟩ := List.mem_map.mp hmem
      exact hunclaimed other hother symbol Array.mem_push_self heq.symm

theorem lines_flatMap_items (blocks : List Block) :
    Item.lines (blocks.flatMap (·.items)) = blocks.flatMap fun block => Item.lines block.items := by
  induction blocks with
  | nil => rfl
  | cons block blocks ih =>
    rw [List.flatMap_cons, Item.lines_append block.closed, ih, List.flatMap_cons]

theorem layOutLines_blocks_iff {blocks : List Block} {s : State} {session' : Session} :
    (∃ current events, layOutLines (blocks.flatMap fun block => Item.lines block.items) s =
        .ok () { session := session', current, events }) ↔
      ∃ symbols,
        List.Forall₂ (Block.Makes s.session.instructionSet s.session.type) blocks symbols ∧
          Fits s.session symbols ∧ session' = symbols.foldl addSymbol s.session := by
  induction blocks generalizing s with
  | nil =>
    constructor
    · rintro ⟨current, events, h⟩
      cases h
      exact ⟨[], .nil, ⟨by simp, List.nodup_nil, by simp, List.nodup_nil⟩, rfl⟩
    · rintro ⟨symbols, hmakes, -, rfl⟩
      cases hmakes
      exact ⟨s.current, s.events, rfl⟩
  | cons block blocks ih =>
    rw [List.flatMap_cons, layOutLines_append]
    constructor
    · rintro ⟨current, events, h⟩
      obtain ⟨⟨⟩, s₁, hblock, hrest⟩ := estate_bind_eq_ok.mp h
      obtain ⟨symbol, hmakes, hadmits, hsession⟩ := exists_makes_of_layOutLines hblock
      obtain ⟨symbols, hall, hfits, rfl⟩ := ih.mp ⟨current, events, hrest⟩
      rw [hsession] at hall hfits ⊢
      exact ⟨symbol :: symbols, .cons hmakes hall, fits_cons.mpr ⟨hadmits, hfits⟩, rfl⟩
    · rintro ⟨symbols, hall, hfits, rfl⟩
      cases hall with
      | @cons _ symbol _ symbols hmakes hall =>
        obtain ⟨hadmits, hfits⟩ := fits_cons.mp hfits
        obtain ⟨current, events₁, hblock⟩ := exists_layOutLines_of_makes hmakes hadmits
        let s₁ : State := { session := addSymbol s.session symbol, current, events := events₁ }
        obtain ⟨current', events, hrest⟩ := (ih (s := s₁)).mpr ⟨symbols, hall, hfits, rfl⟩
        exact ⟨current', events, estate_bind_eq_ok.mpr ⟨(), s₁, hblock, hrest⟩⟩

/-- **A program in blocks is laid out exactly if every block makes a symbol, and these symbols have
names and indices that are free and differ.** The session then has them in the order of the
blocks. -/
theorem layOut_blocks_iff {session session' : Session} {blocks : List Block} :
    (∃ events, layOut session (blocks.flatMap (·.items)) = (session', none, events)) ↔
      ∃ symbols,
        List.Forall₂ (Block.Makes session.instructionSet session.type) blocks symbols ∧
          Fits session symbols ∧ session' = symbols.foldl addSymbol session := by
  refine Iff.trans ?_ (layOutLines_blocks_iff (s := { session }))
  rw [layOut, lines_flatMap_items]
  cases layOutLines (blocks.flatMap fun block => Item.lines block.items) { session } with
  | error e s => simp
  | ok u s =>
    constructor
    · rintro ⟨events, h⟩
      cases h
      exact ⟨s.current, s.events, rfl⟩
    · rintro ⟨current, events, h⟩
      cases h
      exact ⟨_, rfl⟩

end StackAsm.Layout
