import StackAsm.Layout
import StackAsm.Proofs.Effects
import StackAsm.Proofs.InstructionSet
import StackAsm.Proofs.Item
import StackAsm.Proofs.Width

/-!
# How a program is laid out

Every line of a layout makes at most three kinds of changes to the session: it opens a symbol, sets
a label in the symbol opened last, or places an instruction at the end of that symbol. A layout is
a sequence of such changes, also where it stops at an error.

What follows from that: the declarations stay as they were, and in every symbol the instructions
stand one behind the other from offset zero, each with as many operands as it has contracts.
-/

namespace StackAsm.Layout

/-! ### Changes -/

/-- One change of a session by a layout of the items. -/
inductive Change (items : List (Located Item)) (session : Session) : Session → Prop where
  /-- A symbol is opened; its name and the index it asks for are free. -/
  | opened (name : String) (fixed : Option UInt8) (loc : Option Location)
      (free : session.isTaken name = false)
      (inRange : ∀ index ∈ fixed, index.toNat ≤ Limit.symbolIndex)
      (unclaimed : ∀ index ∈ fixed, ∀ symbol ∈ session.symbols, symbol.fixed ≠ some index) :
      Change items session (addSymbol session { name, fixed, loc })
  /-- A label is set at the end of the last symbol, which has none of that name. -/
  | labelled (before : Array Symbol) (symbol : Symbol) (name : String)
      (last : session.symbols = before.push symbol) (free : symbol.labels.contains name = false) :
      Change items session { session with symbols := before.push (symbol.setLabel name) }
  /-- An instruction is placed at the end of the last symbol, with operands that are written among
  the items and that its contracts take. -/
  | placed (before : Array Symbol) (symbol : Symbol) (mnemonic : String) (i : Instruction)
      (arguments : List (Located Binding)) (loc : Option Location)
      (last : session.symbols = before.push symbol)
      (found : session.instructionSet.find? mnemonic = some i)
      (written : ∀ argument ∈ arguments, ∃ item ∈ items, readOperand item = .ok argument)
      (count : arguments.length = i.contracts.length)
      (checked : checkOperands session.type.width i.name 1 i.contracts arguments = .ok ()) :
      Change items session
        { session with
          symbols := before.push (symbol.place session.type.width i arguments loc) }

/-- The index that a line opening a symbol asks for is in range. -/
theorem readSymbol_inRange {head : Located Item} {rest : List (Located Item)}
    {name : Located String} {fixed : Option UInt8} (h : readSymbol head rest = .ok (name, fixed)) :
    ∀ index ∈ fixed, index.toNat ≤ Limit.symbolIndex := by
  unfold readSymbol at h
  -- only a bare name and a name with a checked index are read
  repeat' split at h
  all_goals cases h
  · simp
  · next n _ _ hn =>
    rintro index ⟨⟩
    have hbyte := Width.toNat_lowByte hn.1 (Int.le_trans hn.2 (by decide))
    have hle := hn.2
    omega

/-- Every operand of a line is written in it. -/
theorem readOperands_eq_ok {items : List (Located Item)} {arguments : List (Located Binding)}
    (h : readOperands items = .ok arguments) :
    ∀ argument ∈ arguments, ∃ item ∈ items, readOperand item = .ok argument := by
  induction items using readOperands.induct generalizing arguments with
  | case1 =>
    cases h
    simp
  | case2 item =>
    obtain ⟨argument, hargument, rfl⟩ := except_map_eq_ok.mp h
    simpa using hargument
  | case3 item separator =>
    obtain ⟨argument, -, h⟩ := except_bind_eq_ok.mp h
    split at h <;> cases h
  | case4 item separator items hne ih =>
    rw [readOperands.eq_4 _ _ _ hne] at h
    obtain ⟨argument, hargument, h⟩ := except_bind_eq_ok.mp h
    split at h
    · obtain ⟨rest, hrest, h⟩ := except_bind_eq_ok.mp h
      cases h
      refine List.forall_mem_cons.mpr ⟨⟨item, by simp, hargument⟩, fun other hother => ?_⟩
      obtain ⟨x, hx, hread⟩ := ih hrest other hother
      exact ⟨x, by simp [hx], hread⟩
    · cases h

/-- What is known of an instruction that was read. -/
theorem readInstruction_eq_ok {session : Session} {head : Located Item}
    {rest : List (Located Item)} {i : Instruction} {arguments : List (Located Binding)}
    (h : readInstruction session head rest = .ok (i, arguments)) :
    ∃ mnemonic, session.instructionSet.find? mnemonic = some i ∧
      (∀ argument ∈ arguments, ∃ item ∈ rest, readOperand item = .ok argument) ∧
      arguments.length = i.contracts.length ∧
      checkOperands session.type.width i.name 1 i.contracts arguments = .ok () := by
  unfold readInstruction at h
  split at h
  · next mnemonic _ =>
    split at h
    · cases h
    · next found hfound =>
      obtain ⟨read, hread, h⟩ := except_bind_eq_ok.mp h
      by_cases hcount : read.length = found.contracts.length
      · rw [if_neg (not_not.mpr hcount)] at h
        obtain ⟨⟨⟩, hchecked, h⟩ := except_bind_eq_ok.mp h
        cases h
        exact ⟨mnemonic, hfound, readOperands_eq_ok hread, hcount, hchecked⟩
      · rw [if_pos hcount] at h
        cases h
  · cases h

/-- Changing the last symbol leaves those before it alone. -/
theorem modify_push (before : Array Symbol) (symbol : Symbol) (change : Symbol → Symbol) :
    (before.push symbol).modify before.size change = before.push (change symbol) := by
  apply Array.ext
  · simp
  · intro k hk hk'
    simp only [Array.getElem_modify, Array.getElem_push]
    by_cases hlt : k < before.size
    · simp [hlt, Nat.ne_of_gt hlt]
    · have hlast : k = before.size := by
        rw [Array.size_push] at hk'
        omega
      simp [hlast]

theorem changeSymbol_of_last {session : Session} {before : Array Symbol} {symbol : Symbol}
    (h : session.symbols = before.push symbol) (change : Symbol → Symbol) :
    changeSymbol session before.size change =
      { session with symbols := before.push (change symbol) } := by
  rw [changeSymbol, h, modify_push]

/-! ### The open symbol -/

/-- The part of the state that lines change: the session, and the position of the open symbol. -/
def State.work (s : State) : Session × Option Nat := (s.session, s.current)

/-- One change of that part by a line. -/
inductive Step (items : List (Located Item)) :
    Session × Option Nat → Session × Option Nat → Prop where
  /-- A symbol is opened. -/
  | opened {session : Session} {current : Option Nat} {name : String} {fixed : Option UInt8}
      {loc : Option Location} (free : session.isTaken name = false)
      (inRange : ∀ index ∈ fixed, index.toNat ≤ Limit.symbolIndex)
      (unclaimed : ∀ index ∈ fixed, ∀ symbol ∈ session.symbols, symbol.fixed ≠ some index) :
      Step items (session, current)
        (addSymbol session { name, fixed, loc }, some session.symbols.size)
  /-- A label is set in the open symbol. -/
  | labelled {session : Session} {position : Nat} {symbol : Symbol} {name : String}
      (current : session.symbols[position]? = some symbol)
      (free : symbol.labels.contains name = false) :
      Step items (session, some position)
        (changeSymbol session position (·.setLabel name), some position)
  /-- An instruction is placed in the open symbol. -/
  | placed {session : Session} {position : Nat} {symbol : Symbol} {mnemonic : String}
      {i : Instruction} {arguments : List (Located Binding)} {loc : Option Location}
      (current : session.symbols[position]? = some symbol)
      (found : session.instructionSet.find? mnemonic = some i)
      (written : ∀ argument ∈ arguments, ∃ item ∈ items, readOperand item = .ok argument)
      (count : arguments.length = i.contracts.length)
      (checked : checkOperands session.type.width i.name 1 i.contracts arguments = .ok ()) :
      Step items (session, some position)
        (changeSymbol session position (·.place session.type.width i arguments loc), some position)

/-- The open symbol is the last. -/
def OpenIsLast (work : Session × Option Nat) : Prop :=
  ∀ position ∈ work.2, work.1.symbols.size = position + 1

theorem exists_last {session : Session} {position : Nat} {symbol : Symbol}
    (hopen : OpenIsLast (session, some position))
    (hsymbol : session.symbols[position]? = some symbol) :
    ∃ before : Array Symbol, session.symbols = before.push symbol ∧ position = before.size := by
  have hsize : session.symbols.size = position + 1 := hopen position rfl
  have hback : session.symbols.back? = some symbol := by
    rw [Array.back?_eq_getElem?, hsize, Nat.add_sub_cancel, hsymbol]
  obtain ⟨before, hlast⟩ := Array.back?_eq_some_iff.mp hback
  rw [hlast, Array.size_push] at hsize
  exact ⟨before, hlast, (Nat.succ.inj hsize).symm⟩

variable {items : List (Located Item)}

/-- As long as the open symbol is the last, lines change the last symbol, and it stays so. -/
theorem Step.change {work work' : Session × Option Nat} (h : Step items work work')
    (hopen : OpenIsLast work) : Change items work.1 work'.1 ∧ OpenIsLast work' := by
  cases h with
  | opened free inRange unclaimed =>
    refine ⟨.opened _ _ _ free inRange unclaimed, ?_⟩
    rintro position ⟨⟩
    exact Array.size_push _
  | labelled hsymbol free =>
    obtain ⟨before, hlast, rfl⟩ := exists_last hopen hsymbol
    refine ⟨?_, ?_⟩
    · rw [changeSymbol_of_last hlast]
      exact .labelled before _ _ hlast free
    · rintro position ⟨⟩
      simp [changeSymbol, hlast]
  | placed hsymbol found written count checked =>
    obtain ⟨before, hlast, rfl⟩ := exists_last hopen hsymbol
    refine ⟨?_, ?_⟩
    · rw [changeSymbol_of_last hlast]
      exact .placed before _ _ _ _ _ hlast found written count checked
    · rintro position ⟨⟩
      simp [changeSymbol, hlast]

/-- A layout starts without an open symbol. -/
theorem changes_of_steps {session : Session} {work : Session × Option Nat}
    (h : Relation.ReflTransGen (Step items) (session, none) work) :
    Relation.ReflTransGen (Change items) session work.1 := by
  suffices hboth : Relation.ReflTransGen (Change items) session work.1 ∧ OpenIsLast work by
    exact hboth.1
  induction h with
  | refl => exact ⟨.refl, by rintro position ⟨⟩⟩
  | tail _ hstep ih =>
    obtain ⟨hchange, hopen⟩ := hstep.change ih.2
    exact ⟨ih.1.tail hchange, hopen⟩

/-! ### Lines -/

/-- From the state, the step only makes changes of the above kinds. -/
abbrev StepsFrom {α : Type} (items : List (Located Item)) (s : State) (x : LayOut α) : Prop :=
  MovesFrom State.work (Step items) s x

theorem stepsFrom_report (s : State) (event : Event) : StepsFrom items s (report event) :=
  MovesFrom.modify_hidden rfl

theorem stepsFrom_orFail {α : Type} (s : State) (x : Except (Located Error) α) :
    StepsFrom items s (orFail x) := by
  cases x with
  | ok a => exact MovesFrom.pure a
  | error e => exact MovesFrom.throw e

theorem orFail_eq_ok {α : Type} {s s' : State} {x : Except (Located Error) α} {a : α}
    (h : orFail x s = .ok a s') : x = .ok a ∧ s' = s := by
  cases x with
  | ok b => cases h; exact ⟨rfl, rfl⟩
  | error e => cases h

theorem report_eq_ok {s s' : State} {event : Event} {u : Unit} (h : report event s = .ok u s') :
    s'.session = s.session ∧ s'.current = s.current := by
  cases h
  exact ⟨rfl, rfl⟩

theorem openSymbol_apply (item : Located Item) (s : State) :
    openSymbol item s =
      match s.current.bind fun position => s.session.symbols[position]?.map (position, ·) with
      | some found => .ok found s
      | none => .error (item.withValue .outsideSymbol) s := by
  unfold openSymbol
  show (match s.current.bind fun position => s.session.symbols[position]?.map (position, ·) with
    | some found => (pure found : LayOut (Nat × Symbol))
    | none => throw (item.withValue Error.outsideSymbol)) s = _
  cases s.current.bind fun position => s.session.symbols[position]?.map (position, ·) <;> rfl

theorem openSymbol_eq_ok {s s' : State} {item : Located Item} {position : Nat} {symbol : Symbol} :
    openSymbol item s = .ok (position, symbol) s' ↔
      s.current = some position ∧ s.session.symbols[position]? = some symbol ∧ s' = s := by
  rw [openSymbol_apply]
  constructor
  · intro h
    split at h
    · next found hfound =>
      cases h
      obtain ⟨other, hcurrent, hsymbol⟩ := Option.bind_eq_some_iff.mp hfound
      obtain ⟨symbol', hsymbol', heq⟩ := Option.map_eq_some_iff.mp hsymbol
      cases heq
      exact ⟨hcurrent, hsymbol', rfl⟩
    · cases h
  · rintro ⟨hcurrent, hsymbol, rfl⟩
    simp [hcurrent, hsymbol]

section

variable {s : State} {before : Array Symbol} {symbol : Symbol}

theorem openSymbol_of_last (head : Located Item) (hlast : s.session.symbols = before.push symbol)
    (hcurrent : s.current = some before.size) :
    openSymbol head s = .ok (before.size, symbol) s :=
  openSymbol_eq_ok.mpr ⟨hcurrent, by rw [hlast, Array.getElem?_push_size], rfl⟩

/-- An instruction that can be read is placed at the end of the open symbol. -/
theorem instructionLine_of_read {head : Located Item} {rest : List (Located Item)}
    {i : Instruction} {arguments : List (Located Binding)}
    (hread : readInstruction s.session head rest = .ok (i, arguments))
    (hlast : s.session.symbols = before.push symbol) (hcurrent : s.current = some before.size) :
    ∃ events, instructionLine head rest s = .ok ()
      { s with
        session := { s.session with
          symbols := before.push (symbol.place s.session.type.width i arguments head.loc) }
        events } := by
  refine ⟨s.events.push (.placed i.name symbol.name symbol.size), ?_⟩
  refine estate_bind_eq_ok.mpr ⟨s, s, rfl, ?_⟩
  refine estate_bind_eq_ok.mpr ⟨(i, arguments), s, by rw [hread]; rfl, ?_⟩
  refine estate_bind_eq_ok.mpr ⟨_, s, openSymbol_of_last head hlast hcurrent, ?_⟩
  refine estate_bind_eq_ok.mpr ⟨(), _, rfl, ?_⟩
  refine estate_bind_eq_ok.mpr ⟨_, _, rfl, ?_⟩
  show EStateM.Result.ok () (State.changeSymbol _ _ _) = _
  simp only [State.changeSymbol, changeSymbol_of_last hlast]

/-- A new label is set at the end of the open symbol. -/
theorem setLabel_of_free (head : Located Item) {name : String}
    (hlast : s.session.symbols = before.push symbol) (hcurrent : s.current = some before.size)
    (hfree : symbol.labels.contains name = false) :
    setLabel head name s = .ok ()
      { s with session := { s.session with symbols := before.push (symbol.setLabel name) } } := by
  refine estate_bind_eq_ok.mpr ⟨_, s, openSymbol_of_last head hlast hcurrent, ?_⟩
  simp only [hfree]
  show EStateM.Result.ok () (State.changeSymbol _ _ _) = _
  simp only [State.changeSymbol, changeSymbol_of_last hlast]

end

theorem stepsFrom_openSymbol (s : State) (item : Located Item) :
    StepsFrom items s (openSymbol item) := by
  unfold StepsFrom MovesFrom
  rw [openSymbol_apply]
  split
  · exact .refl
  · exact .refl

theorem stepsFrom_symbolLine (s : State) (head : Located Item) (rest : List (Located Item)) :
    StepsFrom items s (symbolLine head rest) := by
  unfold symbolLine
  refine (stepsFrom_orFail s _).bind fun p s' hp => ?_
  obtain ⟨hread, rfl⟩ := orFail_eq_ok hp
  obtain ⟨name, fixed⟩ := p
  refine MovesFrom.get_bind ?_
  have hopen (free : s'.session.isTaken name.value = false)
      (unclaimed : ∀ index ∈ fixed, ∀ symbol ∈ s'.session.symbols, symbol.fixed ≠ some index) :
      StepsFrom items s' (do
        report (.symbolOpened name.value fixed)
        modify (·.addSymbol { name := name.value, fixed, loc := head.loc })) := by
    refine (stepsFrom_report s' _).bind fun _ s₂ hs => MovesFrom.modify ?_
    simp only [State.work, State.addSymbol, (report_eq_ok hs).1]
    exact .opened free (readSymbol_inRange hread) unclaimed
  dsimp only
  by_cases htaken : s'.session.isTaken name.value = true
  · rw [if_pos htaken]
    exact MovesFrom.throw_bind _ _
  rw [if_neg htaken]
  rw [Bool.not_eq_true] at htaken
  cases fixed with
  | none => exact hopen htaken (by simp)
  | some index =>
    dsimp only
    by_cases hclaimed : s'.session.symbols.any (·.fixed == some index) = true
    · rw [if_pos hclaimed]
      exact MovesFrom.throw_bind _ _
    · rw [if_neg hclaimed]
      refine hopen htaken ?_
      rintro _ ⟨⟩ symbol hsymbol hfixed
      refine hclaimed (Array.any_eq_true'.mpr ⟨symbol, hsymbol, ?_⟩)
      rw [hfixed]
      exact beq_self_eq_true _

theorem stepsFrom_instructionLine (s : State) (head : Located Item)
    {rest : List (Located Item)} (hrest : ∀ item ∈ rest, item ∈ items) :
    StepsFrom items s (instructionLine head rest) := by
  unfold instructionLine
  refine MovesFrom.get_bind ?_
  refine (stepsFrom_orFail s _).bind fun p s₁ hp => ?_
  obtain ⟨hread, rfl⟩ := orFail_eq_ok hp
  obtain ⟨i, arguments⟩ := p
  obtain ⟨mnemonic, hfound, hwritten, hcount, hchecked⟩ := readInstruction_eq_ok hread
  refine (stepsFrom_openSymbol s₁ head).bind fun found s₂ hs => ?_
  obtain ⟨position, symbol⟩ := found
  obtain ⟨hcurrent, hsymbol, rfl⟩ := openSymbol_eq_ok.mp hs
  refine (stepsFrom_report s₂ _).bind fun _ s₃ hs => ?_
  obtain ⟨hsession, hcurrent'⟩ := report_eq_ok hs
  refine MovesFrom.get_bind (MovesFrom.modify ?_)
  simp only [State.work, State.changeSymbol, hsession, hcurrent', hcurrent]
  refine .placed hsymbol hfound ?_ hcount hchecked
  intro argument hargument
  obtain ⟨item, hitem, hoperand⟩ := hwritten argument hargument
  exact ⟨item, hrest item hitem, hoperand⟩

theorem stepsFrom_setLabel (s : State) (head : Located Item) (name : String) :
    StepsFrom items s (setLabel head name) := by
  unfold setLabel
  refine (stepsFrom_openSymbol s head).bind fun found s' hs => ?_
  obtain ⟨position, symbol⟩ := found
  obtain ⟨hcurrent, hsymbol, rfl⟩ := openSymbol_eq_ok.mp hs
  cases hfree : symbol.labels.contains name with
  | true =>
    simp only [hfree, if_true]
    exact MovesFrom.throw_bind _ _
  | false =>
    simp only [hfree, Bool.false_eq_true, if_false]
    refine MovesFrom.modify ?_
    simp only [State.work, State.changeSymbol, hcurrent]
    exact .labelled hsymbol hfree

theorem stepsFrom_layOutLine (s : State) (head : Located Item) {rest : List (Located Item)}
    (hrest : ∀ item ∈ rest, item ∈ items) : StepsFrom items s (layOutLine head rest) := by
  unfold layOutLine
  split
  · exact stepsFrom_symbolLine s head _
  · exact MovesFrom.throw _
  · refine (stepsFrom_setLabel s head _).bind fun _ s' _ => ?_
    split
    · exact MovesFrom.pure _
    · exact stepsFrom_instructionLine s' _ fun item hmem => hrest item (by simp [hmem])
  · exact stepsFrom_instructionLine s head hrest

theorem stepsFrom_layOutLines {lines : List (List (Located Item))}
    (hlines : ∀ line ∈ lines, ∀ item ∈ line, item ∈ items) (s : State) :
    StepsFrom items s (layOutLines lines) := by
  induction lines generalizing s with
  | nil => exact MovesFrom.pure _
  | cons line lines ih =>
    have ih := ih fun line hmem => hlines line (List.mem_cons_of_mem _ hmem)
    cases line with
    | nil => exact ih s
    | cons head rest =>
      have hrest : ∀ item ∈ rest, item ∈ items := fun item hmem =>
        hlines _ List.mem_cons_self item (List.mem_cons_of_mem _ hmem)
      exact (stepsFrom_layOutLine s head hrest).bind fun _ s' _ => ih s'

/-- **A layout is a sequence of changes**, as far as it comes. -/
theorem changes_layOut (session : Session) (items : List (Located Item)) :
    Relation.ReflTransGen (Change items) session (layOut session items).1 := by
  have hlines : ∀ line ∈ Item.lines items, ∀ item ∈ line, item ∈ items :=
    fun line => Item.mem_of_mem_lines
  have h := changes_of_steps (stepsFrom_layOutLines hlines { session })
  unfold layOut
  cases hs : layOutLines (Item.lines items) { session } with
  | ok u s => rwa [hs] at h
  | error e s => rwa [hs] at h

/-! ### What changes keep -/

/-- A layout declares nothing. -/
theorem Change.declarations {session session' : Session} (h : Change items session session') :
    session'.type = session.type ∧ session'.instructionSet = session.instructionSet ∧
      session'.metadata = session.metadata ∧ session'.slots = session.slots ∧
      session'.pool = session.pool := by
  cases h <;> exact ⟨rfl, rfl, rfl, rfl, rfl⟩

/-- The instructions stand one behind the other from `start` to `stop`. -/
def Consecutive (w : Width) (start : Nat) : List PlacedInstruction → (stop : Nat) → Prop
  | [], stop => start = stop
  | placed :: rest, stop =>
    placed.offset = start ∧ Consecutive w (start + placed.instruction.size w) rest stop

theorem Consecutive.concat {w : Width} {start stop : Nat} {instructions : List PlacedInstruction}
    {placed : PlacedInstruction} (h : Consecutive w start instructions stop)
    (hplaced : placed.offset = stop) :
    Consecutive w start (instructions ++ [placed]) (stop + placed.instruction.size w) := by
  induction instructions generalizing start with
  | nil =>
    cases h
    exact ⟨hplaced, rfl⟩
  | cons first rest ih => exact ⟨h.1, ih h.2⟩

/-- The instructions of the symbol are in the set, with as many operands as contracts, and stand
one behind the other over the whole symbol. -/
structure WellPlaced (set : InstructionSet) (w : Width) (symbol : Symbol) : Prop where
  /-- The instructions are known. -/
  known : ∀ placed ∈ symbol.instructions, placed.instruction ∈ set.instructions
  /-- Every contract has its operand. -/
  complete : ∀ placed ∈ symbol.instructions,
    placed.arguments.length = placed.instruction.contracts.length
  /-- There are no gaps. -/
  consecutive : Consecutive w 0 symbol.instructions.toList symbol.size

theorem wellPlaced_of_empty {set : InstructionSet} {w : Width} {symbol : Symbol}
    (h : symbol.instructions = #[]) (hsize : symbol.size = 0) : WellPlaced set w symbol where
  known := by simp [h]
  complete := by simp [h]
  consecutive := by rw [h, hsize]; rfl

theorem WellPlaced.place {set : InstructionSet} {w : Width} {symbol : Symbol} {i : Instruction}
    {arguments : List (Located Binding)} (h : WellPlaced set w symbol) (loc : Option Location)
    (hi : i ∈ set.instructions) (hcount : arguments.length = i.contracts.length) :
    WellPlaced set w (symbol.place w i arguments loc) where
  known := by
    intro placed hplaced
    rcases Array.mem_push.mp hplaced with hold | rfl
    · exact h.known placed hold
    · exact hi
  complete := by
    intro placed hplaced
    rcases Array.mem_push.mp hplaced with hold | rfl
    · exact h.complete placed hold
    · exact hcount
  consecutive := by
    simp only [Symbol.place, Array.toList_push]
    exact h.consecutive.concat rfl

/-- What holds of a symbol when it is opened, and is kept when a label is set in it or an
instruction placed at its end. -/
structure Kept (set : InstructionSet) (w : Width) (items : List (Located Item))
    (P : Symbol → Prop) : Prop where
  opened : ∀ name fixed loc, P { name, fixed, loc }
  labelled : ∀ symbol name, symbol.labels.contains name = false → P symbol →
    P (symbol.setLabel name)
  placed : ∀ symbol mnemonic i arguments loc, set.find? mnemonic = some i →
    (∀ argument ∈ arguments, ∃ item ∈ items, readOperand item = .ok argument) →
    arguments.length = i.contracts.length → checkOperands w i.name 1 i.contracts arguments = .ok () →
    P symbol → P (symbol.place w i arguments loc)

theorem kept_wellPlaced (set : InstructionSet) (w : Width) (items : List (Located Item)) :
    Kept set w items (WellPlaced set w) where
  opened _ _ _ := wellPlaced_of_empty rfl rfl
  labelled _ _ _ h := ⟨h.known, h.complete, h.consecutive⟩
  placed _ _ _ _ loc hfound _ hcount _ h := h.place loc (InstructionSet.mem_of_find? hfound) hcount

/-- What holds of all symbols holds after a change of the last one that keeps it. -/
theorem forall_mem_push_of_imp {P : Symbol → Prop} {before : Array Symbol} {last changed : Symbol}
    (h : ∀ symbol ∈ before.push last, P symbol) (hchanged : P last → P changed) :
    ∀ symbol ∈ before.push changed, P symbol := by
  intro symbol hsymbol
  rcases Array.mem_push.mp hsymbol with hold | rfl
  · exact h symbol (Array.mem_push_of_mem _ hold)
  · exact hchanged (h last Array.mem_push_self)

theorem Change.forall_symbols {session session' : Session} {P : Symbol → Prop}
    (h : Change items session session')
    (hP : Kept session.instructionSet session.type.width items P)
    (hall : ∀ symbol ∈ session.symbols, P symbol) : ∀ symbol ∈ session'.symbols, P symbol := by
  cases h with
  | opened name fixed loc =>
    intro symbol hsymbol
    rcases Array.mem_push.mp hsymbol with hold | rfl
    · exact hall symbol hold
    · exact hP.opened name fixed loc
  | labelled before last name hlast hfree =>
    rw [hlast] at hall
    exact forall_mem_push_of_imp hall (hP.labelled last name hfree)
  | placed before last mnemonic i arguments loc hlast hfound hwritten hcount hchecked =>
    rw [hlast] at hall
    exact forall_mem_push_of_imp hall
      (hP.placed last mnemonic i arguments loc hfound hwritten hcount hchecked)

/-- What is declared stays as it was. -/
theorem declarations_layOut (session : Session) (items : List (Located Item)) :
    (layOut session items).1.type = session.type ∧
      (layOut session items).1.instructionSet = session.instructionSet ∧
      (layOut session items).1.metadata = session.metadata ∧
      (layOut session items).1.slots = session.slots ∧
      (layOut session items).1.pool = session.pool := by
  refine keeps_of_reflTransGen (P := fun s => s.type = session.type ∧
    s.instructionSet = session.instructionSet ∧ s.metadata = session.metadata ∧
    s.slots = session.slots ∧ s.pool = session.pool) (changes_layOut session items) ?_
    ⟨rfl, rfl, rfl, rfl, rfl⟩
  intro s s' hchange hs
  obtain ⟨htype, hset, hmetadata, hslots, hpool⟩ := hchange.declarations
  rwa [htype, hset, hmetadata, hslots, hpool]

/-- A layout starts without symbols, so what its changes keep holds of all symbols after it. -/
theorem forall_symbols_layOut {session : Session} {P : Symbol → Prop} (h : session.symbols = #[])
    (hP : Kept session.instructionSet session.type.width items P) :
    ∀ symbol ∈ (layOut session items).1.symbols, P symbol := by
  have hrun := keeps_of_reflTransGen (P := fun s => s.type = session.type ∧
    s.instructionSet = session.instructionSet ∧ ∀ symbol ∈ s.symbols, P symbol)
    (changes_layOut session items) ?_ ⟨rfl, rfl, by simp [h]⟩
  · exact hrun.2.2
  · rintro s s' hchange ⟨htype, hset, hall⟩
    refine ⟨hchange.declarations.1.trans htype, hchange.declarations.2.1.trans hset, ?_⟩
    rw [← htype, ← hset] at hP
    exact hchange.forall_symbols hP hall

/-- All symbols of the session are well placed. -/
def AllWellPlaced (session : Session) : Prop :=
  ∀ symbol ∈ session.symbols, WellPlaced session.instructionSet session.type.width symbol

theorem allWellPlaced_layOut {session : Session} (h : session.symbols = #[])
    (items : List (Located Item)) : AllWellPlaced (layOut session items).1 := by
  unfold AllWellPlaced
  rw [(declarations_layOut session items).1, (declarations_layOut session items).2.1]
  exact forall_symbols_layOut h (kept_wellPlaced _ _ items)

end StackAsm.Layout
