import StackAsm.Proofs.Linking.Failure

/-!
# Where layout and linking fail

The symbols and operands of a session remember where they stand. If the items that are laid out
stand in `L`, so do the symbols and operands that come of them and the errors of the layout; and an
error of linking stands at a symbol or an operand.
-/

namespace StackAsm

variable {L : Option Location → Prop}

/-- The symbol and its operands stand in `L`. -/
structure Symbol.Within (L : Option Location → Prop) (symbol : Symbol) : Prop where
  loc : L symbol.loc
  arguments : ∀ placed ∈ symbol.instructions, ∀ argument ∈ placed.arguments, L argument.loc

/-- The symbols of the session stand in `L`. -/
def Session.Within (L : Option Location → Prop) (session : Session) : Prop :=
  ∀ symbol ∈ session.symbols, symbol.Within L

theorem Symbol.Within.place {symbol : Symbol} (h : symbol.Within L) (w : Width) (i : Instruction)
    {arguments : List (Located Binding)} (harguments : ∀ argument ∈ arguments, L argument.loc)
    (loc : Option Location) : (symbol.place w i arguments loc).Within L where
  loc := h.loc
  arguments placed hplaced := by
    rcases Array.mem_push.mp hplaced with hold | rfl
    · exact h.arguments placed hold
    · exact harguments

namespace Layout

/-! ### Reading lines -/

theorem lands_readSymbol {head : Located Item} {rest : List (Located Item)} (hhead : L head.loc)
    (hrest : ∀ item ∈ rest, L item.loc) :
    Lands (fun p => L p.1.loc) (fun e => L e.loc) (readSymbol head rest) := by
  unfold readSymbol
  split
  · exact hhead
  · next item rest =>
    have hitem : L item.loc := hrest item (by simp)
    split
    · split
      · exact hitem
      · next other => exact hrest other (by simp)
      · next separator index =>
        have hindex : L index.loc := hrest index (by simp)
        split
        · split
          · exact hitem
          · exact hindex
        · exact hindex
        · exact hrest separator (by simp)
      · next extra _ => exact hrest extra (by simp)
    · exact hitem

theorem lands_readOperand {item : Located Item} (h : L item.loc) :
    Lands (fun argument => L argument.loc) (fun e => L e.loc) (readOperand item) := by
  unfold readOperand
  split
  all_goals exact h

theorem lands_readOperands {items : List (Located Item)} (h : ∀ item ∈ items, L item.loc) :
    Lands (fun arguments => ∀ argument ∈ arguments, L argument.loc) (fun e => L e.loc)
      (readOperands items) := by
  fun_induction readOperands items with
  | case1 => exact fun argument hargument => absurd hargument List.not_mem_nil
  | case2 item =>
    exact (lands_readOperand (h item (by simp))).map fun argument hargument => by simpa using hargument
  | case3 item separator =>
    have hseparator : L separator.loc := h separator (by simp)
    refine (lands_readOperand (h item (by simp))).bind fun _ _ => ?_
    split
    · exact hseparator
    · exact hseparator
  | case4 item separator items hne ih =>
    refine (lands_readOperand (h item (by simp))).bind fun argument hargument => ?_
    split
    · refine (ih fun other hother => h other (by simp [hother])).bind fun arguments harguments => ?_
      exact List.forall_mem_cons.mpr ⟨hargument, harguments⟩
    · exact h separator (by simp)

theorem lands_checkOperands (w : Width) (mnemonic : String) (position : Nat)
    (contracts : List Contract) {arguments : List (Located Binding)}
    (h : ∀ argument ∈ arguments, L argument.loc) :
    Lands (fun _ => True) (fun e => L e.loc)
      (checkOperands w mnemonic position contracts arguments) := by
  induction contracts generalizing position arguments with
  | nil => trivial
  | cons contract contracts ih =>
    cases arguments with
    | nil => trivial
    | cons argument arguments =>
      obtain ⟨hargument, harguments⟩ := List.forall_mem_cons.mp h
      rw [checkOperands]
      split
      · split
        · exact hargument
        · exact ih _ harguments
      · exact ih _ harguments

theorem lands_readInstruction (session : Session) {head : Located Item}
    {rest : List (Located Item)} (hhead : L head.loc) (hrest : ∀ item ∈ rest, L item.loc) :
    Lands (fun p => ∀ argument ∈ p.2, L argument.loc) (fun e => L e.loc)
      (readInstruction session head rest) := by
  unfold readInstruction
  split
  · split
    · exact hhead
    · next i _ =>
      refine (lands_readOperands hrest).bind fun arguments harguments => ?_
      split
      · exact hhead
      · refine (lands_checkOperands _ _ _ _ harguments).bind fun _ _ => ?_
        exact harguments
  · exact hhead

/-! ### Laying out lines -/

/-- The symbols laid out so far stand in `L`. -/
def State.Within (L : Option Location → Prop) (s : State) : Prop := s.session.Within L

section

variable {α : Type} {P : α → Prop}

theorem upholds_report (event : Event) :
    Upholds (State.Within L) (fun _ => True) (fun e => L e.loc) (report event) :=
  .modify fun _ hs => hs

theorem upholds_orFail {x : Except (Located Error) α} (h : Lands P (fun e => L e.loc) x) :
    Upholds (State.Within L) P (fun e => L e.loc) (orFail x) := by
  cases x with
  | ok a => exact .pure h
  | error e => exact .throw h

end

theorem State.Within.addSymbol {s : State} (h : s.Within L) {symbol : Symbol}
    (hsymbol : symbol.Within L) : (s.addSymbol symbol).Within L := by
  intro other hother
  rcases Array.mem_push.mp hother with hold | rfl
  · exact h other hold
  · exact hsymbol

theorem State.Within.changeSymbol {s : State} (h : s.Within L) (position : Nat)
    {change : Symbol → Symbol}
    (hchange : ∀ symbol : Symbol, symbol.Within L → (change symbol).Within L) :
    (s.changeSymbol position change).Within L := by
  intro other hother
  obtain ⟨k, hk, rfl⟩ := Array.mem_iff_getElem.mp hother
  simp only [State.changeSymbol, Layout.changeSymbol, Array.getElem_modify]
  have hold := h _ (Array.getElem_mem (by simpa [State.changeSymbol, Layout.changeSymbol] using hk))
  split
  · exact hchange _ hold
  · exact hold

theorem upholds_openSymbol {item : Located Item} (h : L item.loc) :
    Upholds (State.Within L) (fun _ => True) (fun e => L e.loc) (openSymbol item) := by
  refine .get_bind fun s _ => ?_
  split
  · exact .pure trivial
  · exact .throw h

theorem upholds_symbolLine {head : Located Item} {rest : List (Located Item)} (hhead : L head.loc)
    (hrest : ∀ item ∈ rest, L item.loc) :
    Upholds (State.Within L) (fun _ => True) (fun e => L e.loc) (symbolLine head rest) := by
  unfold symbolLine
  refine (upholds_orFail (lands_readSymbol hhead hrest)).bind ?_
  rintro ⟨name, fixed⟩ hname
  refine .get_bind fun s _ => .guard (fun _ => hname) ?_
  have hopen : Upholds (State.Within L) (fun _ => True) (fun e : Located Error => L e.loc) (do
      report (.symbolOpened name.value fixed)
      modify (·.addSymbol { name := name.value, fixed, loc := head.loc })) := by
    refine (upholds_report _).bind fun _ _ => .modify fun s hs => hs.addSymbol ⟨hhead, ?_⟩
    simp
  cases fixed with
  | none => exact hopen
  | some index => exact .guard (fun _ => hname) hopen

theorem upholds_instructionLine {head : Located Item} {rest : List (Located Item)}
    (hhead : L head.loc) (hrest : ∀ item ∈ rest, L item.loc) :
    Upholds (State.Within L) (fun _ => True) (fun e => L e.loc) (instructionLine head rest) := by
  unfold instructionLine
  refine .get_bind fun s _ => ?_
  refine (upholds_orFail (lands_readInstruction s.session hhead hrest)).bind ?_
  rintro ⟨i, arguments⟩ harguments
  refine (upholds_openSymbol hhead).bind fun symbol _ => (upholds_report _).bind fun _ _ => ?_
  refine .get_bind fun s _ => .modify fun s hs => hs.changeSymbol _ fun symbol hsymbol => ?_
  exact hsymbol.place _ i harguments head.loc

theorem upholds_setLabel {head : Located Item} (hhead : L head.loc) (name : String) :
    Upholds (State.Within L) (fun _ => True) (fun e => L e.loc) (setLabel head name) := by
  refine (upholds_openSymbol hhead).bind fun symbol _ => .guard (fun _ => hhead) ?_
  exact .modify fun s hs => hs.changeSymbol _ fun symbol hsymbol => ⟨hsymbol.loc, hsymbol.arguments⟩

theorem upholds_layOutLine {head : Located Item} {rest : List (Located Item)} (hhead : L head.loc)
    (hrest : ∀ item ∈ rest, L item.loc) :
    Upholds (State.Within L) (fun _ => True) (fun e => L e.loc) (layOutLine head rest) := by
  unfold layOutLine
  split
  · exact upholds_symbolLine hhead hrest
  · exact .throw hhead
  · next colon rest _ =>
    refine (upholds_setLabel hhead _).bind fun _ _ => ?_
    obtain ⟨-, hrest⟩ := List.forall_mem_cons.mp hrest
    cases rest with
    | nil => exact .pure trivial
    | cons first rest =>
      obtain ⟨hfirst, hrest⟩ := List.forall_mem_cons.mp hrest
      exact upholds_instructionLine hfirst hrest
  · exact upholds_instructionLine hhead hrest

theorem upholds_layOutLines {lines : List (List (Located Item))}
    (h : ∀ line ∈ lines, ∀ item ∈ line, L item.loc) :
    Upholds (State.Within L) (fun _ => True) (fun e => L e.loc) (layOutLines lines) := by
  induction lines with
  | nil => exact .pure trivial
  | cons line lines ih =>
    obtain ⟨hline, hlines⟩ := List.forall_mem_cons.mp h
    cases line with
    | nil => exact ih hlines
    | cons head rest =>
      obtain ⟨hhead, hrest⟩ := List.forall_mem_cons.mp hline
      exact (upholds_layOutLine hhead hrest).bind fun _ _ => ih hlines

/-- Items that stand in `L` are laid out to symbols that do, or refused in `L`. -/
theorem within_layOut {session : Session} {items : List (Located Item)}
    (hsession : session.Within L) (hitems : ∀ item ∈ items, L item.loc) :
    match (layOut session items).2.1 with
    | some e => L e.loc
    | none => (layOut session items).1.Within L := by
  have hlines : ∀ line ∈ Item.lines items, ∀ item ∈ line, L item.loc :=
    fun line hline item hitem => hitems item (Item.mem_of_mem_lines hline item hitem)
  have hrun := upholds_layOutLines hlines { session } hsession
  unfold layOut
  cases heq : layOutLines (Item.lines items) { session } with
  | error e s =>
    rw [heq] at hrun
    exact hrun
  | ok _ s =>
    rw [heq] at hrun
    exact hrun.2

end Layout

/-! ### Linking -/

namespace Linking

/-- A session whose symbols stand in `L` is linked, or refused in `L`. -/
theorem lands_link {session : Session} (h : session.Within L) :
    Lands (fun _ => True) (fun e => L e.loc) (link session).1 := by
  refine (outcome_link session).imp_error fun e he => ?_
  cases he with
  | noIndex e runsOut =>
    obtain ⟨before, symbol, after, hsymbols, -, -, rfl⟩ := runsOut
    have hmem : symbol ∈ session.symbols.toList := by simp [hsymbols]
    exact (h symbol (Array.mem_toList_iff.mp hmem)).loc
  | operand indices symbol placed k contract argument e _ hsymbol hplaced _ hargument hrefuses =>
    rw [hrefuses.loc_eq]
    exact (h symbol hsymbol).arguments placed hplaced argument (List.mem_of_getElem? hargument)

end Linking

end StackAsm
