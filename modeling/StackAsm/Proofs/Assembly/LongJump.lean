import StackAsm.Proofs.Assembly.Writing

/-!
# A jump over many instructions

For every number of instructions there is a program that jumps over them. It is too long to be
assembled by evaluation, so each pass is followed along its lines: what declares nothing is put
aside as it is, a line that can be read is placed at the end of the open symbol, and a symbol whose
instructions can be written is linked.
-/

namespace StackAsm

/-! ### Lines that are put aside -/

namespace Declaration

/-- The line declares nothing, and holds no text that would be moved to the pool. -/
structure IsPlain (line : List (Located Item)) : Prop extends Item.IsLine line where
  noText : ∀ item ∈ line, ∀ content, item.value ≠ .text content
  declaresNothing : ∀ item ∈ line, ∀ name, item.value = .directive name →
    headerKind? name = none ∧ Keyword.ofName? name = none

theorem isPlain_of_words {line : List (Located Item)} (hne : line ≠ [])
    (h : ∀ item ∈ line, (∃ name, item.value = .word name) ∨ ∃ c, item.value = .separator c) :
    IsPlain line where
  nonempty := hne
  noEnd := by
    intro item hitem hvalue
    rcases h item hitem with ⟨name, hword⟩ | ⟨c, hseparator⟩ <;> simp_all
  noText := by
    intro item hitem content hvalue
    rcases h item hitem with ⟨name, hword⟩ | ⟨c, hseparator⟩ <;> simp_all
  declaresNothing := by
    intro item hitem directive hvalue
    rcases h item hitem with ⟨name, hword⟩ | ⟨c, hseparator⟩ <;> simp_all

theorem deferItem_of_ne_text {item : Located Item} (h : ∀ content, item.value ≠ .text content)
    (s : State) : deferItem item s = .ok () { s with deferred := s.deferred.push item } := by
  obtain ⟨loc, value⟩ := item
  cases value with
  | text content => exact absurd rfl (h content)
  | _ => rfl

theorem forM_deferItem {line : List (Located Item)}
    (h : ∀ item ∈ line, ∀ content, item.value ≠ .text content) (s : State) :
    line.forM deferItem s = .ok () { s with deferred := s.deferred ++ line.toArray } := by
  induction line generalizing s with
  | nil => simp [Pure.pure, EStateM.pure]
  | cons item line ih =>
    refine estate_bind_eq_ok.mpr
      ⟨(), _, deferItem_of_ne_text (h item List.mem_cons_self) s, ?_⟩
    rw [ih fun x hx => h x (List.mem_cons_of_mem _ hx)]
    simp

theorem readLine_of_isPlain {head : Located Item} {rest : List (Located Item)}
    (h : IsPlain (head :: rest)) (s : State) :
    readLine head rest s =
      .ok () { s with deferred := s.deferred ++ (Item.closeLine (head :: rest)).toArray } := by
  have hdefer : deferLine head rest s =
      .ok () { s with deferred := s.deferred ++ (Item.closeLine (head :: rest)).toArray } := by
    have hpush : (s.deferred ++ (head :: rest).toArray).push
        ((rest.getLast?.getD head).withValue .lineEnd) =
          s.deferred ++ (Item.closeLine (head :: rest)).toArray := by
      simp [Item.closeLine]
    rw [← hpush]
    exact estate_bind_eq_ok.mpr ⟨(), _, forM_deferItem h.noText s, rfl⟩
  obtain ⟨loc, value⟩ := head
  cases value with
  | directive name =>
    obtain ⟨hheader, hkeyword⟩ := h.declaresNothing _ List.mem_cons_self name rfl
    rw [← hdefer]
    simp [readLine, hheader, hkeyword]
  | _ => exact hdefer

/-- **Plain lines are put aside as they are.** -/
theorem readLines_of_isPlain {lines : List (List (Located Item))}
    (h : ∀ line ∈ lines, IsPlain line) (s : State) :
    readLines lines s =
      .ok () { s with deferred := s.deferred ++ (lines.flatMap Item.closeLine).toArray } := by
  induction lines generalizing s with
  | nil => simp [readLines, Pure.pure, EStateM.pure]
  | cons line lines ih =>
    have hline := h line List.mem_cons_self
    obtain ⟨head, rest, rfl⟩ := List.exists_cons_of_ne_nil hline.nonempty
    rw [readLines, estate_bind_eq_ok]
    refine ⟨(), _, readLine_of_isPlain hline s, ?_⟩
    rw [ih fun x hx => h x (List.mem_cons_of_mem _ hx)]
    simp

end Declaration

/-! ### Symbols that are linked -/

namespace Linking

variable {session : Session} {symbol : Symbol}

/-- An operand that can be written is put before those that follow. -/
theorem argumentBytes_cons {indices : List UInt8} {placed : PlacedInstruction} {position : Nat}
    {contract : Contract} {contracts : List Contract} {argument : Located Binding}
    {arguments : List (Located Binding)} {e : Encoded} {rest : Bytes}
    (h : WritesAs session indices symbol placed.offset contract argument e)
    (hrest : argumentBytes session indices symbol placed (position + 1) contracts arguments =
      .ok rest) :
    argumentBytes session indices symbol placed position (contract :: contracts)
      (argument :: arguments) = .ok (e.bytes session.type.width ++ rest) := by
  obtain ⟨operand, hresolve, hnormalize⟩ := h
  rw [argumentBytes]
  refine except_bind_eq_ok.mpr ⟨operand, hresolve, ?_⟩
  rw [hnormalize]
  exact except_bind_eq_ok.mpr ⟨rest, hrest, rfl⟩

/-- A symbol has code if all its instructions have. -/
theorem exists_body {indices : List UInt8}
    (h : ∀ placed ∈ symbol.instructions,
      ∃ bytes, instructionBytes session indices symbol placed = .ok bytes) :
    ∃ bytes, body session indices symbol = .ok bytes := by
  have hall : ∀ placed ∈ symbol.instructions.toList,
      ∃ bytes, instructionBytes session indices symbol placed = .ok bytes :=
    fun placed hplaced => h placed (Array.mem_toList_iff.mp hplaced)
  obtain ⟨pieces, hpieces⟩ := exists_mapM_eq_ok hall
  exact ⟨pieces.flatten, by rw [body, hpieces]; rfl⟩

/-- A program of one symbol that asks for no index is linked if the symbol has code. -/
theorem link_of_body {bytes : Bytes} (hsymbols : session.symbols = #[symbol])
    (hfixed : symbol.fixed = none) (hbody : body session [0] symbol = .ok bytes) :
    (link session).1 = .ok
      { type := session.type, metadata := session.metadata, slots := session.slots
        constants := session.pool.entries, symbols := [⟨some symbol.name, 0, bytes⟩] } := by
  have hindices : indices [symbol] = .ok [0] := by
    simp only [indices, freeIndices, List.all_cons, hfixed]
    simp only [assignIndices, hfixed]
    rfl
  simp only [link, hsymbols, hindices, linkSymbols, List.zip_cons_cons, List.zip_nil_left, hbody]
  rfl

end Linking

/-! ### The program -/

namespace Assembly

/-- The instruction that does nothing. -/
def nop : Instruction := ⟨"nop", 0x00, []⟩

/-- The instruction that jumps to a label. -/
def jmp : Instruction := ⟨"jmp", 0x10, [.label]⟩

/-- The lines of a symbol that jumps over `n` instructions to its last one. -/
def longJumpLines (n : Nat) : List (List (Located Item)) :=
  [.nowhere (.directive "symbol"), .nowhere (.word "main")] ::
    [.nowhere (.word "jmp"), .nowhere (.word "end")] ::
      (List.replicate n [.nowhere (.word "nop")] ++
        [[.nowhere (.word "end"), .nowhere (.separator ':'), .nowhere (.word "nop")]])

/-- What the symbol makes of the program: its items after the header. -/
def longJumpCode (n : Nat) : List (Located Item) := (longJumpLines n).flatMap Item.closeLine

/-- The program at 16 bits. -/
def longJump (n : Nat) : List (Located Item) :=
  Item.closeLine [.nowhere (.directive "cwx"), .nowhere (.separator ':'), .nowhere (.number 16)] ++
    longJumpCode n

/-- What its header says. -/
def longJumpDeclared : Session := { type := ⟨.executable, .w16⟩ }

/-- The symbol with `n` more instructions that do nothing. -/
def placeNops : Nat → Symbol → Symbol
  | 0, symbol => symbol
  | n + 1, symbol => placeNops n (symbol.place .w16 nop [] none)

/-- The symbol as it is opened, with its jump. -/
def longJumpStart : Symbol :=
  { name := "main", fixed := none, loc := none
    instructions := #[⟨jmp, 0, [.nowhere (.named "end")], none⟩], size := 3 }

/-- The symbol as it is laid out. -/
def longJumpSymbol (n : Nat) : Symbol :=
  ((placeNops n longJumpStart).setLabel "end").place .w16 nop [] none

/-- The session while its only symbol is laid out. -/
def longJumpSession (symbol : Symbol) : Session :=
  { longJumpDeclared with
    references := ⟨[("main", .symbol 0)]⟩
    symbols := #[symbol] }

@[simp] theorem placeNops_fixed (n : Nat) (symbol : Symbol) :
    (placeNops n symbol).fixed = symbol.fixed := by
  induction n generalizing symbol with
  | zero => rfl
  | succ n ih => exact ih _

@[simp] theorem placeNops_labels (n : Nat) (symbol : Symbol) :
    (placeNops n symbol).labels = symbol.labels := by
  induction n generalizing symbol with
  | zero => rfl
  | succ n ih => exact ih _

@[simp] theorem placeNops_size (n : Nat) (symbol : Symbol) :
    (placeNops n symbol).size = symbol.size + n := by
  induction n generalizing symbol with
  | zero => rfl
  | succ n ih =>
    rw [placeNops, ih]
    show symbol.size + 1 + n = symbol.size + (n + 1)
    omega

/-- The instructions of the symbol come first, and all others do nothing. -/
theorem placeNops_instructions (n : Nat) (symbol : Symbol) :
    ∃ rest : List PlacedInstruction,
      (placeNops n symbol).instructions.toList = symbol.instructions.toList ++ rest ∧
        ∀ placed ∈ rest, placed.instruction = nop := by
  induction n generalizing symbol with
  | zero => exact ⟨[], by simp [placeNops], by simp⟩
  | succ n ih =>
    obtain ⟨rest, hrest, hnop⟩ := ih (symbol.place .w16 nop [] none)
    refine ⟨⟨nop, symbol.size, [], none⟩ :: rest, ?_, ?_⟩
    · rw [placeNops, hrest, Symbol.place]
      simp
    · exact List.forall_mem_cons.mpr ⟨rfl, hnop⟩

/-- The jump comes first, and all other instructions do nothing. -/
theorem longJumpSymbol_instructions (n : Nat) :
    ∃ rest : List PlacedInstruction,
      (longJumpSymbol n).instructions.toList =
          ⟨jmp, 0, [.nowhere (.named "end")], none⟩ :: rest ∧
        ∀ placed ∈ rest, placed.instruction = nop := by
  obtain ⟨rest, hrest, hnop⟩ := placeNops_instructions n longJumpStart
  refine ⟨rest ++ [⟨nop, (placeNops n longJumpStart).size, [], none⟩], ?_, ?_⟩
  · rw [longJumpSymbol, Symbol.place, Symbol.setLabel, Array.toList_push, hrest]
    rfl
  · exact List.forall_mem_append.mpr ⟨hnop, by simp⟩

theorem longJumpSymbol_label (n : Nat) :
    (longJumpSymbol n).labels.get? "end" = some (n + 3) := by
  show ((placeNops n longJumpStart).labels.insert "end"
    (placeNops n longJumpStart).size).get? "end" = some (n + 3)
  rw [Table.get?_insert, if_pos rfl, placeNops_size, Nat.add_comm]
  rfl

theorem isPlain_longJumpLines (n : Nat) :
    ∀ line ∈ longJumpLines n, Declaration.IsPlain line := by
  have hsymbol : Declaration.IsPlain
      [.nowhere (.directive "symbol"), .nowhere (.word "main")] := by
    refine ⟨⟨by simp, by simp [Located.nowhere]⟩, by simp [Located.nowhere], ?_⟩
    simp only [Located.nowhere, List.mem_cons, List.not_mem_nil, or_false]
    rintro _ (rfl | rfl) name heq
    · cases heq
      exact ⟨rfl, rfl⟩
    · cases heq
  rw [longJumpLines, List.forall_mem_cons, List.forall_mem_cons, List.forall_mem_append,
    List.forall_mem_singleton]
  refine ⟨hsymbol, ?_, fun line hline => ?_, ?_⟩
  · exact Declaration.isPlain_of_words (by simp) (by simp [Located.nowhere])
  · rw [List.eq_of_mem_replicate hline]
    exact Declaration.isPlain_of_words (by simp) (by simp [Located.nowhere])
  · exact Declaration.isPlain_of_words (by simp) (by simp [Located.nowhere])

theorem lines_longJumpCode (n : Nat) : Item.lines (longJumpCode n) = longJumpLines n :=
  Item.lines_flatMap_closeLine fun line hline => (isPlain_longJumpLines n line hline).toIsLine

theorem lines_longJump (n : Nat) :
    Item.lines (longJump n) =
      [.nowhere (.directive "cwx"), .nowhere (.separator ':'), .nowhere (.number 16)] ::
        longJumpLines n := by
  rw [longJump, longJumpCode, ← List.flatMap_cons, Item.lines_flatMap_closeLine]
  refine List.forall_mem_cons.mpr ⟨⟨by simp, by simp [Located.nowhere]⟩, fun line hline => ?_⟩
  exact (isPlain_longJumpLines n line hline).toIsLine

theorem readProgram_longJump (n : Nat) :
    (Declaration.readProgram (longJump n)).1 = .ok (longJumpDeclared, longJumpCode n) := by
  have hheader : Declaration.readHeader (.nowhere (.directive "cwx"))
      [.nowhere (.separator ':'), .nowhere (.number 16)] = .ok longJumpDeclared.type := by
    decide +kernel
  unfold Declaration.readProgram
  rw [lines_longJump]
  simp only [hheader, Declaration.readLines_of_isPlain (isPlain_longJumpLines n)]
  simp [longJumpDeclared, longJumpCode]

/-! ### Its layout -/

/-- The layout with that symbol open. -/
def longJumpState (symbol : Symbol) (events : Array Event) : Layout.State :=
  { session := longJumpSession symbol, current := some 0, events }

/-- An instruction that can be read is placed at the end of the symbol. -/
theorem instructionLine_longJump {symbol : Symbol} {head : Located Item}
    {rest : List (Located Item)} {i : Instruction} {arguments : List (Located Binding)}
    (hread : Layout.readInstruction (longJumpSession symbol) head rest = .ok (i, arguments))
    (events : Array Event) :
    ∃ events', Layout.instructionLine head rest (longJumpState symbol events) =
      .ok () (longJumpState (symbol.place .w16 i arguments head.loc) events') := by
  have hlast : (longJumpSession symbol).symbols = (#[] : Array Symbol).push symbol := rfl
  exact Layout.instructionLine_of_read (s := longJumpState symbol events) hread hlast rfl

theorem readInstruction_nop (symbol : Symbol) :
    Layout.readInstruction (longJumpSession symbol) (.nowhere (.word "nop")) [] =
      .ok (nop, []) := rfl

theorem layOutLines_nops (n : Nat) (symbol : Symbol) (events : Array Event)
    (lines : List (List (Located Item))) :
    ∃ events', Layout.layOutLines (List.replicate n [.nowhere (.word "nop")] ++ lines)
        (longJumpState symbol events) =
      Layout.layOutLines lines (longJumpState (placeNops n symbol) events') := by
  induction n generalizing symbol events with
  | zero => exact ⟨events, rfl⟩
  | succ n ih =>
    obtain ⟨events₁, hline⟩ := instructionLine_longJump (readInstruction_nop symbol) events
    obtain ⟨events₂, hlines⟩ := ih (symbol.place .w16 nop [] none) events₁
    exact ⟨events₂, (estate_bind_of_ok hline).trans hlines⟩

theorem layOutLines_longJump (n : Nat) :
    ∃ events, Layout.layOutLines (longJumpLines n) { session := longJumpDeclared } =
      .ok () (longJumpState (longJumpSymbol n) events) := by
  -- the symbol is opened
  have hsymbol : Layout.layOutLine (.nowhere (.directive "symbol")) [.nowhere (.word "main")]
      { session := longJumpDeclared } =
        .ok () (longJumpState { name := "main", fixed := none, loc := none }
          #[.symbolOpened "main" none]) := rfl
  -- the jump and what it jumps over
  have hread : Layout.readInstruction
      (longJumpSession { name := "main", fixed := none, loc := none }) (.nowhere (.word "jmp"))
      [.nowhere (.word "end")] = .ok (jmp, [.nowhere (.named "end")]) := rfl
  obtain ⟨events₁, hjump⟩ := instructionLine_longJump hread #[.symbolOpened "main" none]
  obtain ⟨events₂, hnops⟩ := layOutLines_nops n longJumpStart events₁
    [[.nowhere (.word "end"), .nowhere (.separator ':'), .nowhere (.word "nop")]]
  -- the label and the instruction there
  have hlast : (longJumpSession (placeNops n longJumpStart)).symbols =
      (#[] : Array Symbol).push (placeNops n longJumpStart) := rfl
  have hfree : (placeNops n longJumpStart).labels.contains "end" = false := by
    rw [placeNops_labels]
    rfl
  have hlabel := Layout.setLabel_of_free (.nowhere (.word "end"))
    (s := longJumpState (placeNops n longJumpStart) events₂) hlast rfl hfree
  obtain ⟨events₃, hend⟩ := instructionLine_longJump
    (readInstruction_nop ((placeNops n longJumpStart).setLabel "end")) events₂
  refine ⟨events₃, ?_⟩
  refine (estate_bind_of_ok hsymbol).trans ((estate_bind_of_ok hjump).trans (hnops.trans ?_))
  exact estate_bind_of_ok ((estate_bind_of_ok hlabel).trans hend)

theorem layOut_longJump (n : Nat) :
    (Layout.layOut longJumpDeclared (longJumpCode n)).1 = longJumpSession (longJumpSymbol n) ∧
      (Layout.layOut longJumpDeclared (longJumpCode n)).2.1 = none := by
  obtain ⟨events, hlines⟩ := layOutLines_longJump n
  unfold Layout.layOut
  rw [lines_longJumpCode, hlines]
  exact ⟨rfl, rfl⟩

/-! ### Its code -/

/-- The distance of the label passes as an unsigned number of the width. -/
theorem normalize_longJump {n : Nat} (hn : n + 3 ≤ 65535) :
    Contract.label.normalize .w16
        (.distance .label (Int64.ofInt (((n + 3 : Nat) : Int) - (0 : Nat)))) =
      .ok (.number (Int64.ofInt (((n + 3 : Nat) : Int) - (0 : Nat))).toUInt64) := by
  have hdistance : (Int64.ofInt (((n + 3 : Nat) : Int) - (0 : Nat))).toInt = (n + 3 : Nat) := by
    rw [Int64.toInt_ofInt_of_le (by omega) (by omega)]
    omega
  refine except_bind_eq_ok.mpr ⟨(), rfl, if_pos ?_⟩
  rw [Width.fitsValue_iff, hdistance]
  simp only [Width.bits]
  omega

theorem instructionBytes_longJump {n : Nat} (hn : n + 3 ≤ 65535) :
    ∀ placed ∈ (longJumpSymbol n).instructions,
      ∃ bytes, Linking.instructionBytes (longJumpSession (longJumpSymbol n)) [0] (longJumpSymbol n)
        placed = .ok bytes := by
  obtain ⟨rest, hinstructions, hnop⟩ := longJumpSymbol_instructions n
  intro placed hplaced
  rw [← Array.mem_toList_iff, hinstructions] at hplaced
  rcases List.mem_cons.mp hplaced with rfl | hrest
  · have hwrites : Linking.WritesAs (longJumpSession (longJumpSymbol n)) [0] (longJumpSymbol n) 0
        .label (.nowhere (.named "end")) _ :=
      ⟨_, Linking.resolve_of_label rfl (longJumpSymbol_label n), normalize_longJump hn⟩
    have hrest : Linking.argumentBytes (longJumpSession (longJumpSymbol n)) [0] (longJumpSymbol n)
      ⟨jmp, 0, [.nowhere (.named "end")], none⟩ 2 [] [] = .ok [] := rfl
    exact ⟨_, except_bind_eq_ok.mpr ⟨_, Linking.argumentBytes_cons hwrites hrest, rfl⟩⟩
  · refine ⟨[0x00], ?_⟩
    rw [Linking.instructionBytes, hnop placed hrest]
    rfl

/-- **The program is assembled**, as long as the unsigned numbers of the width reach the label. -/
theorem passes_longJump {n : Nat} (hn : n + 3 ≤ 65535) :
    ∃ container, Passes (longJump n) (longJumpCode n) longJumpDeclared
      (longJumpSession (longJumpSymbol n)) container := by
  have hfixed : (longJumpSymbol n).fixed = none := placeNops_fixed n longJumpStart
  obtain ⟨bytes, hbody⟩ := Linking.exists_body (instructionBytes_longJump hn)
  exact ⟨_, readProgram_longJump n, (layOut_longJump n).1, (layOut_longJump n).2,
    Linking.link_of_body rfl hfixed hbody⟩

/-- It can be written as long as its code fits the width. -/
theorem toBytes_longJump {n : Nat} (hn : n + 4 ≤ 65535) {container : Container}
    (h : Passes (longJump n) (longJumpCode n) longJumpDeclared
      (longJumpSession (longJumpSymbol n)) container) :
    ∃ bytes, container.toBytes = .ok bytes := by
  obtain ⟨htype, hmetadata, -, hconstants⟩ := h.container_declarations
  obtain ⟨indices, hlinked⟩ := h.exists_linked
  rw [Container.exists_toBytes_iff, ← writable_iff h.withinLimits]
  refine ⟨?_, ?_, ?_, ?_⟩
  · rw [hmetadata]
    decide
  · rw [hmetadata, htype]
    decide
  · rw [hconstants]
    simp [longJumpDeclared]
  · intro entry hentry
    have hlength := List.mem_map_of_mem (f := fun entry => entry.body.length) hentry
    rw [hlinked.map_size h.coherent h.allWellPlaced] at hlength
    have hsize : (longJumpSymbol n).size = n + 4 := by
      show (placeNops n longJumpStart).size + 1 = n + 4
      rw [placeNops_size]
      show 3 + n + 1 = n + 4
      omega
    have heq : entry.body.length = (longJumpSymbol n).size := List.mem_singleton.mp hlength
    rw [heq, hsize, htype]
    exact hn

end Assembly

end StackAsm
