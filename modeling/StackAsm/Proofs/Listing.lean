import StackAsm.Linking
import StackAsm.Listing
import StackAsm.Proofs.Container.RoundTrip
import StackAsm.Proofs.Declaration
import StackAsm.Proofs.Layout
import StackAsm.Proofs.Width

/-!
# Listings of linked programs

Linking writes every operand in the form of its contract, so an instruction takes up as many bytes
as the layout has counted and as a listing passes over. Since an opcode stands for one instruction,
the listing of a linked symbol is the sequence of its instructions: the same instructions at the
same offsets, and for every operand the number it was written as.
-/

namespace StackAsm

/-! ### Operands -/

/-- The form in which an operand is written. -/
def Encoded.form : Encoded → Form
  | byte _ => .byte
  | number _ => .number

/-- The number that an operand is written as at the width: the byte, or the number cut to the
width. -/
def Encoded.raw (w : Width) : Encoded → UInt64
  | byte b => b.toUInt64
  | number n => w.mask n

theorem Encoded.length_bytes (w : Width) (e : Encoded) : (e.bytes w).length = e.form.size w := by
  cases e with
  | byte b => rfl
  | number n => exact w.length_encode n

theorem Contract.form_of_encodeNumber {contract : Contract} {w : Width} {v : Int64} {e : Encoded}
    (h : contract.encodeNumber w v = .ok e) : e.form = .number := by
  unfold encodeNumber at h
  split at h <;> cases h
  rfl

/-- An operand is written in the form of its contract. -/
theorem Contract.form_of_normalize {contract : Contract} {w : Width} {operand : Operand}
    {e : Encoded} (h : contract.normalize w operand = .ok e) : e.form = contract.form := by
  obtain ⟨⟨⟩, -, h⟩ := except_bind_eq_ok.mp h
  cases hform : contract.form with
  | byte =>
    rw [hform] at h
    cases operand with
    | value v => cases h; rfl
    | distance target d =>
      dsimp only at h
      split at h <;> cases h <;> rfl
    | index target i => cases h; rfl
  | number =>
    rw [hform] at h
    cases operand with
    | value v => exact form_of_encodeNumber h
    | distance target d => exact form_of_encodeNumber h
    | index target i => cases h; rfl

namespace Listing

/-- The bytes of operands are as many as their contracts say. -/
theorem length_flatMap_bytes {w : Width} {contracts : List Contract} {operands : List Encoded}
    (h : List.Forall₂ (fun contract e => e.form = contract.form) contracts operands) :
    (operands.flatMap (Encoded.bytes w)).length =
      contracts.foldr (fun contract size => contract.size w + size) 0 := by
  induction h with
  | nil => rfl
  | cons hform _ ih =>
    rw [List.flatMap_cons, List.length_append, ih, Encoded.length_bytes, hform]
    rfl

/-- An operand is read back from its bytes as the number it was written as. -/
theorem reads_argument {w : Width} {contract : Contract} {e : Encoded}
    (h : e.form = contract.form) :
    Container.Reads (readArgument w contract) (e.bytes w) (e.raw w) := by
  unfold readArgument
  rw [← h]
  cases e with
  | byte b => exact (Container.reads_byte _ b).bind_nil (.pure _)
  | number n => exact Container.reads_number w _ n

theorem reads_arguments {w : Width} {contracts : List Contract} {operands : List Encoded}
    (h : List.Forall₂ (fun contract e => e.form = contract.form) contracts operands) :
    Container.Reads (readArguments w contracts) (operands.flatMap (Encoded.bytes w))
      (operands.map (Encoded.raw w)) := by
  induction h with
  | nil => exact .pure []
  | cons hform _ ih => exact (reads_argument hform).bind (ih.bind_nil (.pure _))

/-! ### Instructions -/

/-- An instruction is read back from its opcode and the bytes of its operands. -/
theorem reads_line {set : InstructionSet} {w : Width} {i : Instruction} {operands : List Encoded}
    (hset : set.Coherent) (hknown : i ∈ set.instructions)
    (hforms : List.Forall₂ (fun contract e => e.form = contract.form) i.contracts operands)
    (offset : Nat) :
    Container.Reads (readLine set w offset) (i.opcode :: operands.flatMap (Encoded.bytes w))
      ⟨offset, i, operands.map (Encoded.raw w)⟩ := by
  refine (Container.reads_byte _ i.opcode).bind ?_
  rw [hset.withOpcode?_opcode hknown]
  exact (reads_arguments hforms).bind_nil (.pure _)

/-- What is read as an instruction is the opcode of it and its operands. -/
theorem readLine_eq_ok {set : InstructionSet} {w : Width} {offset : Nat} {line : ListingLine}
    {bs rest : Bytes} :
    readLine set w offset bs = .ok (line, rest) ↔
      ∃ opcode mid, bs = opcode :: mid ∧ set.withOpcode? opcode = some line.instruction ∧
        line.offset = offset ∧
        readArguments w line.instruction.contracts mid = .ok (line.arguments, rest) := by
  cases bs with
  | nil =>
    constructor
    · intro h
      cases h
    · rintro ⟨opcode, mid, ⟨⟩, -⟩
  | cons opcode mid =>
    have hread : Container.readByte "symbol body" (opcode :: mid) = .ok (opcode, mid) := rfl
    rw [readLine, stateT_bind_of_ok hread]
    cases hopcode : set.withOpcode? opcode with
    | none =>
      constructor
      · intro h
        cases h
      · rintro ⟨_, _, ⟨rfl, rfl⟩, hnone, -⟩
        rw [hopcode] at hnone
        cases hnone
    | some i =>
      constructor
      · intro h
        obtain ⟨arguments, rest', harguments, h⟩ := stateT_bind_eq_ok.mp h
        cases h
        exact ⟨opcode, mid, rfl, hopcode, rfl, harguments⟩
      · rintro ⟨_, _, ⟨rfl, rfl⟩, hsome, rfl, harguments⟩
        obtain rfl := Option.some.inj (hopcode.symm.trans hsome)
        exact stateT_bind_eq_ok.mpr ⟨_, _, harguments, rfl⟩

/-- A listing passes over what is read as an instruction and goes on behind it. -/
theorem linesInto_of_readLine {set : InstructionSet} {w : Width} {offset : Nat}
    {line : ListingLine} {front rest : Bytes}
    (h : readLine set w offset (front ++ rest) = .ok (line, rest)) (done : Array ListingLine) :
    linesInto set w done offset (front ++ rest) =
      linesInto set w (done.push line) (offset + front.length) rest := by
  have hne : front ++ rest ≠ [] := by
    intro hnil
    rw [hnil] at h
    cases h
  have htaken : (front ++ rest).length - rest.length = front.length := by
    rw [List.length_append, Nat.add_sub_cancel]
  rw [linesInto, if_neg hne]
  split
  · next herror =>
    rw [h] at herror
    cases herror
  · next hline =>
    rw [h] at hline
    cases hline
    rw [htaken]

/-- At the front of the code, a listing gives an instruction back and goes on behind it. -/
theorem linesInto_operands {set : InstructionSet} {w : Width} {i : Instruction}
    {operands : List Encoded} (hset : set.Coherent) (hknown : i ∈ set.instructions)
    (hforms : List.Forall₂ (fun contract e => e.form = contract.form) i.contracts operands)
    (done : Array ListingLine) (offset : Nat) (rest : Bytes) :
    linesInto set w done offset (i.opcode :: operands.flatMap (Encoded.bytes w) ++ rest) =
      linesInto set w (done.push ⟨offset, i, operands.map (Encoded.raw w)⟩) (offset + i.size w)
        rest := by
  have hsize : (i.opcode :: operands.flatMap (Encoded.bytes w)).length = i.size w := by
    rw [List.length_cons, length_flatMap_bytes hforms, Nat.add_comm]
    rfl
  rw [linesInto_of_readLine (reads_line hset hknown hforms offset rest), hsize]

end Listing

/-! ### Linked instructions -/

namespace Linking

variable {session : Session} {indices : List UInt8} {symbol : Symbol}

/-- In an instruction at `offset` of the symbol, the argument under the contract is written as
`e`. -/
def WritesAs (session : Session) (indices : List UInt8) (symbol : Symbol) (offset : Nat)
    (contract : Contract) (argument : Located Binding) (e : Encoded) : Prop :=
  ∃ operand, resolve session.references indices symbol offset argument = .ok operand ∧
    contract.normalize session.type.width operand = .ok e

theorem WritesAs.form {offset : Nat} {contract : Contract} {argument : Located Binding}
    {e : Encoded} (h : WritesAs session indices symbol offset contract argument e) :
    e.form = contract.form := by
  obtain ⟨operand, -, hnormalize⟩ := h
  exact Contract.form_of_normalize hnormalize

/-- The bytes of an instruction's operands are those of what they are written as. -/
theorem argumentBytes_eq_ok {placed : PlacedInstruction} {position : Nat}
    {contracts : List Contract} {arguments : List (Located Binding)} {bytes : Bytes}
    (hcount : arguments.length = contracts.length)
    (h : argumentBytes session indices symbol placed position contracts arguments = .ok bytes) :
    ∃ operands : List Encoded,
      List.Forall₂ (fun p e => WritesAs session indices symbol placed.offset p.1 p.2 e)
        (contracts.zip arguments) operands ∧
      bytes = operands.flatMap (Encoded.bytes session.type.width) := by
  induction contracts generalizing arguments position bytes with
  | nil =>
    cases arguments with
    | nil =>
      cases h
      exact ⟨[], .nil, rfl⟩
    | cons argument arguments => cases hcount
  | cons contract contracts ih =>
    cases arguments with
    | nil => cases hcount
    | cons argument arguments =>
      rw [argumentBytes] at h
      obtain ⟨operand, hresolve, h⟩ := except_bind_eq_ok.mp h
      cases hnormalize : contract.normalize session.type.width operand with
      | error e => rw [hnormalize] at h; cases h
      | ok e =>
        rw [hnormalize] at h
        obtain ⟨rest, hrest, h⟩ := except_bind_eq_ok.mp h
        cases h
        obtain ⟨operands, hoperands, rfl⟩ := ih (Nat.succ.inj hcount) hrest
        exact ⟨e :: operands, .cons ⟨operand, hresolve, hnormalize⟩ hoperands, rfl⟩

/-- The form of every operand is that of its contract. -/
theorem forms_of_writesAs {offset : Nat} {contracts : List Contract}
    {arguments : List (Located Binding)} {operands : List Encoded}
    (hcount : arguments.length = contracts.length)
    (h : List.Forall₂ (fun p e => WritesAs session indices symbol offset p.1 p.2 e)
      (contracts.zip arguments) operands) :
    List.Forall₂ (fun contract e => e.form = contract.form) contracts operands := by
  have hforms : List.Forall₂ (fun p e => e.form = p.1.form) (contracts.zip arguments) operands :=
    h.imp fun p e hp => WritesAs.form hp
  have hfst : contracts = (contracts.zip arguments).map Prod.fst := by
    rw [List.map_fst_zip (Nat.le_of_eq hcount.symm)]
  rw [hfst]
  exact List.forall₂_map_left_iff.mpr hforms

/-- The line of a listing is the placed instruction: it stands at the same offset, and every
operand is the number it was written as. -/
structure Lists (session : Session) (indices : List UInt8) (symbol : Symbol)
    (placed : PlacedInstruction) (line : ListingLine) : Prop where
  instruction : line.instruction = placed.instruction
  offset : line.offset = placed.offset
  /-- There is an operand for every contract. -/
  count : placed.arguments.length = placed.instruction.contracts.length
  arguments : List.Forall₂
    (fun p raw => ∃ e, WritesAs session indices symbol placed.offset p.1 p.2 e ∧
      raw = e.raw session.type.width)
    (placed.instruction.contracts.zip placed.arguments) line.arguments

/-- An instruction is an opcode and the bytes of its operands. -/
theorem instructionBytes_eq_ok {placed : PlacedInstruction} {bytes : Bytes}
    (hcount : placed.arguments.length = placed.instruction.contracts.length)
    (h : instructionBytes session indices symbol placed = .ok bytes) :
    ∃ operands : List Encoded,
      List.Forall₂ (fun p e => WritesAs session indices symbol placed.offset p.1 p.2 e)
        (placed.instruction.contracts.zip placed.arguments) operands ∧
      bytes = placed.instruction.opcode :: operands.flatMap (Encoded.bytes session.type.width) := by
  obtain ⟨rest, hrest, h⟩ := except_bind_eq_ok.mp h
  cases h
  obtain ⟨operands, hoperands, rfl⟩ := argumentBytes_eq_ok hcount hrest
  exact ⟨operands, hoperands, rfl⟩

/-- The layout has counted the bytes of an instruction right. -/
theorem length_instructionBytes {placed : PlacedInstruction} {bytes : Bytes}
    (hcount : placed.arguments.length = placed.instruction.contracts.length)
    (h : instructionBytes session indices symbol placed = .ok bytes) :
    bytes.length = placed.instruction.size session.type.width := by
  obtain ⟨operands, hoperands, rfl⟩ := instructionBytes_eq_ok hcount h
  rw [List.length_cons, Listing.length_flatMap_bytes (forms_of_writesAs hcount hoperands),
    Nat.add_comm]
  rfl

/-- At the front of the code, a listing gives a placed instruction back. -/
theorem linesInto_instructionBytes {placed : PlacedInstruction} {bytes : Bytes}
    (hset : session.instructionSet.Coherent)
    (hknown : placed.instruction ∈ session.instructionSet.instructions)
    (hcount : placed.arguments.length = placed.instruction.contracts.length)
    (h : instructionBytes session indices symbol placed = .ok bytes)
    (done : Array ListingLine) (rest : Bytes) :
    ∃ line, Lists session indices symbol placed line ∧
      Listing.linesInto session.instructionSet session.type.width done placed.offset
          (bytes ++ rest) =
        Listing.linesInto session.instructionSet session.type.width (done.push line)
          (placed.offset + placed.instruction.size session.type.width) rest := by
  obtain ⟨operands, hoperands, rfl⟩ := instructionBytes_eq_ok hcount h
  refine ⟨⟨placed.offset, placed.instruction, operands.map (Encoded.raw session.type.width)⟩,
    ⟨rfl, rfl, hcount, ?_⟩, ?_⟩
  · refine List.forall₂_map_right_iff.mpr (hoperands.imp fun p e he => ?_)
    exact ⟨e, he, rfl⟩
  · exact Listing.linesInto_operands hset hknown (forms_of_writesAs hcount hoperands) done
      placed.offset rest

/-! ### Linked symbols -/

/-- The pieces of a symbol's code, one for each instruction, give back the instructions, and are as
long as the layout has counted. -/
theorem linesInto_pieces {instructions : List PlacedInstruction} {pieces : List Bytes}
    (hset : session.instructionSet.Coherent)
    (hknown : ∀ placed ∈ instructions,
      placed.instruction ∈ session.instructionSet.instructions)
    (hcount : ∀ placed ∈ instructions,
      placed.arguments.length = placed.instruction.contracts.length)
    (h : List.Forall₂
      (fun placed bytes => instructionBytes session indices symbol placed = .ok bytes)
      instructions pieces)
    {start stop : Nat}
    (hconsecutive : Layout.Consecutive session.type.width start instructions stop)
    (done : Array ListingLine) :
    start + pieces.flatten.length = stop ∧
      ∃ lines, List.Forall₂ (Lists session indices symbol) instructions lines ∧
        Listing.linesInto session.instructionSet session.type.width done start pieces.flatten =
          .ok (done ++ lines.toArray) := by
  induction h generalizing start done with
  | nil =>
    refine ⟨hconsecutive, [], .nil, ?_⟩
    rw [List.flatten_nil, Listing.linesInto, if_pos rfl]
    simp
  | @cons placed bytes instructions pieces hbytes _ ih =>
    obtain ⟨rfl, hconsecutive⟩ := hconsecutive
    have hplaced := hcount placed List.mem_cons_self
    have hlength := length_instructionBytes hplaced hbytes
    obtain ⟨line, hline, hlines⟩ := linesInto_instructionBytes hset
      (hknown placed List.mem_cons_self) hplaced hbytes done pieces.flatten
    obtain ⟨hstop, lines, hlists, hrest⟩ :=
      ih (fun p hp => hknown p (List.mem_cons_of_mem _ hp))
        (fun p hp => hcount p (List.mem_cons_of_mem _ hp)) hconsecutive (done.push line)
    refine ⟨?_, line :: lines, .cons hline hlists, ?_⟩
    · rw [List.flatten_cons, List.length_append, hlength, ← Nat.add_assoc, hstop]
    · rw [List.flatten_cons, hlines, hrest]
      simp

/-- The code of a well placed symbol is listed as the symbol's instructions. -/
theorem ofBody_body {bytes : Bytes} (hset : session.instructionSet.Coherent)
    (hplaced : Layout.WellPlaced session.instructionSet session.type.width symbol)
    (h : body session indices symbol = .ok bytes) :
    bytes.length = symbol.size ∧
      ∃ lines, List.Forall₂ (Lists session indices symbol) symbol.instructions.toList lines ∧
        Listing.ofBody session.instructionSet session.type.width bytes = .ok lines := by
  obtain ⟨pieces, hpieces, rfl⟩ := except_map_eq_ok.mp h
  obtain ⟨hlength, lines, hlists, hlines⟩ := linesInto_pieces hset
    (fun placed hmem => hplaced.known placed (Array.mem_toList_iff.mp hmem))
    (fun placed hmem => hplaced.complete placed (Array.mem_toList_iff.mp hmem))
    (mapM_eq_ok.mp hpieces) hplaced.consecutive #[]
  refine ⟨by rw [← hlength, Nat.zero_add], lines, hlists, ?_⟩
  rw [Listing.ofBody, hlines]
  simp [Except.map]

theorem length_assignIndices {free indices : List UInt8} {symbols : List Symbol}
    (h : assignIndices free symbols = .ok indices) : indices.length = symbols.length := by
  induction symbols generalizing free indices with
  | nil =>
    cases h
    rfl
  | cons symbol symbols ih =>
    unfold assignIndices at h
    split at h
    · obtain ⟨rest, hrest, rfl⟩ := except_map_eq_ok.mp h
      rw [List.length_cons, ih hrest, List.length_cons]
    · obtain ⟨rest, hrest, rfl⟩ := except_map_eq_ok.mp h
      rw [List.length_cons, ih hrest, List.length_cons]
    · cases h

/-- The entries of a container are the symbols with their code. -/
theorem linkSymbols_eq_ok {symbols : List (Symbol × UInt8)} {entries : List SymbolEntry}
    (h : (linkSymbols session indices symbols).1 = .ok entries) :
    List.Forall₂ (fun p entry => entry.name = some p.1.name ∧ entry.index = p.2 ∧
        body session indices p.1 = .ok entry.body) symbols entries := by
  induction symbols generalizing entries with
  | nil =>
    cases h
    exact .nil
  | cons p symbols ih =>
    obtain ⟨symbol, index⟩ := p
    rw [linkSymbols] at h
    split at h
    · cases h
    · next bytes hbody =>
      obtain ⟨rest, hrest, rfl⟩ := except_map_eq_ok.mp h
      exact .cons ⟨rfl, rfl, hbody⟩ (ih hrest)

/-- The container has the declarations of the session, and its entries are the symbols with their
indices and code, in order. -/
structure Linked (session : Session) (indices : List UInt8) (container : Container) : Prop where
  type : container.type = session.type
  metadata : container.metadata = session.metadata
  slots : container.slots = session.slots
  constants : container.constants = session.pool.entries
  assigned : Linking.indices session.symbols.toList = .ok indices
  symbols : List.Forall₂ (fun p entry => entry.name = some p.1.name ∧ entry.index = p.2 ∧
      body session indices p.1 = .ok entry.body)
    (session.symbols.toList.zip indices) container.symbols

theorem linked_of_link {container : Container} (h : (link session).1 = .ok container) :
    ∃ indices, Linked session indices container := by
  unfold link at h
  dsimp only at h
  split at h
  · cases h
  · next indices hindices =>
    obtain ⟨entries, hentries, rfl⟩ := except_map_eq_ok.mp h
    exact ⟨indices, rfl, rfl, rfl, rfl, hindices, linkSymbols_eq_ok hentries⟩

/-- Every symbol of a linked session has its entry in the container. -/
theorem Linked.entries {container : Container} (h : Linked session indices container) :
    List.Forall₂ (fun symbol entry => entry.name = some symbol.name ∧
      body session indices symbol = .ok entry.body) session.symbols.toList container.symbols := by
  have hfst : session.symbols.toList = (session.symbols.toList.zip indices).map Prod.fst := by
    rw [List.map_fst_zip (Nat.le_of_eq (length_assignIndices h.assigned).symm)]
  rw [hfst]
  refine List.forall₂_map_left_iff.mpr (h.symbols.imp ?_)
  rintro p entry ⟨hname, -, hbody⟩
  exact ⟨hname, hbody⟩

theorem link_eq_ok {container : Container} {events : List Event}
    (h : link session = (.ok container, events)) :
    ∃ indices, Linking.indices session.symbols.toList = .ok indices ∧
      List.Forall₂ (fun symbol entry => entry.name = some symbol.name ∧
        body session indices symbol = .ok entry.body) session.symbols.toList container.symbols := by
  obtain ⟨indices, hlinked⟩ := linked_of_link (by rw [h])
  exact ⟨indices, hlinked.assigned, hlinked.entries⟩

/-- **A listing inverts the assembly**: in a program that is read, laid out and linked, the code of
every symbol is as long as the layout says, and its listing has one line for each instruction of
the symbol, in order, with the instruction, its offset and its operands as they were written. -/
theorem ofBody_link {items deferred : List (Located Item)} {declared session : Session}
    {container : Container} {events events' events'' : List Event}
    (hread : Declaration.readProgram items = (.ok (declared, deferred), events))
    (hlayout : Layout.layOut declared deferred = (session, none, events'))
    (hlink : link session = (.ok container, events'')) :
    ∃ indices, Linking.indices session.symbols.toList = .ok indices ∧
      List.Forall₂ (fun symbol entry => entry.name = some symbol.name ∧
          entry.body.length = symbol.size ∧
          ∃ lines,
            Listing.ofBody session.instructionSet session.type.width entry.body = .ok lines ∧
              List.Forall₂ (Lists session indices symbol) symbol.instructions.toList lines)
        session.symbols.toList container.symbols := by
  have hsession : session = (Layout.layOut declared deferred).1 := by rw [hlayout]
  have hset : session.instructionSet.Coherent := by
    rw [hsession]
    refine keeps_of_reflTransGen (P := fun s => s.instructionSet.Coherent)
      (Layout.changes_layOut declared deferred) ?_ (Declaration.coherent_readProgram hread)
    intro s s' hchange hs
    rwa [hchange.declarations.2.1]
  have hall : Layout.AllWellPlaced session := by
    rw [hsession]
    exact Layout.allWellPlaced_layOut (Declaration.symbols_readProgram hread) deferred
  obtain ⟨indices, hindices, hentries⟩ := link_eq_ok hlink
  refine ⟨indices, hindices, ?_⟩
  have hplaced : ∀ symbol ∈ session.symbols.toList,
      Layout.WellPlaced session.instructionSet session.type.width symbol :=
    fun symbol hsymbol => hall symbol (Array.mem_toList_iff.mp hsymbol)
  refine ((List.forall₂_and_left _ _).mpr ⟨hplaced, hentries⟩).imp ?_
  rintro symbol entry ⟨hsymbol, hname, hbody⟩
  obtain ⟨hlength, lines, hlists, hlines⟩ := ofBody_body hset hsymbol hbody
  exact ⟨hname, hlength, lines, hlines, hlists⟩

/-- An extension of the machine, used by the sample below. -/
def sampleExtension : Instruction := ⟨"blit", 0x80, [.byte, .label]⟩

/-- A symbol with a label, a number that is cut to the width, and an extension that refers back. -/
def sampleCode : List (Located Item) :=
  List.map .nowhere
    [.directive "symbol", .word "main", .lineEnd,
      .word "top", .separator ':', .word "PUSH", .number (-1), .lineEnd,
      .word "blit", .number 255, .separator ',', .word "top", .lineEnd]

/-- The header, the declaration of the extension, and the symbol. -/
def sampleProgram : List (Located Item) :=
  List.map .nowhere
    [.directive "cwx", .separator ':', .number 16, .lineEnd,
      .directive "extinstr", .word "Blit", .separator ',', .number 0x80, .separator ',',
      .word "byte", .separator ',', .word "label", .lineEnd] ++ sampleCode

/-- What is known once the declarations of the sample are read. -/
def sampleDeclared : Session where
  type := ⟨.executable, .w16⟩
  instructionSet := .ofInstructions (Instruction.native ++ [sampleExtension])

/-- What is known once the sample is laid out. -/
def sampleSession : Session :=
  { sampleDeclared with
    references := ⟨[("main", .symbol 0)]⟩
    symbols :=
      #[{ name := "main", fixed := none
          instructions :=
            #[⟨⟨"push", 0x20, [.number]⟩, 0, [.nowhere (.known (.value (-1)))], none⟩,
              ⟨sampleExtension, 3, [.nowhere (.known (.value 255)), .nowhere (.named "top")],
                none⟩]
          labels := ⟨[("top", 0)]⟩, size := 7, loc := none }] }

/-- The sample as a container. -/
def sampleContainer : Container where
  type := ⟨.executable, .w16⟩
  metadata := {}
  slots := []
  constants := []
  symbols := [⟨some "main", 0, [0x20, 0xFF, 0xFF, 0x80, 0xFF, 0xFD, 0xFF]⟩]

theorem ofBody_link_sample :
    (Declaration.readProgram sampleProgram).1 = .ok (sampleDeclared, sampleCode) ∧
      (Layout.layOut sampleDeclared sampleCode).1 = sampleSession ∧
      (link sampleSession).1 = .ok sampleContainer ∧
      ∃ indices, Linking.indices sampleSession.symbols.toList = .ok indices ∧
        List.Forall₂ (fun symbol entry => entry.name = some symbol.name ∧
            entry.body.length = symbol.size ∧
            ∃ lines,
              Listing.ofBody sampleSession.instructionSet .w16 entry.body = .ok lines ∧
                List.Forall₂ (Lists sampleSession indices symbol) symbol.instructions.toList lines)
          sampleSession.symbols.toList sampleContainer.symbols := by
  have hread : Declaration.readProgram sampleProgram =
      (.ok (sampleDeclared, sampleCode), (Declaration.readProgram sampleProgram).2) := by
    decide +kernel
  have hlayout : Layout.layOut sampleDeclared sampleCode =
      (sampleSession, none, (Layout.layOut sampleDeclared sampleCode).2.2) := by
    decide +kernel
  have hlink : link sampleSession = (.ok sampleContainer, (link sampleSession).2) := by
    decide +kernel
  exact ⟨by rw [hread], by rw [hlayout], by rw [hlink], ofBody_link hread hlayout hlink⟩

end Linking

end StackAsm
