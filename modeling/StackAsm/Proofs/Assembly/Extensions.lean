import StackAsm.Proofs.Assembly
import StackAsm.Proofs.Assembly.Mnemonics

/-!
# Programs with extensions, listed without them

A container does not say which extensions its code uses. With the instructions of the machine alone,
code is listed in step with the listing that knows the extensions, whatever bytes the operands
have, up to the first instruction that a line of the program added. There the listing stops at an
unknown opcode, since no extension takes an opcode of the machine. Code without such instructions is
listed in full.
-/

namespace StackAsm

/-! ### Fewer instructions -/

/-- Where the opcode stands for something, it stands for the same with fewer instructions, or for
nothing. -/
theorem InstructionSet.Coherent.withOpcode?_of_subset {set base : InstructionSet}
    (hset : set.Coherent) (hbase : base.Coherent) (hsub : base.instructions ⊆ set.instructions)
    {opcode : UInt8} {i : Instruction} (h : set.withOpcode? opcode = some i) :
    base.withOpcode? opcode = if i ∈ base.instructions then some i else none := by
  obtain ⟨hi, rfl⟩ := hset.mem_of_withOpcode? h
  cases hfound : base.withOpcode? i.opcode with
  | none =>
    rw [if_neg]
    intro hmem
    rw [hbase.withOpcode?_opcode hmem] at hfound
    cases hfound
  | some j =>
    obtain ⟨hj, hopcode⟩ := hbase.mem_of_withOpcode? hfound
    obtain rfl : j = i := List.inj_on_of_nodup_map hset.opcodes (hsub hj) hi hopcode
    rw [if_pos hj]

namespace Listing

variable {set base : InstructionSet} {w : Width}

/-- What becomes of a listing if only the instructions of the set are known. -/
def restrict (base : InstructionSet) : List ListingLine → Except ReadError (List ListingLine)
  | [] => .ok []
  | line :: lines =>
    if line.instruction ∈ base.instructions then (restrict base lines).map (line :: ·)
    else .error (.unknownOpcode line.instruction.opcode line.offset)

/-- With fewer instructions, the same is read as long as the instruction is among them. -/
theorem readLine_of_subset (hset : set.Coherent) (hbase : base.Coherent)
    (hsub : base.instructions ⊆ set.instructions) {line : ListingLine} {offset : Nat}
    {bs rest : Bytes} (h : readLine set w offset bs = .ok (line, rest)) :
    readLine base w offset bs =
      if line.instruction ∈ base.instructions then .ok (line, rest)
      else .error (.unknownOpcode line.instruction.opcode line.offset) := by
  obtain ⟨opcode, mid, rfl, hopcode, rfl, harguments⟩ := readLine_eq_ok.mp h
  have hfound := hset.withOpcode?_of_subset hbase hsub hopcode
  split
  · next hline =>
    rw [if_pos hline] at hfound
    exact readLine_eq_ok.mpr ⟨opcode, mid, rfl, hfound, rfl, harguments⟩
  · next hline =>
    rw [if_neg hline] at hfound
    obtain ⟨-, rfl⟩ := hset.mem_of_withOpcode? hopcode
    have hread : Container.readByte "symbol body" (line.instruction.opcode :: mid) =
        .ok (line.instruction.opcode, mid) := rfl
    rw [readLine, stateT_bind_of_ok hread, hfound]
    rfl

/-- A listing with fewer instructions goes in step with one with more, as far as it goes. -/
theorem linesInto_of_subset (hset : set.Coherent) (hbase : base.Coherent)
    (hsub : base.instructions ⊆ set.instructions) {done result : Array ListingLine} {offset : Nat}
    {bs : Bytes} (h : linesInto set w done offset bs = .ok result) :
    ∃ listing, result = done ++ listing.toArray ∧
      linesInto base w done offset bs =
        (restrict base listing).map fun lines => done ++ lines.toArray := by
  fun_induction linesInto set w done offset bs with
  | case1 done offset =>
    cases h
    refine ⟨[], by simp, ?_⟩
    rw [linesInto, if_pos rfl, restrict]
    simp [Except.map]
  | case2 => cases h
  | case3 done offset bs hne line rest hline ih =>
    obtain ⟨listing, rfl, hrest⟩ := ih h
    refine ⟨line :: listing, by simp, ?_⟩
    have hread := readLine_of_subset hset hbase hsub hline
    rw [linesInto, if_neg hne, restrict]
    split
    · next e herror =>
      rw [hread] at herror
      split at herror
      · cases herror
      · next hi =>
        cases herror
        rw [if_neg hi]
        rfl
    · next line' rest' hline' =>
      rw [hread] at hline'
      split at hline'
      · next hi =>
        cases hline'
        rw [if_pos hi, hrest]
        cases restrict base listing with
        | ok lines => simp [Except.map]
        | error e => rfl
      · cases hline'

theorem ofBody_of_subset (hset : set.Coherent) (hbase : base.Coherent)
    (hsub : base.instructions ⊆ set.instructions) {body : Bytes} {listing : List ListingLine}
    (h : ofBody set w body = .ok listing) : ofBody base w body = restrict base listing := by
  obtain ⟨result, hresult, rfl⟩ := except_map_eq_ok.mp h
  obtain ⟨listing, rfl, hlines⟩ := linesInto_of_subset hset hbase hsub hresult
  rw [ofBody, hlines]
  cases hrestrict : restrict base listing with
  | ok lines => simp [Except.map, hrestrict]
  | error e => simp [Except.map, hrestrict]

theorem restrict_of_forall {listing : List ListingLine}
    (h : ∀ line ∈ listing, line.instruction ∈ base.instructions) :
    restrict base listing = .ok listing := by
  induction listing with
  | nil => rfl
  | cons line listing ih =>
    obtain ⟨hline, hlisting⟩ := List.forall_mem_cons.mp h
    rw [restrict, if_pos hline, ih hlisting]
    rfl

/-- The first instruction that is not known ends the listing at its offset. -/
theorem restrict_of_first {before after : List PlacedInstruction} {placed : PlacedInstruction}
    {listing : List ListingLine}
    (hlisting : List.Forall₂ (fun placed line =>
      line.instruction = placed.instruction ∧ line.offset = placed.offset)
      (before ++ placed :: after) listing)
    (hbefore : ∀ other ∈ before, other.instruction ∈ base.instructions)
    (hplaced : placed.instruction ∉ base.instructions) :
    restrict base listing = .error (.unknownOpcode placed.instruction.opcode placed.offset) := by
  induction before generalizing listing with
  | nil =>
    obtain ⟨line, rest, ⟨hinstruction, hoffset⟩, -, rfl⟩ := List.forall₂_cons_left_iff.mp hlisting
    rw [restrict, hinstruction, if_neg hplaced, hoffset]
  | cons first before ih =>
    obtain ⟨hfirst, hothers⟩ := List.forall_mem_cons.mp hbefore
    obtain ⟨line, rest, ⟨hinstruction, -⟩, hrest, rfl⟩ := List.forall₂_cons_left_iff.mp hlisting
    rw [restrict, hinstruction, if_pos hfirst, ih hrest hothers]
    rfl

end Listing

/-! ### Instructions that a program adds -/

namespace Declaration

variable {session session' : Session} {line put : List (Located Item)}
  {lines : List (List (Located Item))} {i : Instruction}

/-- One of the lines adds the instruction. -/
def AddedBy (lines : List (List (Located Item))) (i : Instruction) : Prop :=
  ∃ line ∈ lines, ∃ mnemonic, Adds mnemonic (line.map (·.value)) ∧ i.name = Text.lowercase mnemonic

theorem addedBy_cons_of_not_adds (h : ∀ mnemonic, ¬Adds mnemonic (line.map (·.value))) :
    AddedBy (line :: lines) i ↔ AddedBy lines i := by
  rw [AddedBy, List.exists_mem_cons_iff]
  refine or_iff_right ?_
  rintro ⟨mnemonic, hadds, -⟩
  exact h mnemonic hadds

theorem addedBy_cons_of_adds {mnemonic : String} (h : Adds mnemonic (line.map (·.value))) :
    AddedBy (line :: lines) i ↔ i.name = Text.lowercase mnemonic ∨ AddedBy lines i := by
  rw [AddedBy, List.exists_mem_cons_iff]
  refine or_congr_left ⟨?_, fun hname => ⟨mnemonic, h, hname⟩⟩
  rintro ⟨other, hother, hname⟩
  rwa [h.unique hother] at hname

/-- The lines add instructions to those that are there, none of them anew. -/
theorem Reading.addedBy (h : Reading session lines session' put) :
    ∃ added, session'.instructionSet.instructions =
        session.instructionSet.instructions ++ added ∧
      (∀ i ∈ added, AddedBy lines i) ∧
      ∀ i ∈ session.instructionSet.instructions, ¬AddedBy lines i := by
  induction h with
  | nil session => exact ⟨[], by simp, by simp, by simp [AddedBy]⟩
  | @cons session session₁ session' line lines first rest read reading ih =>
    obtain ⟨added, hadded, hlines, hnot⟩ := ih
    rcases read.adds with ⟨hsame, hplain⟩ | ⟨mnemonic, i, hadds, -, hname, hextend⟩
    · simp only [addedBy_cons_of_not_adds hplain]
      rw [hsame] at hadded hnot
      exact ⟨added, hadded, hlines, hnot⟩
    · obtain ⟨-, hfree, -, hset⟩ := (InstructionSet.extend_eq_ok_iff _ _ _).mp hextend
      simp only [addedBy_cons_of_adds hadds]
      rw [hset] at hadded hnot
      refine ⟨i :: added, by rw [hadded, InstructionSet.insert, List.append_assoc]; rfl, ?_, ?_⟩
      · exact List.forall_mem_cons.mpr ⟨.inl hname, fun j hj => .inr (hlines j hj)⟩
      · rintro j hj (hother | hlater)
        · -- the line would not have been taken with the name in use
          have hne := List.find?_eq_none.mp hfree j hj
          rw [hother, hname] at hne
          simp at hne
        · exact hnot j (List.mem_append_left _ hj) hlater

/-- The instructions of a program are those of the machine and those that its lines add. -/
theorem addedBy_readProgram {items deferred : List (Located Item)} {events : List Event}
    (h : readProgram items = (.ok (session, deferred), events)) :
    InstructionSet.native.instructions ⊆ session.instructionSet.instructions ∧
      ∀ i ∈ session.instructionSet.instructions,
        AddedBy (Item.lines items) i ↔ i ∉ InstructionSet.native.instructions := by
  obtain ⟨head, rest, lines, type, directive, hlines, hhead, hnone, hreading⟩ :=
    reading_readProgram h
  obtain ⟨added, hset, hline, hnot⟩ := hreading.addedBy
  have hheader : ∀ name, head.value = .directive name → Keyword.ofName? name = none := by
    intro name hvalue
    rw [hhead] at hvalue
    cases hvalue
    exact hnone
  rw [hset, hlines]
  refine ⟨List.subset_append_left _ _, fun i hi => ?_⟩
  rw [addedBy_cons_of_not_adds (not_adds_of_plain hheader)]
  constructor
  · intro haddedBy hnative
    exact hnot i hnative haddedBy
  · intro hforeign
    exact hline i ((List.mem_append.mp hi).resolve_left hforeign)

end Declaration

/-! ### Programs -/

namespace Assembly

open Declaration

/-- How the code of a symbol is listed with the instructions of the machine alone, if the lines of
the program add others to them. -/
structure NativeListing (lines : List (List (Located Item))) (set : InstructionSet) (w : Width)
    (symbol : Symbol) (body : Bytes) : Prop where
  /-- With all instructions there is a listing. -/
  listed : ∃ listing, Listing.ofBody set w body = .ok listing
  /-- Without extensions in the symbol the listing is the same. -/
  plain : (∀ placed ∈ symbol.instructions, ¬AddedBy lines placed.instruction) →
    Listing.ofBody .native w body = Listing.ofBody set w body
  /-- The first extension in the symbol is an unknown opcode. -/
  extended : ∀ before placed after, symbol.instructions.toList = before ++ placed :: after →
    (∀ other ∈ before, ¬AddedBy lines other.instruction) → AddedBy lines placed.instruction →
      Listing.ofBody .native w body =
        .error (.unknownOpcode placed.instruction.opcode placed.offset)

theorem nativeListing_of_lists {lines : List (List (Located Item))} {set : InstructionSet}
    {w : Width} {symbol : Symbol} {body : Bytes} {listing : List ListingLine}
    (hset : set.Coherent) (hsub : InstructionSet.native.instructions ⊆ set.instructions)
    (hadded : ∀ i ∈ set.instructions, AddedBy lines i ↔ i ∉ InstructionSet.native.instructions)
    (hknown : ∀ placed ∈ symbol.instructions.toList, placed.instruction ∈ set.instructions)
    (hlists : List.Forall₂ (fun placed line =>
      line.instruction = placed.instruction ∧ line.offset = placed.offset)
      symbol.instructions.toList listing)
    (hlisting : Listing.ofBody set w body = .ok listing) :
    NativeListing lines set w symbol body := by
  have hrestrict := Listing.ofBody_of_subset hset InstructionSet.native_coherent hsub hlisting
  have hnative : ∀ placed ∈ symbol.instructions.toList, ¬AddedBy lines placed.instruction →
      placed.instruction ∈ InstructionSet.native.instructions := by
    intro placed hmem hplain
    rw [hadded _ (hknown placed hmem)] at hplain
    exact not_not.mp hplain
  refine ⟨⟨listing, hlisting⟩, ?_, ?_⟩
  · intro hplain
    rw [hrestrict, hlisting]
    refine Listing.restrict_of_forall fun line hline => ?_
    obtain ⟨placed, hmem, hinstruction, -⟩ := exists_of_forall₂ hlists hline
    rw [hinstruction]
    exact hnative placed hmem (hplain placed (Array.mem_toList_iff.mp hmem))
  · intro before placed after hsplit hbefore hextension
    rw [hsplit] at hlists hnative hknown
    rw [hrestrict]
    refine Listing.restrict_of_first hlists (fun other hother => ?_) ?_
    · exact hnative other (List.mem_append_left _ hother) (hbefore other hother)
    · exact (hadded _ (hknown placed (by simp))).mp hextension

variable {items deferred : List (Located Item)} {declared session : Session}
  {container : Container}

/-- **Programs with extensions, listed without them**: if the passes over a program succeed, the
code of every symbol is listed with the instructions of the machine as with all instructions, unless
the symbol uses one that a line of the program adds. Then the listing fails with the opcode and the
offset of the first that it uses. -/
theorem native_listing (h : Passes items deferred declared session container) :
    List.Forall₂ (fun symbol entry => entry.name = some symbol.name ∧
        NativeListing (Item.lines items) session.instructionSet session.type.width symbol
          entry.body)
      session.symbols.toList container.symbols := by
  obtain ⟨indices, hlinked⟩ := h.exists_linked
  obtain ⟨hsub, hadded⟩ := addedBy_readProgram h.read_eq
  rw [← h.declarations.2.1] at hsub hadded
  refine Linking.forall₂_imp_of_mem hlinked.entries ?_
  rintro symbol hsymbol entry ⟨hname, hbody⟩
  have hplaced := h.allWellPlaced symbol (Array.mem_toList_iff.mp hsymbol)
  obtain ⟨-, listing, hlists, hlisting⟩ := Linking.ofBody_body h.coherent hplaced hbody
  refine ⟨hname, nativeListing_of_lists h.coherent hsub hadded ?_ ?_ hlisting⟩
  · exact fun placed hmem => hplaced.known placed (Array.mem_toList_iff.mp hmem)
  · exact hlists.imp fun _ _ hline => ⟨hline.instruction, hline.offset⟩

/-- Two symbols with operands that look like the opcode of an extension, and the extension in the
second. -/
def sampleOpcodesCode : List (Located Item) :=
  List.map .nowhere
    [.directive "symbol", .word "plain", .lineEnd,
      .word "pushb", .number 0x80, .lineEnd,
      .directive "symbol", .word "main", .lineEnd,
      .word "top", .separator ':', .word "push", .number 0x8080, .lineEnd,
      .word "blit", .number 0x80, .separator ',', .word "top", .lineEnd]

/-- Their program. -/
def sampleOpcodes : List (Located Item) :=
  List.map .nowhere
    [.directive "cwx", .separator ':', .number 16, .lineEnd,
      .directive "extinstr", .word "Blit", .separator ',', .number 0x80, .separator ',',
      .word "byte", .separator ',', .word "label", .lineEnd] ++ sampleOpcodesCode

/-- What is known once it is laid out. -/
def sampleOpcodesSession : Session := (Layout.layOut Linking.sampleDeclared sampleOpcodesCode).1

/-- Its container. -/
def sampleOpcodesContainer : Container where
  type := ⟨.executable, .w16⟩
  metadata := {}
  slots := []
  constants := []
  symbols :=
    [⟨some "plain", 0, [0x21, 0x80]⟩,
      ⟨some "main", 1, [0x20, 0x80, 0x80, 0x80, 0x80, 0xFD, 0xFF]⟩]

theorem native_listing_sampleOpcodes :
    Passes sampleOpcodes sampleOpcodesCode Linking.sampleDeclared sampleOpcodesSession
        sampleOpcodesContainer ∧
      List.Forall₂ (fun symbol entry => entry.name = some symbol.name ∧
          NativeListing (Item.lines sampleOpcodes) sampleOpcodesSession.instructionSet .w16 symbol
            entry.body)
        sampleOpcodesSession.symbols.toList sampleOpcodesContainer.symbols := by
  have hpasses : Passes sampleOpcodes sampleOpcodesCode Linking.sampleDeclared
      sampleOpcodesSession sampleOpcodesContainer :=
    ⟨by decide +kernel, rfl, by decide +kernel, by decide +kernel⟩
  exact ⟨hpasses, native_listing hpasses⟩

example :
    Listing.ofBody .native .w16 [0x21, 0x80] = .ok [⟨0, ⟨"pushb", 0x21, [.byte]⟩, [0x80]⟩] ∧
      Listing.ofBody .native .w16 [0x20, 0x80, 0x80, 0x80, 0x80, 0xFD, 0xFF] =
        .error (.unknownOpcode 0x80 3) := by
  decide +kernel

end Assembly

end StackAsm
