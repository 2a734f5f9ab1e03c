import StackAsm.Proofs.Assembly.LongJump

/-!
# Where jumps lead

A label is set before any operand is written, at the offset that the code has then. In the code,
an operand that names a label holds the distance from its instruction: as a number cut to the
width, as a byte ahead, or as a byte back. Added to the offset of the instruction it gives the
label, and the label is where an instruction starts or where the code ends.

Read as a signed number, such an operand is the distance only if that is less than half the range
of the width. The check of a number admits the unsigned range as well, so a label farther ahead is
not refused, and its distance reads as one back.
-/

namespace StackAsm.Assembly

variable {items deferred : List (Located Item)} {declared session : Session}
  {container : Container} {indices : List UInt8} {symbol : Symbol} {placed : PlacedInstruction}
  {contract : Contract} {argument : Located Binding} {e : Encoded} {name : String} {target : Nat}

/-- From an instruction at `offset`, the operand leads to `target`; where it is a number of the
width, only up to a multiple of the range. Contracts that take no label lead nowhere. -/
def Reaches (w : Width) (offset target : Nat) (contract : Contract) (raw : UInt64) : Prop :=
  match contract with
  | .forward | .byte => offset + raw.toNat = target
  | .backward => (offset : Int) - raw.toNat = target
  | .label | .number | .anything => (offset + raw.toNat) % 2 ^ w.bits = target % 2 ^ w.bits
  | _ => False

/-- An operand that names a label is its distance, brought into the form of the contract. -/
theorem normalize_of_writesAs {offset : Nat}
    (h : Linking.WritesAs session indices symbol offset contract argument e)
    (hname : argument.value = .named name) (hlabel : symbol.labels.get? name = some target) :
    contract.normalize session.type.width
      (.distance .label (Int64.ofInt ((target : Int) - offset))) = .ok e := by
  obtain ⟨operand, hresolve, hnormalize⟩ := h
  rw [Linking.resolve_of_label hname hlabel] at hresolve
  cases hresolve
  exact hnormalize

/-- A label within reach of a signed number of 64 bits is reached. -/
theorem reaches_of_normalize {w : Width} {offset : Nat} (hoffset : offset < 2 ^ 63)
    (htarget : target < 2 ^ 63)
    (h : contract.normalize w (.distance .label (Int64.ofInt ((target : Int) - offset))) = .ok e) :
    Reaches w offset target contract (e.raw w) := by
  have hdistance : (Int64.ofInt ((target : Int) - offset)).toInt = (target : Int) - offset :=
    Int64.toInt_ofInt_of_le (by omega) (by omega)
  rcases Contract.normalize_label_eq_ok h with
    ⟨hcontract, -, rfl⟩ | ⟨hcontract, hlow, hhigh, rfl⟩ | ⟨rfl, hlow, hhigh, rfl⟩
  · -- a number: what was cut off is a multiple of the range
    have hmod : (offset + (w.mask (Int64.ofInt ((target : Int) - offset)).toUInt64).toNat) %
        2 ^ w.bits = target % 2 ^ w.bits := by
      apply Int.natCast_inj.mp
      rw [Int.natCast_emod, Int.natCast_emod, Int.natCast_add, Width.toNat_mask_ofInt,
        Int.natCast_pow]
      show ((offset : Int) + (target - offset) % 2 ^ w.bits) % 2 ^ w.bits = target % 2 ^ w.bits
      rw [Int.add_emod_emod]
      congr 1
      omega
    rcases hcontract with rfl | rfl | rfl
    all_goals exact hmod
  · -- a byte ahead
    have hbyte := Width.toNat_lowByte hlow hhigh
    rw [hdistance] at hbyte
    rcases hcontract with rfl | rfl
    all_goals
      show offset + UInt64.toNat (UInt8.toUInt64 _) = target
      rw [UInt8.toNat_toUInt64]
      omega
  · -- a byte back, written without its sign
    have hneg : (-Int64.ofInt ((target : Int) - offset)).toInt = (offset : Int) - target := by
      rw [Int64.toInt_neg, hdistance, Int.bmod_eq_of_le (by omega) (by omega)]
      omega
    rw [hdistance] at hlow hhigh
    have hbyte := Width.toNat_lowByte (v := -Int64.ofInt ((target : Int) - offset))
      (by omega) (by omega)
    show (offset : Int) - UInt64.toNat (UInt8.toUInt64 _) = target
    rw [UInt8.toNat_toUInt64, hbyte, hneg]
    omega

/-- In a program whose code is short enough, offsets and labels are. -/
theorem Passes.offsets_lt {n : Nat} (h : Passes items deferred declared session container)
    (hsize : ∀ entry ∈ container.symbols, entry.body.length < n)
    (hsymbol : symbol ∈ session.symbols) (hplaced : placed ∈ symbol.instructions)
    (hlabel : symbol.labels.get? name = some target) :
    placed.offset < n ∧ target < n := by
  have hlt := h.forall_size (P := (· < n)) hsize symbol hsymbol
  have hwell := h.allWellPlaced symbol hsymbol
  exact ⟨Nat.lt_of_le_of_lt (hwell.offset_le hplaced) hlt,
    Nat.lt_of_le_of_lt ((h.labelsPlaced symbol hsymbol).le_size hwell hlabel) hlt⟩

/-- **Jumps land on their labels**: in the code of a program, every operand that names a label of
its symbol leads there from its instruction, and every label is where an instruction starts or where
the code ends. -/
theorem operands_reach_labels (h : Passes items deferred declared session container)
    (hsize : ∀ entry ∈ container.symbols, entry.body.length < 2 ^ 63) :
    List.Forall₂ (fun symbol entry => ∃ lines,
        Linking.Listed session.instructionSet container.type.width
          (fun placed contract argument raw => ∀ name target, argument.value = .named name →
            symbol.labels.get? name = some target →
              Reaches container.type.width placed.offset target contract raw)
          symbol entry lines ∧
        ∀ name target, symbol.labels.get? name = some target →
          target = entry.body.length ∨ ∃ line ∈ lines, line.offset = target)
      session.symbols.toList container.symbols := by
  obtain ⟨indices, hlinked⟩ := h.exists_linked
  rw [hlinked.type]
  refine (hlinked.listed (P := fun symbol placed contract argument raw => ∀ name target,
    argument.value = .named name → symbol.labels.get? name = some target →
      Reaches session.type.width placed.offset target contract raw)
    h.coherent h.allWellPlaced ?_).imp ?_
  · intro symbol hsymbol placed hplaced argument _ contract e hwrites name target hname hlabel
    obtain ⟨hoffset, htarget⟩ := h.offsets_lt hsize hsymbol hplaced hlabel
    exact reaches_of_normalize hoffset htarget (normalize_of_writesAs hwrites hname hlabel)
  · rintro symbol entry ⟨hsymbol, lines, hlisted⟩
    refine ⟨lines, hlisted, fun name target hlabel => ?_⟩
    rcases h.labelsPlaced symbol hsymbol name target hlabel with rfl | ⟨placed, hplaced, rfl⟩
    · exact .inl hlisted.size.symm
    · have hmem := List.mem_map_of_mem (f := PlacedInstruction.offset)
        (Array.mem_toList_iff.mpr hplaced)
      rw [← hlisted.map_offset] at hmem
      exact .inr (List.mem_map.mp hmem)

/-- A symbol with labels at its start and its end, and operands under every contract that takes
one. -/
def sampleJumpsCode : List (Located Item) :=
  List.map .nowhere
    [.directive "symbol", .word "main", .lineEnd,
      .word "top", .separator ':', .word "jfw", .word "end", .lineEnd,
      .word "pushb", .word "end", .lineEnd,
      .word "jbw", .word "top", .lineEnd,
      .word "jmp", .word "top", .lineEnd,
      .word "push", .word "end", .lineEnd,
      .word "dbg", .word "top", .lineEnd,
      .word "end", .separator ':', .lineEnd]

/-- The program of the symbol. -/
def sampleJumps : List (Located Item) :=
  List.map .nowhere [.directive "cwl", .separator ':', .number 16, .lineEnd] ++ sampleJumpsCode

/-- What its header says. -/
def sampleJumpsDeclared : Session := { type := ⟨.library, .w16⟩ }

/-- What is known once it is laid out. -/
def sampleJumpsSession : Session := (Layout.layOut sampleJumpsDeclared sampleJumpsCode).1

/-- Its container. -/
def sampleJumpsContainer : Container where
  type := ⟨.library, .w16⟩
  metadata := {}
  slots := []
  constants := []
  symbols :=
    [⟨some "main", 0,
      [0x13, 15, 0x21, 13, 0x14, 4, 0x10, 0xFA, 0xFF, 0x20, 6, 0, 0x7F, 0xF4, 0xFF]⟩]

theorem operands_reach_labels_sample :
    Passes sampleJumps sampleJumpsCode sampleJumpsDeclared sampleJumpsSession
        sampleJumpsContainer ∧
      List.Forall₂ (fun symbol entry => ∃ lines,
          Linking.Listed sampleJumpsSession.instructionSet .w16
            (fun placed contract argument raw => ∀ name target, argument.value = .named name →
              symbol.labels.get? name = some target →
                Reaches .w16 placed.offset target contract raw)
            symbol entry lines ∧
          ∀ name target, symbol.labels.get? name = some target →
            target = entry.body.length ∨ ∃ line ∈ lines, line.offset = target)
        sampleJumpsSession.symbols.toList sampleJumpsContainer.symbols := by
  have hpasses : Passes sampleJumps sampleJumpsCode sampleJumpsDeclared sampleJumpsSession
      sampleJumpsContainer :=
    ⟨by decide +kernel, rfl, by decide +kernel, by decide +kernel⟩
  exact ⟨hpasses, operands_reach_labels hpasses (by decide)⟩

/-! ### Signed distances -/

/-- The operand, as a signed number of the width, is the distance from `offset` to `target` exactly
if that is less than half the range. Only at the largest width can it be too far back; too far
ahead, it reads as a distance back. -/
structure ReadsSigned (w : Width) (offset target : Nat) (raw : UInt64) : Prop where
  exact_iff : w.signed raw = (target : Int) - offset ↔
    -2 ^ (w.bits - 1) ≤ (target : Int) - offset ∧ (target : Int) - offset < 2 ^ (w.bits - 1)
  notFarBack : w ≠ .w64 → -2 ^ (w.bits - 1) ≤ (target : Int) - offset
  farAhead : 2 ^ (w.bits - 1) ≤ (target : Int) - offset →
    w.signed raw = (target : Int) - offset - 2 ^ w.bits

theorem readsSigned_of_normalize {w : Width} {offset : Nat} (hoffset : offset < 2 ^ w.bits)
    (htarget : target < 2 ^ w.bits)
    (h : Contract.label.normalize w (.distance .label (Int64.ofInt ((target : Int) - offset))) =
      .ok e) : ReadsSigned w offset target (e.raw w) := by
  rcases Contract.normalize_label_eq_ok h with ⟨-, hfits, rfl⟩ | ⟨hcontract, -⟩ | ⟨hcontract, -⟩
  · have hsigned := w.signed_mask_ofInt ((target : Int) - offset)
    refine ⟨?_, ?_, ?_⟩
    · rw [Encoded.raw, hsigned, Int.bmod_eq_iff (Nat.two_pow_pos _)]
      cases w <;> simp only [Width.bits] <;> omega
    · -- below 64 bits the distance is not cut before it is checked
      intro hw
      have hle : 2 ^ w.bits ≤ 2 ^ 32 := by
        cases w with
        | w64 => exact absurd rfl hw
        | _ => decide
      have hdistance : (Int64.ofInt ((target : Int) - offset)).toInt = (target : Int) - offset :=
        Int64.toInt_ofInt_of_le (by omega) (by omega)
      rw [Width.fitsValue_iff, hdistance] at hfits
      cases w <;> simp only [Width.bits] at hfits ⊢ <;> omega
    · intro hfar
      rw [Encoded.raw, hsigned, Int.bmod_eq_iff (Nat.two_pow_pos _)]
      cases w <;> simp only [Width.bits] at hoffset htarget hfar ⊢ <;> omega
  · rcases hcontract with hcontract | hcontract <;> cases hcontract
  · cases hcontract

/-- **Label operands are signed distances**, if the distance is one of the width: in the code of a
program that can be written, an operand under the contract of a label reads as the distance of the
label exactly if that is less than half the range of the width. -/
theorem label_operands_signed {bytes : Bytes}
    (h : Passes items deferred declared session container)
    (hbytes : container.toBytes = .ok bytes) :
    List.Forall₂ (fun symbol entry => ∃ lines,
        Linking.Listed session.instructionSet container.type.width
          (fun placed contract argument raw => contract = .label → ∀ name target,
            argument.value = .named name → symbol.labels.get? name = some target →
              ReadsSigned container.type.width placed.offset target raw)
          symbol entry lines)
      session.symbols.toList container.symbols := by
  obtain ⟨indices, hlinked⟩ := h.exists_linked
  have hsize : ∀ entry ∈ container.symbols, entry.body.length < 2 ^ container.type.width.bits := by
    intro entry hentry
    have haccepted := ((Container.toBytes_eq_ok_iff container bytes).mp hbytes).1
    have hle := ((writable_iff h.withinLimits).mpr haccepted).bodies entry hentry
    have hpos := Nat.two_pow_pos container.type.width.bits
    omega
  rw [hlinked.type] at hsize ⊢
  refine (hlinked.listed (P := fun symbol placed contract argument raw => contract = .label →
    ∀ name target, argument.value = .named name → symbol.labels.get? name = some target →
      ReadsSigned session.type.width placed.offset target raw)
    h.coherent h.allWellPlaced ?_).imp fun symbol entry hentry => hentry.2
  rintro symbol hsymbol placed hplaced argument _ _ e hwrites rfl name target hname hlabel
  obtain ⟨hoffset, htarget⟩ := h.offsets_lt hsize hsymbol hplaced hlabel
  exact readsSigned_of_normalize hoffset htarget (normalize_of_writesAs hwrites hname hlabel)

theorem label_operands_signed_longJump :
    ∃ container bytes,
      Passes (longJump 32765) (longJumpCode 32765) longJumpDeclared
          (longJumpSession (longJumpSymbol 32765)) container ∧
        container.toBytes = .ok bytes ∧
        List.Forall₂ (fun symbol entry => ∃ lines,
            Linking.Listed .native container.type.width
              (fun placed contract argument raw => contract = .label → ∀ name target,
                argument.value = .named name → symbol.labels.get? name = some target →
                  ReadsSigned container.type.width placed.offset target raw)
              symbol entry lines)
          [longJumpSymbol 32765] container.symbols := by
  obtain ⟨container, hpasses⟩ := passes_longJump (n := 32765) (by decide)
  obtain ⟨bytes, hbytes⟩ := toBytes_longJump (by decide) hpasses
  exact ⟨container, bytes, hpasses, hbytes, label_operands_signed hpasses hbytes⟩

/-- The entry is the symbol, and all its operands under the contract of a label read as the signed
distances of their labels. -/
def ListsSigned (set : InstructionSet) (w : Width) (symbol : Symbol) (entry : SymbolEntry) : Prop :=
  ∃ lines, Linking.Listed set w
    (fun placed contract argument raw => contract = .label → ∀ name target,
      argument.value = .named name → symbol.labels.get? name = some target →
        w.signed raw = (target : Int) - placed.offset)
    symbol entry lines

theorem exists_signed_longJump {n : Nat} {set : InstructionSet} {w : Width} {entry : SymbolEntry}
    (h : ListsSigned set w (longJumpSymbol n) entry) : ∃ raw, w.signed raw = (n : Int) + 3 := by
  obtain ⟨lines, hlisted⟩ := h
  obtain ⟨rest, hinstructions, -⟩ := longJumpSymbol_instructions n
  have hlines := hlisted.lines
  rw [hinstructions] at hlines
  obtain ⟨line, _, hline, -, -⟩ := List.forall₂_cons_left_iff.mp hlines
  obtain ⟨raw, _, hraw, -, -⟩ := List.forall₂_cons_left_iff.mp hline.arguments
  refine ⟨raw, ?_⟩
  rw [hraw rfl "end" (n + 3) rfl (longJumpSymbol_label n)]
  show ((n + 3 : Nat) : Int) - (0 : Nat) = n + 3
  omega

/-- A label half the range ahead is not refused, but its distance is no signed number of the
width. -/
theorem longJump_not_signed :
    ∃ container bytes,
      Passes (longJump 32765) (longJumpCode 32765) longJumpDeclared
          (longJumpSession (longJumpSymbol 32765)) container ∧
        container.toBytes = .ok bytes ∧
        ¬List.Forall₂ (ListsSigned .native .w16) [longJumpSymbol 32765] container.symbols := by
  obtain ⟨container, hpasses⟩ := passes_longJump (n := 32765) (by decide)
  obtain ⟨bytes, hbytes⟩ := toBytes_longJump (by decide) hpasses
  refine ⟨container, bytes, hpasses, hbytes, fun hall => ?_⟩
  obtain ⟨entry, _, hentry, -, -⟩ := List.forall₂_cons_left_iff.mp hall
  obtain ⟨raw, hraw⟩ := exists_signed_longJump hentry
  have hlt := Width.w16.signed_lt raw
  rw [hraw] at hlt
  exact absurd hlt (by decide)

end StackAsm.Assembly
