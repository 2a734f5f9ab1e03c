import StackAsm.Proofs.Declaration.Tables
import StackAsm.Proofs.Linking.Failure

/-!
# What a layout leaves behind

However far a layout comes, its symbols have different names, the indices they ask for differ and
are in range, and just their names refer to them. In every symbol the instructions have their
operands and stand one behind the other, labels stand between them, and the operands that are known
have been checked. So linking can refuse an operand only if it is a name.
-/

namespace StackAsm.Layout

variable {w : Width} {symbol : Symbol} {session : Session}

/-! ### Offsets -/

/-- The instructions end behind as many bytes as they have. -/
theorem Consecutive.stop_eq {start stop : Nat} {instructions : List PlacedInstruction}
    (h : Consecutive w start instructions stop) :
    stop = start + (instructions.map (·.instruction.size w)).sum := by
  induction instructions generalizing start with
  | nil => exact h.symm
  | cons first rest ih =>
    rw [ih h.2, List.map_cons, List.sum_cons, Nat.add_assoc]

/-- An instruction starts behind the bytes of those before it. -/
theorem Consecutive.offset_eq {start stop k : Nat} {instructions : List PlacedInstruction}
    {placed : PlacedInstruction} (h : Consecutive w start instructions stop)
    (hplaced : instructions[k]? = some placed) :
    placed.offset = start + ((instructions.take k).map (·.instruction.size w)).sum := by
  induction instructions generalizing start k with
  | nil => cases hplaced
  | cons first rest ih =>
    cases k with
    | zero =>
      cases hplaced
      exact h.1
    | succ k =>
      rw [ih h.2 hplaced, List.take_succ_cons, List.map_cons, List.sum_cons, Nat.add_assoc]

/-! ### Operands -/

/-- The operands that are known can be written under their contracts. -/
def Checked (w : Width) (contracts : List Contract) (arguments : List (Located Binding)) : Prop :=
  ∀ (k : Nat) (contract : Contract) (argument : Located Binding) (operand : Operand),
    contracts[k]? = some contract → arguments[k]? = some argument →
      argument.value = .known operand → ∃ e, contract.normalize w operand = .ok e

theorem checkOperands_cons_eq_ok {mnemonic : String} {position : Nat} {contract : Contract}
    {contracts : List Contract} {argument : Located Binding} {arguments : List (Located Binding)}
    (h : checkOperands w mnemonic position (contract :: contracts) (argument :: arguments) =
      .ok ()) :
    (∀ operand, argument.value = .known operand → ∃ e, contract.normalize w operand = .ok e) ∧
      checkOperands w mnemonic (position + 1) contracts arguments = .ok () := by
  rw [checkOperands] at h
  split at h
  · next operand hknown =>
    split at h
    · cases h
    · next haccepted =>
      refine ⟨fun other hother => ?_, h⟩
      rw [hknown] at hother
      cases hother
      cases hnormalize : contract.normalize w operand with
      | ok e => exact ⟨e, rfl⟩
      | error e => exact absurd hnormalize (haccepted e)
  · next hnamed => exact ⟨fun operand hknown => absurd hknown (hnamed operand), h⟩

theorem checked_of_checkOperands {mnemonic : String} {position : Nat} {contracts : List Contract}
    {arguments : List (Located Binding)}
    (h : checkOperands w mnemonic position contracts arguments = .ok ()) :
    Checked w contracts arguments := by
  induction contracts generalizing position arguments with
  | nil => simp [Checked]
  | cons contract contracts ih =>
    cases arguments with
    | nil => simp [Checked]
    | cons argument arguments =>
      obtain ⟨hfirst, hrest⟩ := checkOperands_cons_eq_ok h
      rintro (_ | k) other argument' operand hother hargument hknown
      · cases hother
        cases hargument
        exact hfirst operand hknown
      · exact ih hrest k other argument' operand hother hargument hknown

theorem kept_checked (set : InstructionSet) (w : Width) (items : List (Located Item)) :
    Kept set w items fun symbol => ∀ placed ∈ symbol.instructions,
      Checked w placed.instruction.contracts placed.arguments where
  opened := by simp
  labelled := fun _ _ _ h => h
  placed := by
    intro symbol mnemonic i arguments loc _ _ _ hchecked h placed hplaced
    rcases Array.mem_push.mp hplaced with hold | rfl
    · exact h placed hold
    · exact checked_of_checkOperands hchecked

/-! ### Names -/

/-- Two symbols of one name would have one position. -/
theorem Numbered.nodup_names {references : Table Reference} {heads : List (String × Option UInt8)}
    (h : Numbered references heads) : (heads.map Prod.fst).Nodup := by
  rw [List.nodup_iff_getElem?_ne_getElem?]
  intro i j hlt hj heq
  rw [List.length_map] at hj
  have hi : i < heads.length := Nat.lt_trans hlt hj
  rw [List.getElem?_map, List.getElem?_map, List.getElem?_eq_getElem hi,
    List.getElem?_eq_getElem hj] at heq
  have hname : heads[i].1 = heads[j].1 := Option.some.inj heq
  have hfirst : references.get? heads[i].1 = some (.symbol i) :=
    h.referred i _ _ (List.getElem?_eq_getElem hi)
  have hsecond : references.get? heads[j].1 = some (.symbol j) :=
    h.referred j _ _ (List.getElem?_eq_getElem hj)
  rw [hname, hsecond] at hfirst
  cases hfirst
  exact Nat.lt_irrefl i hlt

/-! ### Sessions -/

/-- What a layout leaves of a symbol. -/
structure SymbolLaidOut (w : Width) (symbol : Symbol) : Prop where
  /-- Every contract has its operand. -/
  complete : ∀ placed ∈ symbol.instructions,
    placed.arguments.length = placed.instruction.contracts.length
  /-- An instruction starts behind those before it. -/
  offset : ∀ (k : Nat) (placed : PlacedInstruction), symbol.instructions[k]? = some placed →
    placed.offset = ((symbol.instructions.toList.take k).map (·.instruction.size w)).sum
  /-- The symbol ends behind its instructions. -/
  size : symbol.size = (symbol.instructions.toList.map (·.instruction.size w)).sum
  /-- A label stands before an instruction or at the end. -/
  labels : ∀ name target, symbol.labels.get? name = some target →
    target = symbol.size ∨ ∃ placed ∈ symbol.instructions, placed.offset = target
  /-- The operands that are known can be written. -/
  checked : ∀ placed ∈ symbol.instructions,
    Checked w placed.instruction.contracts placed.arguments

/-- The refusal of an operand that is a name: the name refers to something that the contract of the
operand does not take. -/
def NameRefused (session : Session) (loc : Option Location) (mnemonic : String) (position : Nat)
    (e : OperandError) : Prop :=
  ∃ indices, Linking.indices session.symbols.toList = .ok indices ∧
    ∃ symbol ∈ session.symbols, ∃ placed ∈ symbol.instructions,
      ∃ (k : Nat) (contract : Contract) (name : String) (operand : Operand),
        placed.instruction.contracts[k]? = some contract ∧
        placed.arguments[k]? = some ⟨loc, .named name⟩ ∧
        Linking.lookup? session.references indices symbol placed.offset name = some operand ∧
        contract.normalize session.type.width operand = .error e ∧
        mnemonic = placed.instruction.name ∧ position = k + 1

/-- What a layout leaves of a session. -/
structure LaidOut (session : Session) : Prop where
  /-- The names of the symbols differ. -/
  names : (session.symbols.toList.map (·.name)).Nodup
  /-- The indices asked for differ. -/
  distinct : (session.symbols.toList.filterMap (·.fixed)).Nodup
  /-- The indices asked for are in range. -/
  inRange : ∀ symbol ∈ session.symbols, ∀ index ∈ symbol.fixed, index.toNat ≤ 254
  /-- Just the name of a symbol refers to its position. -/
  referred : ∀ (name : String) (position : Nat),
    session.references.get? name = some (.symbol position) ↔
      ∃ symbol, session.symbols[position]? = some symbol ∧ symbol.name = name
  symbols : ∀ symbol ∈ session.symbols, SymbolLaidOut session.type.width symbol
  /-- Linking refuses only operands that are names. -/
  refusals : ∀ loc mnemonic position e,
    (Linking.link session).1 = .error ⟨loc, .badArgument mnemonic position e⟩ →
      NameRefused session loc mnemonic position e

theorem WellPlaced.symbolLaidOut {set : InstructionSet} (h : WellPlaced set w symbol)
    (hlabels : LabelsPlaced symbol)
    (hchecked : ∀ placed ∈ symbol.instructions,
      Checked w placed.instruction.contracts placed.arguments) : SymbolLaidOut w symbol where
  complete := h.complete
  offset k placed hplaced := by
    rw [← Array.getElem?_toList] at hplaced
    rw [h.consecutive.offset_eq hplaced, Nat.zero_add]
  size := by rw [h.consecutive.stop_eq, Nat.zero_add]
  labels := hlabels
  checked := hchecked

theorem nameRefused_of_link {loc : Option Location} {mnemonic : String} {position : Nat}
    {e : OperandError}
    (hchecked : ∀ symbol ∈ session.symbols, ∀ placed ∈ symbol.instructions,
      Checked session.type.width placed.instruction.contracts placed.arguments)
    (h : (Linking.link session).1 = .error ⟨loc, .badArgument mnemonic position e⟩) :
    NameRefused session loc mnemonic position e := by
  have hfails := Linking.outcome_link session
  rw [h] at hfails
  cases hfails with
  | noIndex _ hrunsOut =>
    obtain ⟨_, _, _, -, -, -, heq⟩ := hrunsOut
    cases heq
  | operand indices symbol placed k contract argument _ hassigned hsymbol hplaced hcontract
      hargument hrefuses =>
    cases hrefuses with
    | refused operand _ hresolved hrefused =>
      obtain ⟨loc, binding⟩ := argument
      cases binding with
      | known known =>
        cases hresolved
        obtain ⟨encoded, hencoded⟩ :=
          hchecked symbol hsymbol placed hplaced k contract _ operand hcontract hargument rfl
        rw [hencoded] at hrefused
        cases hrefused
      | named name =>
        refine ⟨indices, hassigned, symbol, hsymbol, placed, hplaced, k, contract, name, operand,
          hcontract, hargument, ?_, hrefused, rfl, rfl⟩
        simp only [Linking.resolve] at hresolved
        split at hresolved
        · next hlookup =>
          cases hresolved
          exact hlookup
        · cases hresolved

theorem laidOut_of_numbered (h : Numbered session.references (heads session))
    (hplaced : AllWellPlaced session) (hlabels : ∀ symbol ∈ session.symbols, LabelsPlaced symbol)
    (hchecked : ∀ symbol ∈ session.symbols, ∀ placed ∈ symbol.instructions,
      Checked session.type.width placed.instruction.contracts placed.arguments) :
    LaidOut session where
  names := by
    have hnames := h.nodup_names
    rwa [heads, List.map_map] at hnames
  distinct := by
    have hdistinct := h.distinct
    rwa [heads, List.filterMap_map] at hdistinct
  inRange symbol hsymbol :=
    h.inRange _ (List.mem_map_of_mem (Array.mem_toList_iff.mpr hsymbol))
  referred name position := by
    have hhead : (∃ fixed, (heads session)[position]? = some (name, fixed)) ↔
        ∃ symbol, session.symbols[position]? = some symbol ∧ symbol.name = name := by
      simp [heads]
    rw [← hhead]
    refine ⟨h.named position name, ?_⟩
    rintro ⟨fixed, hfixed⟩
    exact h.referred position name fixed hfixed
  symbols symbol hsymbol :=
    (hplaced symbol hsymbol).symbolLaidOut (hlabels symbol hsymbol) (hchecked symbol hsymbol)
  refusals _ _ _ _ := nameRefused_of_link hchecked

/-- **What a layout leaves behind.** Whatever a program declares and whatever items are laid out
then, and whether or not the layout comes to its end: the symbols have different names and ask for
different indices of at most 254, just their names refer to them, in every symbol instructions,
labels and known operands are in order, and linking refuses no other operands than names. -/
theorem laidOut_layOut {items deferred : List (Located Item)} {declared : Session}
    (hread : (Declaration.readProgram items).1 = .ok (declared, deferred))
    (code : List (Located Item)) : LaidOut (layOut declared code).1 := by
  have hread' : Declaration.readProgram items =
      (.ok (declared, deferred), (Declaration.readProgram items).2) := by rw [← hread]
  have hsymbols := Declaration.symbols_readProgram hread'
  have hnumbered := numbered_layOut code hsymbols (Declaration.tables_readProgram hread').noSymbol
  refine laidOut_of_numbered hnumbered (allWellPlaced_layOut hsymbols code)
    (forall_symbols_layOut hsymbols (kept_labelsPlaced _ _ code)) ?_
  rw [(declarations_layOut declared code).1]
  exact forall_symbols_layOut hsymbols (kept_checked _ _ code)

/-- A symbol with a jump that leads the wrong way, and a label before an operand that is refused. -/
def stoppedCode : List (Located Item) :=
  List.map .nowhere
    [.directive "symbol", .word "main", .separator ',', .number 254, .lineEnd,
      .word "top", .separator ':', .word "push", .number (-1), .lineEnd,
      .word "jbw", .word "end", .lineEnd,
      .word "end", .separator ':', .word "pushb", .number 256, .lineEnd]

theorem laidOut_layOut_stoppedCode :
    (Declaration.readProgram Linking.sampleProgram).1 =
        .ok (Linking.sampleDeclared, Linking.sampleCode) ∧
      (layOut Linking.sampleDeclared stoppedCode).2.1 =
        some (.nowhere (.badArgument "pushb" 1 (.outOfRange .byte 256))) ∧
      LaidOut (layOut Linking.sampleDeclared stoppedCode).1 ∧
      (Linking.link (layOut Linking.sampleDeclared stoppedCode).1).1 =
        .error (.nowhere (.badArgument "jbw" 1 (.outOfRange .backward 2))) := by
  have hread : (Declaration.readProgram Linking.sampleProgram).1 =
      .ok (Linking.sampleDeclared, Linking.sampleCode) := by
    decide +kernel
  exact ⟨hread, by decide +kernel, laidOut_layOut hread stoppedCode, by decide +kernel⟩

end StackAsm.Layout
