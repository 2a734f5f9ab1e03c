import StackAsm.Proofs.Linking.Allocation

/-!
# Why a program cannot be linked

Linking fails for three reasons: no index is left for a symbol, a named operand refers to nothing,
or an operand is refused by its contract. In the last two cases the error stands at the operand and
tells its position among the operands of its instruction.
-/

namespace StackAsm.Linking

variable {session : Session} {indices : List UInt8} {symbol : Symbol} {placed : PlacedInstruction}
  {position : Nat} {contract : Contract} {argument : Located Binding}

/-- The error of an operand that cannot be written under its contract. -/
inductive Refuses (session : Session) (indices : List UInt8) (symbol : Symbol)
    (placed : PlacedInstruction) (position : Nat) (contract : Contract)
    (argument : Located Binding) : Located Error → Prop where
  /-- The name refers to nothing. -/
  | unresolved (name : String) (named : argument.value = .named name)
      (unknown : lookup? session.references indices symbol placed.offset name = none) :
      Refuses session indices symbol placed position contract argument
        ⟨argument.loc, .unresolvedReference name⟩
  /-- The contract does not take the operand. -/
  | refused (operand : Operand) (e : OperandError)
      (resolved : resolve session.references indices symbol placed.offset argument = .ok operand)
      (refused : contract.normalize session.type.width operand = .error e) :
      Refuses session indices symbol placed position contract argument
        ⟨argument.loc, .badArgument placed.instruction.name position e⟩

theorem Refuses.loc_eq {e : Located Error}
    (h : Refuses session indices symbol placed position contract argument e) :
    e.loc = argument.loc := by
  cases h <;> rfl

/-- The error of a session that cannot be linked. -/
inductive Fails (session : Session) : Located Error → Prop where
  /-- No index is left for a symbol. -/
  | noIndex (e : Located Error)
      (runsOut : RunsOut (freeIndices session.symbols.toList) session.symbols.toList e) :
      Fails session e
  /-- An operand cannot be written. -/
  | operand (indices : List UInt8) (symbol : Symbol) (placed : PlacedInstruction) (k : Nat)
      (contract : Contract) (argument : Located Binding) (e : Located Error)
      (assigned : Linking.indices session.symbols.toList = .ok indices)
      (symbol_mem : symbol ∈ session.symbols) (placed_mem : placed ∈ symbol.instructions)
      (contract_eq : placed.instruction.contracts[k]? = some contract)
      (argument_eq : placed.arguments[k]? = some argument)
      (refuses : Refuses session indices symbol placed (k + 1) contract argument e) :
      Fails session e

theorem outcome_resolve (session : Session) (indices : List UInt8) (symbol : Symbol)
    (placed : PlacedInstruction) (position : Nat) (contract : Contract)
    (argument : Located Binding) :
    Lands (fun _ => True) (Refuses session indices symbol placed position contract argument)
      (resolve session.references indices symbol placed.offset argument) := by
  unfold resolve
  split
  · trivial
  · next name hname =>
    split
    · trivial
    · next hunknown => exact .unresolved name hname hunknown

theorem outcome_argumentBytes (session : Session) (indices : List UInt8) (symbol : Symbol)
    (placed : PlacedInstruction) (position : Nat) (contracts : List Contract)
    (arguments : List (Located Binding)) :
    Lands (fun _ => True)
      (fun e => ∃ (k : Nat) (contract : Contract) (argument : Located Binding),
        contracts[k]? = some contract ∧ arguments[k]? = some argument ∧
          Refuses session indices symbol placed (k + position) contract argument e)
      (argumentBytes session indices symbol placed position contracts arguments) := by
  induction contracts generalizing position arguments with
  | nil => trivial
  | cons contract contracts ih =>
    cases arguments with
    | nil => trivial
    | cons argument arguments =>
      -- the first operand fails, or the error is that of one behind it
      have hfirst : ∀ e, Refuses session indices symbol placed position contract argument e →
          ∃ (k : Nat) (contract' : Contract) (argument' : Located Binding),
            (contract :: contracts)[k]? = some contract' ∧
              (argument :: arguments)[k]? = some argument' ∧
              Refuses session indices symbol placed (k + position) contract' argument' e := by
        intro e he
        exact ⟨0, contract, argument, rfl, rfl, by rwa [Nat.zero_add]⟩
      rw [argumentBytes]
      refine (((outcome_resolve session indices symbol placed position contract
        argument).imp_error hfirst).and_eq_ok).bind ?_
      rintro operand ⟨-, hoperand⟩
      split
      · next e hrefused => exact hfirst _ (.refused operand e hoperand hrefused)
      · refine ((ih (position + 1) arguments).imp_error ?_).bind fun _ _ => trivial
        rintro e ⟨k, contract', argument', hcontract, hargument, he⟩
        refine ⟨k + 1, contract', argument', hcontract, hargument, ?_⟩
        rwa [Nat.add_right_comm]

theorem outcome_body (hassigned : Linking.indices session.symbols.toList = .ok indices)
    (hsymbol : symbol ∈ session.symbols) :
    Lands (fun _ => True) (Fails session) (body session indices symbol) := by
  have hinstructions : ∀ placed ∈ symbol.instructions.toList,
      Lands (fun _ => True) (Fails session) (instructionBytes session indices symbol placed) := by
    intro placed hplaced
    refine ((outcome_argumentBytes session indices symbol placed 1 _ _).imp_error ?_).bind
      fun _ _ => trivial
    rintro e ⟨k, contract, argument, hcontract, hargument, he⟩
    exact .operand indices symbol placed k contract argument e hassigned hsymbol
      (Array.mem_toList_iff.mp hplaced) hcontract hargument he
  exact (Lands.mapM hinstructions).map fun _ _ => trivial

theorem outcome_linkSymbols (hassigned : Linking.indices session.symbols.toList = .ok indices)
    {symbols : List (Symbol × UInt8)} (h : ∀ p ∈ symbols, p.1 ∈ session.symbols) :
    Lands (fun _ => True) (Fails session) (linkSymbols session indices symbols).1 := by
  induction symbols with
  | nil => trivial
  | cons p symbols ih =>
    obtain ⟨hsymbol, hsymbols⟩ := List.forall_mem_cons.mp h
    have hbody := outcome_body hassigned hsymbol
    rw [linkSymbols]
    split
    · next e herror =>
      rw [herror] at hbody
      exact hbody
    · exact (ih hsymbols).map fun _ _ => trivial

/-- A session is linked, or it fails for one of the reasons above. -/
theorem outcome_link (session : Session) :
    Lands (fun _ => True) (Fails session) (link session).1 := by
  have hindices := outcome_assignIndices (freeIndices session.symbols.toList) session.symbols.toList
  unfold link
  dsimp only
  split
  · next e herror =>
    rw [← Linking.indices, herror] at hindices
    exact .noIndex e hindices
  · next indices hassigned =>
    refine (outcome_linkSymbols hassigned fun p hp => ?_).map fun _ _ => trivial
    exact Array.mem_toList_iff.mp (List.of_mem_zip hp).1

end StackAsm.Linking
