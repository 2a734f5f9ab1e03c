import StackAsm.Declaration
import StackAsm.Proofs.Effects
import StackAsm.Proofs.InstructionSet

/-!
# How declarations are carried out

Every line after the header makes at most two kinds of changes to the session: it carries out a
declaration that was read from it, or it moves a text into the pool of constants. A program is read
by a sequence of such changes from the session of its header.

What follows from that: no two instructions of the session share an opcode, and no symbol is opened
before the layout.
-/

namespace StackAsm.Declaration

/-! ### Changes -/

/-- One change of a session by a line of a program. -/
inductive Change (session : Session) : Session → Prop where
  /-- The declaration of a line is carried out. -/
  | declared {session' : Session} (keyword : Keyword) (head : Located Item)
      (rest : List (Located Item)) (declaration : Declaration) (args : Arguments)
      (read : (keyword.read session head.loc).run (Arguments.ofLine head rest) =
        .ok (declaration, args))
      (applied : declaration.apply session = .ok session') : Change session session'
  /-- A text is moved into the pool. -/
  | stored (content : String) (index : UInt8) (pool : Pool)
      (registered : session.pool.register (utf8 content) = .ok (index, pool)) :
      Change session { session with pool }

/-- From the state, the step only makes changes of these kinds. -/
abbrev ChangesFrom {α : Type} (s : State) (x : Declare α) : Prop :=
  MovesFrom State.session Change s x

/-! ### Lines -/

/-- A line is read, carried out, and refused if anything of it is left over. -/
theorem declareLine_eq (keyword : Keyword) (head : Located Item) (rest : List (Located Item))
    (s : State) :
    declareLine keyword head rest s =
      let begun := { s with events := s.events ++ [.declaration keyword.logName].toArray }
      match (keyword.read s.session head.loc).run (Arguments.ofLine head rest) with
      | .error e => .error e begun
      | .ok (declaration, args) =>
        match declaration.apply s.session with
        | .error e => .error (head.withValue e) begun
        | .ok after =>
          let ended :=
            { begun with session := after
                         events := begun.events ++ (declaration.events s.session after).toArray }
          match args.expectEnd with
          | .error e => .error e ended
          | .ok () => .ok () ended := by
  unfold declareLine
  have hget (t : State) : (get : Declare State) t = .ok t t := rfl
  have hreport (events : List Event) (t : State) :
    report events t = .ok () { t with events := t.events ++ events.toArray } := rfl
  rw [estate_bind_of_ok (hreport _ s), estate_bind_of_ok (hget _)]
  cases (keyword.read s.session head.loc).run (Arguments.ofLine head rest) with
  | error e => rfl
  | ok p =>
    obtain ⟨declaration, args⟩ := p
    have hok (t : State) : orFail (.ok (declaration, args)) t = .ok (declaration, args) t := rfl
    rw [estate_bind_of_ok (hok _)]
    dsimp only
    cases declaration.apply s.session with
    | error e => rfl
    | ok after =>
      cases args.expectEnd with
      | error e => rfl
      | ok u => rfl

/-- A program is read by reading its header and then its other lines. -/
theorem readProgram_eq_ok_iff {items deferred : List (Located Item)} {session : Session}
    {events : List Event} :
    readProgram items = (.ok (session, deferred), events) ↔
      ∃ head rest lines type s, Item.lines items = (head :: rest) :: lines ∧
        readHeader head rest = .ok type ∧
        readLines lines { session := { type }, events := #[.header type] } = .ok () s ∧
        session = s.session ∧ deferred = s.deferred.toList ∧ events = s.events.toList ++
          [.declared s.session.pool.size s.session.slots.length s.deferred.size] := by
  constructor
  · intro h
    unfold readProgram at h
    split at h
    · cases h
    · cases h
    · next head rest lines hlines =>
      split at h
      · cases h
      · next type hheader =>
        split at h
        · cases h
        · next s hs =>
          cases h
          exact ⟨head, rest, lines, type, s, hlines, hheader, hs, rfl, rfl, rfl⟩
  · rintro ⟨head, rest, lines, type, s, hlines, hheader, hread, rfl, rfl, rfl⟩
    simp only [readProgram, hlines, hheader, hread]

theorem changesFrom_deferItem (s : State) (item : Located Item) :
    ChangesFrom s (deferItem item) := by
  unfold deferItem
  split
  · next content _ =>
    refine MovesFrom.get_bind ?_
    dsimp only
    cases hregister : s.session.pool.register (utf8 content) with
    | error e => exact MovesFrom.throw _
    | ok p => exact MovesFrom.modify (.stored content p.1 p.2 hregister)
  · exact MovesFrom.modify_hidden rfl

theorem changesFrom_forM (items : List (Located Item)) (s : State) :
    ChangesFrom s (items.forM deferItem) := by
  induction items generalizing s with
  | nil => exact MovesFrom.pure _
  | cons item items ih =>
    show ChangesFrom s (deferItem item >>= fun _ => items.forM deferItem)
    exact (changesFrom_deferItem s item).bind fun _ s' _ => ih s'

theorem changesFrom_deferLine (s : State) (head : Located Item) (rest : List (Located Item)) :
    ChangesFrom s (deferLine head rest) := by
  refine (changesFrom_forM (head :: rest) s).bind fun _ s' _ => ?_
  exact MovesFrom.modify_hidden rfl

theorem changesFrom_declareLine (s : State) (keyword : Keyword) (head : Located Item)
    (rest : List (Located Item)) : ChangesFrom s (declareLine keyword head rest) := by
  show Relation.ReflTransGen Change s.session (stateAfter (declareLine keyword head rest s)).session
  rw [declareLine_eq]
  cases hread : (keyword.read s.session head.loc).run (Arguments.ofLine head rest) with
  | error e => exact .refl
  | ok p =>
    obtain ⟨declaration, args⟩ := p
    dsimp only
    cases happlied : declaration.apply s.session with
    | error e => exact .refl
    | ok after =>
      have hchange : Change s.session after :=
        .declared keyword head rest declaration args hread happlied
      cases args.expectEnd with
      | error e => exact .single hchange
      | ok u => exact .single hchange

theorem changesFrom_readLine (s : State) (head : Located Item) (rest : List (Located Item)) :
    ChangesFrom s (readLine head rest) := by
  unfold readLine
  split
  · next name _ =>
    by_cases hheader : (headerKind? name).isSome
    · rw [if_pos hheader]
      exact MovesFrom.throw _
    · rw [if_neg hheader]
      cases Keyword.ofName? name with
      | none => exact changesFrom_deferLine s head rest
      | some keyword => exact changesFrom_declareLine s keyword head rest
  · exact changesFrom_deferLine s head rest

theorem changesFrom_readLines (lines : List (List (Located Item))) (s : State) :
    ChangesFrom s (readLines lines) := by
  induction lines generalizing s with
  | nil => exact MovesFrom.pure _
  | cons line lines ih =>
    cases line with
    | nil => exact ih s
    | cons head rest => exact (changesFrom_readLine s head rest).bind fun _ s' _ => ih s'

/-- **Reading a program is a sequence of changes** of the session its header starts. -/
theorem changes_readProgram {items deferred : List (Located Item)} {session : Session}
    {events : List Event} (h : readProgram items = (.ok (session, deferred), events)) :
    ∃ type, Relation.ReflTransGen Change { type } session := by
  obtain ⟨_, _, lines, type, s, -, -, hread, rfl, -, -⟩ := readProgram_eq_ok_iff.mp h
  have hlines := changesFrom_readLines lines { session := { type }, events := #[.header type] }
  unfold ChangesFrom MovesFrom at hlines
  rw [hread] at hlines
  exact ⟨type, hlines⟩

/-! ### What changes keep -/

/-- A declaration leaves the instructions alone or adds one. -/
theorem apply_instructionSet {declaration : Declaration} {session session' : Session}
    (h : declaration.apply session = .ok session') :
    session'.instructionSet = session.instructionSet ∨
      ∃ i, session.instructionSet.extend i = .ok session'.instructionSet := by
  cases declaration with
  | constant kind name bytes =>
    simp only [apply] at h
    split at h
    · cases h
    · cases h
      exact Or.inl rfl
  | instruction i =>
    simp only [apply] at h
    split at h
    · cases h
    · next hextend =>
      cases h
      exact Or.inr ⟨i, hextend⟩
  | _ =>
    cases h
    exact Or.inl rfl

/-- A declaration opens no symbol. -/
theorem apply_symbols {declaration : Declaration} {session session' : Session}
    (h : declaration.apply session = .ok session') : session'.symbols = session.symbols := by
  unfold apply at h
  repeat' split at h
  all_goals cases h
  all_goals rfl

theorem Change.coherent {session session' : Session} (h : Change session session')
    (hset : session.instructionSet.Coherent) :
    session'.instructionSet.Coherent := by
  cases h with
  | declared keyword head rest declaration args hread happlied =>
    rcases apply_instructionSet happlied with hsame | ⟨i, hextend⟩
    · rwa [hsame]
    · exact hset.extend hextend
  | stored => exact hset

theorem Change.symbols {session session' : Session} (h : Change session session') :
    session'.symbols = session.symbols := by
  cases h with
  | declared keyword head rest declaration args hread happlied => exact apply_symbols happlied
  | stored => rfl

/-- After the declarations of a program were read, an opcode stands for one instruction. -/
theorem coherent_readProgram {items deferred : List (Located Item)} {session : Session}
    {events : List Event} (h : readProgram items = (.ok (session, deferred), events)) :
    session.instructionSet.Coherent := by
  obtain ⟨type, hchanges⟩ := changes_readProgram h
  exact keeps_of_reflTransGen (P := fun session => session.instructionSet.Coherent)
    hchanges (fun _ _ => Change.coherent) InstructionSet.native_coherent

/-- After the declarations of a program were read, no symbol is open. -/
theorem symbols_readProgram {items deferred : List (Located Item)} {session : Session}
    {events : List Event} (h : readProgram items = (.ok (session, deferred), events)) :
    session.symbols = #[] := by
  obtain ⟨type, hchanges⟩ := changes_readProgram h
  exact keeps_of_reflTransGen (P := fun session => session.symbols = #[]) hchanges
    (fun _ _ hchange hempty => hchange.symbols.trans hempty) rfl

end StackAsm.Declaration
