import StackAsm.Proofs.Declaration.Reading
import StackAsm.Proofs.Item

/-!
# The order of declarations and code

A line that is put aside changes the pool and the lines put aside, and looks at nothing but the
pool. A line that declares anything but a constant changes and looks at everything else. So the
state of reading a program falls into two parts, each of these lines stays within one of them, and
two neighbours of which one is of the first kind and one of the second may change places.
-/

namespace StackAsm.Declaration

variable {α β : Type}

/-! ### Two parts of a state -/

/-- The declarations and reports of a state, with the pool and the lines put aside of another. -/
def State.merge (s t : State) : State :=
  { s with session := { s.session with pool := t.session.pool }, deferred := t.deferred }

/-- The outcome of a step with a change made to the state that it leaves behind. -/
def onState (change : State → State) :
    EStateM.Result (Located Error) State α → EStateM.Result (Located Error) State α
  | .ok a s => .ok a (change s)
  | .error e s => .error e (change s)

/-- The step has to do with what is declared only: another pool and other lines put aside make no
difference to it, and are left alone. -/
def ActsOnDeclared (x : Declare α) : Prop :=
  ∀ s t : State, x (s.merge t) = onState (·.merge t) (x s)

/-- The step has to do with the pool and the lines put aside only: other declarations make no
difference to it, and are left alone. -/
def ActsOnAside (y : Declare α) : Prop :=
  ∀ s t : State, y (s.merge t) = onState s.merge (y t)

/-- Steps on different parts of the state may be taken in either order: if they succeed in one,
they do in the other, and with the same result. -/
theorem ActsOnDeclared.comm {x y : Declare Unit} (hx : ActsOnDeclared x) (hy : ActsOnAside y)
    (s u : State) : (x >>= fun _ => y) s = .ok () u ↔ (y >>= fun _ => x) s = .ok () u := by
  have hself : s.merge s = s := rfl
  have hxs := hx s s
  have hys := hy s s
  rw [hself] at hxs hys
  -- what one step leaves behind is, for the other, the state that it starts from by itself
  have hafter : ∀ s', x s = .ok () s' → y s' = onState s'.merge (y s) := by
    intro s' hs'
    rw [hs'] at hxs
    calc y s' = y (s'.merge s) := congrArg y (EStateM.Result.ok.inj hxs).2
      _ = onState s'.merge (y s) := hy s' s
  have hafter' : ∀ t', y s = .ok () t' → x t' = onState (·.merge t') (x s) := by
    intro t' ht'
    rw [ht'] at hys
    calc x t' = x (s.merge t') := congrArg x (EStateM.Result.ok.inj hys).2
      _ = onState (·.merge t') (x s) := hx s t'
  cases hx' : x s with
  | error e s' =>
    cases hy' : y s with
    | error e' t' => simp [Bind.bind, EStateM.bind, hx', hy']
    | ok a t' => simp [Bind.bind, EStateM.bind, hx', hy', hafter' t' hy', onState]
  | ok a s' =>
    cases hy' : y s with
    | error e' t' => simp [Bind.bind, EStateM.bind, hx', hy', hafter s' hx', onState]
    | ok a' t' => simp [Bind.bind, EStateM.bind, hx', hy', hafter s' hx', hafter' t' hy', onState]

/-! ### Lines that are put aside -/

theorem ActsOnAside.bind {x : Declare α} {f : α → Declare β} (hx : ActsOnAside x)
    (hf : ∀ a, ActsOnAside (f a)) : ActsOnAside (x >>= f) := by
  intro s t
  simp only [Bind.bind, EStateM.bind, hx s t]
  cases x t with
  | error e t' => rfl
  | ok a t' => exact hf a s t'

theorem ActsOnAside.get_bind {f : State → Declare β} (h : ∀ s t : State, f (s.merge t) = f t)
    (hf : ∀ t, ActsOnAside (f t)) : ActsOnAside (get >>= f) := by
  intro s t
  show f (s.merge t) (s.merge t) = onState s.merge (f t t)
  rw [h]
  exact hf t s t

theorem ActsOnAside.modify {g : State → State} (h : ∀ s t : State, g (s.merge t) = s.merge (g t)) :
    ActsOnAside (modify g : Declare PUnit) :=
  fun s t => congrArg (EStateM.Result.ok PUnit.unit) (h s t)

theorem actsOnAside_deferItem (item : Located Item) : ActsOnAside (deferItem item) := by
  obtain ⟨loc, value⟩ := item
  cases value with
  | text content =>
    unfold deferItem
    refine ActsOnAside.get_bind (fun _ _ => rfl) fun t => ?_
    dsimp only
    cases t.session.pool.register (utf8 content) with
    | error e => exact fun _ _ => rfl
    | ok p => exact ActsOnAside.modify fun _ _ => rfl
  | _ => exact ActsOnAside.modify fun _ _ => rfl

theorem actsOnAside_forM (items : List (Located Item)) : ActsOnAside (items.forM deferItem) := by
  induction items with
  | nil => exact fun _ _ => rfl
  | cons item items ih => exact (actsOnAside_deferItem item).bind fun _ => ih

theorem actsOnAside_deferLine (head : Located Item) (rest : List (Located Item)) :
    ActsOnAside (deferLine head rest) :=
  (actsOnAside_forM (head :: rest)).bind fun _ => ActsOnAside.modify fun _ _ => rfl

/-! ### Lines that declare something -/

/-- The keywords that declare constants of the pool. -/
def Keyword.fillsPool : Keyword → Bool
  | data | string | values => true
  | _ => false

/-- What is read of a line that declares no constant does not depend on the pool. -/
theorem read_withPool {keyword : Keyword} (h : keyword.fillsPool = false) (session : Session)
    (pool : Pool) (head : Option Location) :
    keyword.read { session with pool } head = keyword.read session head := by
  cases keyword with
  | data | string | values => cases h
  | _ => rfl

theorem read_ne_constant {keyword : Keyword} (h : keyword.fillsPool = false) {session : Session}
    {head : Option Location} {args args' : Arguments} {declaration : Declaration}
    (hread : (keyword.read session head).run args = .ok (declaration, args')) (kind : ConstantKind)
    (name : String) (bytes : Bytes) : declaration ≠ .constant kind name bytes := by
  have hslot (optional : Bool)
      (hread : readSlot session head optional args = .ok (declaration, args')) :
      declaration ≠ .constant kind name bytes := by
    obtain ⟨_, _, _, _, _, _, _, _, _, _, _, rfl⟩ := readSlot_eq_ok hread
    simp
  cases keyword with
  | data | string | values => cases h
  | slot => exact hslot false hread
  | optionalSlot => exact hslot true hread
  | external =>
    obtain ⟨_, _, _, _, _, _, _, _, rfl⟩ := readExternal_eq_ok hread
    simp
  | instruction =>
    obtain ⟨_, _, _, _, _, _, _, rfl⟩ := readInstruction_eq_ok hread
    simp
  | _ =>
    obtain ⟨_, -, rfl⟩ := stateT_map_eq_ok.mp hread
    simp

/-- Another pool stays what it is while something is declared that is no constant. -/
theorem apply_withPool {declaration : Declaration}
    (h : ∀ kind name bytes, declaration ≠ .constant kind name bytes) (session : Session)
    (pool : Pool) :
    declaration.apply { session with pool } =
      (declaration.apply session).map fun after => { after with pool } := by
  cases declaration with
  | constant kind name bytes => exact absurd rfl (h kind name bytes)
  | instruction i =>
    simp only [apply]
    cases session.instructionSet.extend i with
    | error e => rfl
    | ok instructionSet => rfl
  | _ => rfl

theorem actsOnDeclared_declareLine {keyword : Keyword} (h : keyword.fillsPool = false)
    (head : Located Item) (rest : List (Located Item)) :
    ActsOnDeclared (declareLine keyword head rest) := by
  intro s t
  have hread' := read_withPool h s.session t.session.pool head.loc
  rw [declareLine_eq, declareLine_eq]
  simp only [State.merge, hread']
  cases hread : (keyword.read s.session head.loc).run (Arguments.ofLine head rest) with
  | error e => rfl
  | ok p =>
    obtain ⟨declaration, args⟩ := p
    have happly := apply_withPool (read_ne_constant h hread) s.session t.session.pool
    simp only [happly]
    cases declaration.apply s.session with
    | error e => rfl
    | ok after =>
      have hevents : declaration.events { s.session with pool := t.session.pool }
          { after with pool := t.session.pool } = declaration.events s.session after := by
        cases declaration <;> rfl
      simp only [Except.map, hevents]
      cases args.expectEnd with
      | error e => rfl
      | ok u => rfl

/-! ### Exchanging lines -/

/-- The line declares something other than a constant. -/
def declaresNoConstant : List (Located Item) → Bool
  | ⟨_, .directive name⟩ :: _ => (Keyword.ofName? name).any (!·.fillsPool)
  | _ => false

/-- The line neither declares anything nor is a header, and is put aside. -/
def isPutAside : List (Located Item) → Bool
  | [] => false
  | ⟨_, .directive name⟩ :: _ => (headerKind? name).isNone && (Keyword.ofName? name).isNone
  | _ :: _ => true

theorem readLines_singleton (head : Located Item) (rest : List (Located Item)) :
    readLines [head :: rest] = readLine head rest := by
  show (readLine head rest >>= fun _ => Pure.pure ()) = readLine head rest
  exact bind_pure_unit

theorem actsOnDeclared_readLines {line : List (Located Item)} (h : declaresNoConstant line = true) :
    ActsOnDeclared (readLines [line]) := by
  unfold declaresNoConstant at h
  split at h
  · next loc name rest =>
    cases hkeyword : Keyword.ofName? name with
    | none => simp [hkeyword] at h
    | some keyword =>
      have hfills : keyword.fillsPool = false := by simpa [hkeyword] using h
      rw [readLines_singleton, readLine_keyword hkeyword]
      exact actsOnDeclared_declareLine hfills _ _
  · cases h

theorem actsOnAside_readLines {line : List (Located Item)} (h : isPutAside line = true) :
    ActsOnAside (readLines [line]) := by
  cases line with
  | nil => cases h
  | cons head rest =>
    obtain ⟨loc, value⟩ := head
    rw [readLines_singleton]
    cases value with
    | directive name =>
      obtain ⟨hheader, hkeyword⟩ : headerKind? name = none ∧ Keyword.ofName? name = none := by
        simpa [isPutAside] using h
      rw [readLine_directive, hheader, hkeyword]
      exact actsOnAside_deferLine _ _
    | _ => exact actsOnAside_deferLine _ _

theorem readLines_append (front back : List (List (Located Item))) :
    readLines (front ++ back) = readLines front >>= fun _ => readLines back := by
  induction front with
  | nil =>
    show readLines back = (Pure.pure () >>= fun _ => readLines back)
    rw [pure_bind]
  | cons line front ih =>
    cases line with
    | nil => exact ih
    | cons head rest =>
      show (readLine head rest >>= fun _ => readLines (front ++ back)) = _
      rw [ih]
      exact (bind_assoc _ _ _).symm

/-- Neighbouring lines may change places, one of which is put aside while the other declares
something that is no constant. -/
theorem readLines_exchange {line other : List (Located Item)}
    (hline : declaresNoConstant line = true) (hother : isPutAside other = true)
    (front back : List (List (Located Item))) (s t : State) :
    readLines (front ++ line :: other :: back) s = .ok () t ↔
      readLines (front ++ other :: line :: back) s = .ok () t := by
  have hsplit (a b : List (Located Item)) : readLines (front ++ a :: b :: back) =
      readLines front >>= fun _ => (readLines [a] >>= fun _ => readLines [b]) >>= fun _ =>
        readLines back := by
    rw [← readLines_append [a] [b], ← readLines_append ([a] ++ [b]), ← readLines_append]
    rfl
  rw [hsplit, hsplit, estate_bind_eq_ok, estate_bind_eq_ok]
  refine exists_congr fun _ => exists_congr fun s₁ => and_congr_right fun _ => ?_
  rw [estate_bind_eq_ok, estate_bind_eq_ok]
  refine exists_congr fun _ => exists_congr fun s₂ => and_congr_left fun _ => ?_
  exact (actsOnDeclared_readLines hline).comm (actsOnAside_readLines hother) s₁ s₂

/-- **Declarations may stand anywhere among the code.** Two programs differ by the order of two
neighbouring lines behind the header, one that declares something other than a constant and one that
is put aside. Then both are read or none is, and what is known, what is put aside and what is
reported is the same. -/
theorem readProgram_exchange {items items' header line other : List (Located Item)}
    {front back : List (List (Located Item))}
    (hitems : Item.lines items = header :: (front ++ line :: other :: back))
    (hitems' : Item.lines items' = header :: (front ++ other :: line :: back))
    (hline : declaresNoConstant line = true) (hother : isPutAside other = true)
    (session : Session) (deferred : List (Located Item)) (events : List Event) :
    readProgram items = (.ok (session, deferred), events) ↔
      readProgram items' = (.ok (session, deferred), events) := by
  rw [readProgram_eq_ok_iff, readProgram_eq_ok_iff]
  constructor
  · rintro ⟨head, rest, lines, type, s, hlines, hheader, hread, houtcome⟩
    obtain ⟨rfl, rfl⟩ := List.cons.inj (hitems.symm.trans hlines)
    have hread' := (readLines_exchange hline hother front back _ s).mp hread
    exact ⟨head, rest, _, type, s, hitems', hheader, hread', houtcome⟩
  · rintro ⟨head, rest, lines, type, s, hlines, hheader, hread, houtcome⟩
    obtain ⟨rfl, rfl⟩ := List.cons.inj (hitems'.symm.trans hlines)
    have hread' := (readLines_exchange hline hother front back _ s).mpr hread
    exact ⟨head, rest, _, type, s, hitems, hheader, hread', houtcome⟩

/-- The header of an executable of 16 bits. -/
def headerLine : List (Located Item) :=
  List.map .nowhere [.directive "cwx", .separator ':', .number 16]

/-- A line that declares a module. -/
def slotLine : List (Located Item) :=
  List.map .nowhere [.directive "module", .word "CON", .separator ',', .number 3]

/-- A line of code with a text. -/
def printLine : List (Located Item) := List.map .nowhere [.word "print", .text "hi"]

/-- What comes of a program with these lines, wherever the module stands. -/
def slotOutcome : Except (Located Error) (Session × List (Located Item)) × List Event :=
  (.ok ({ type := ⟨.executable, .w16⟩
          slots := [⟨"CON", 3, false⟩]
          pool := ⟨[[104, 105]]⟩
          references := ⟨[("CON", .slot 3)]⟩ },
        List.map .nowhere [.word "print", .constant 0 .string, .lineEnd]),
    [.header ⟨.executable, .w16⟩, .declaration "Module", .slotDeclared "CON" 3, .declared 1 1 3])

theorem readProgram_exchange_slotLine :
    readProgram ([headerLine, slotLine, printLine].flatMap Item.closeLine) = slotOutcome ∧
      readProgram ([headerLine, printLine, slotLine].flatMap Item.closeLine) = slotOutcome := by
  have hread : readProgram ([headerLine, slotLine, printLine].flatMap Item.closeLine) =
      slotOutcome := by
    decide +kernel
  have hlines : Item.lines ([headerLine, slotLine, printLine].flatMap Item.closeLine) =
      headerLine :: ([] ++ slotLine :: printLine :: []) := by
    decide +kernel
  have hlines' : Item.lines ([headerLine, printLine, slotLine].flatMap Item.closeLine) =
      headerLine :: ([] ++ printLine :: slotLine :: []) := by
    decide +kernel
  have hslot : declaresNoConstant slotLine = true := by decide +kernel
  have hprint : isPutAside printLine = true := by decide
  exact ⟨hread, (readProgram_exchange hlines hlines' hslot hprint _ _ _).mp hread⟩

end StackAsm.Declaration
