import StackAsm.Proofs.Expansion.Blocks
import StackAsm.Proofs.Item

/-!
# Expansions side by side

The lines of a source are expanded step by step, and the steps look at very little: at the values
of tokens, at the constants, and at whether a line has just begun. So two expansions of lines that
differ only in where they stand do the same, from states that agree on what is looked at. What it
means to agree is left open here (`Correspondence`); it only has to outlast every change that a step
can make. With a run beside itself the same statement says what a single run keeps.

Files are not loaded here: how the two expansions splice them in is a hypothesis.
-/

namespace StackAsm

/-- Two values that are the same, at places related by `P`. -/
structure Located.Alike (P : Option Location → Option Location → Prop) {α : Type}
    (x y : Located α) : Prop where
  loc : P x.loc y.loc
  value : x.value = y.value

theorem Located.Alike.eq {P : Option Location → Option Location → Prop} {α : Type} {x y : Located α}
    (h : x.Alike P y) (hloc : x.loc = y.loc) : x = y := by
  obtain ⟨loc, value⟩ := x
  obtain ⟨loc', value'⟩ := y
  obtain ⟨rfl, rfl⟩ : loc = loc' ∧ value = value' := ⟨hloc, h.value⟩
  rfl

namespace Expression

/-- Expressions that differ only in where they stand have the same value, or fail in the same way at
related places. -/
theorem evaluateFrom_alike {P : Option Location → Option Location → Prop}
    {opening opening' : Option Location} (hopening : P opening opening')
    {tokens tokens' : List (Located Token)} (h : List.Forall₂ (Located.Alike P) tokens tokens')
    (constants : Table Constant) (s : State) (n : Nat) :
    (∃ v m, evaluateFrom constants opening s n tokens = (.ok v, m) ∧
      evaluateFrom constants opening' s n tokens' = (.ok v, m)) ∨
    ∃ e e' m, evaluateFrom constants opening s n tokens = (.error e, m) ∧
      evaluateFrom constants opening' s n tokens' = (.error e', m) ∧ Located.Alike P e e' := by
  induction h generalizing s n with
  | nil => exact .inr ⟨_, _, _, rfl, rfl, hopening, rfl⟩
  | @cons token token' rest rest' htoken _ ih =>
    rw [evaluateFrom, evaluateFrom, ← htoken.value]
    cases s.step constants token.value with
    | error e => exact .inr ⟨_, _, _, rfl, rfl, htoken.loc, rfl⟩
    | ok s' =>
      dsimp only
      by_cases hclosed : s'.entries = []
      · rw [if_pos hclosed, if_pos hclosed]
        cases s'.result with
        | ok v => exact .inl ⟨v, _, rfl, rfl⟩
        | error e => exact .inr ⟨_, _, _, rfl, rfl, hopening, rfl⟩
      · rw [if_neg hclosed, if_neg hclosed]
        exact ih s' (n + 1)

end Expression

namespace Expansion

/-- The state after the end of a line. -/
def State.endLine (s : State) (loc : Option Location) : State :=
  if s.atLineStart then s else { s with items := s.items.push ⟨loc, .lineEnd⟩ }

theorem emitLineEnd_apply (loc : Option Location) (s : State) :
    emitLineEnd loc s = .ok () (s.endLine loc) := by
  show (if s.atLineStart then pure () else emit loc .lineEnd : Expand Unit) s = _
  unfold State.endLine
  cases s.atLineStart with
  | true => rfl
  | false => rfl

/-! ### Correspondences -/

/-- The failure that a step ended with. -/
def failure? {α : Type} : EStateM.Result (Located Error) State α → Option (Located Error × State)
  | .ok _ _ => none
  | .error e s => some (e, s)

/-- The same report, of places related by `P`, and not that a file is loaded. -/
inductive Reports (P : Option Location → Option Location → Prop) : Event → Event → Prop where
  | folded (value : Constant) : Reports P (.folded value) (.folded value)
  | redefinition (name : String) (old new : Constant) :
      Reports P (.redefinition name old new) (.redefinition name old new)
  | undefinedRemoval (name : String) : Reports P (.undefinedRemoval name) (.undefinedRemoval name)
  | preDirective (name : String) {loc loc' : Option Location} (h : P loc loc') :
      Reports P (.preDirective name loc) (.preDirective name loc')

/-- A relation between the states of two expansions and between the places that they name, and what
is to be said once the first has failed. It outlasts every change but the emission of items. -/
structure Correspondence where
  state : State → State → Prop
  place : Option Location → Option Location → Prop
  /-- The first has failed with an error and a state; the second has gone on or failed, too. -/
  failed : Located Error → State → Option (Located Error × State) → Prop
  constants_eq {s t : State} (h : state s t) : s.constants = t.constants
  revalued {s t : State} (constants : Table Constant) (h : state s t) :
    state { s with constants } { t with constants }
  reported {s t : State} {event event' : Event} (hevent : Reports place event event')
    (h : state s t) :
    state { s with events := s.events.push event } { t with events := t.events.push event' }
  thrown {s t : State} {e e' : Located Error} (h : state s t) (he : Located.Alike place e e') :
    failed e s (some (e', t))
  /-- Where the second may go on, it may go on in any way. -/
  free {e : Located Error} {s : State} (h : failed e s none) :
    ∀ outcome, failed e s outcome

/-- The correspondence outlasts the emission of items, too. -/
structure Correspondence.Emits (c : Correspondence) : Prop where
  emitted {s t : State} {item item' : Located Item} (h : c.state s t)
    (hitem : Located.Alike c.place item item') (hsource : Item.IsSource item)
    (hline : item.value ≠ .lineEnd) :
    c.state { s with items := s.items.push item } { t with items := t.items.push item' }
  ended {s t : State} {loc loc' : Option Location} (h : c.state s t) (hloc : c.place loc loc') :
    c.state (s.endLine loc) (t.endLine loc')

/-- From corresponding states, the second step follows the first to a related result and a
corresponding state. -/
def InStep (c : Correspondence) {α β : Type} (R : α → β → Prop) (x : Expand α) (y : Expand β) :
    Prop :=
  ∀ s t, c.state s t → match x s with
    | .ok a s' => ∃ b t', y t = .ok b t' ∧ R a b ∧ c.state s' t'
    | .error e s' => c.failed e s' (failure? (y t))

variable {c : Correspondence}

namespace InStep

variable {α β γ δ : Type} {R : α → β → Prop} {Q : γ → δ → Prop} {x : Expand α} {y : Expand β}

theorem pure {a : α} {b : β} (h : R a b) : InStep c R (Pure.pure a) (Pure.pure b) :=
  fun _ t hst => ⟨b, t, rfl, h, hst⟩

theorem throw {e e' : Located Error} (h : Located.Alike c.place e e') :
    InStep c R (throw e) (throw e') := fun _ _ hst => c.thrown hst h

theorem throwAt {loc loc' : Option Location} (h : c.place loc loc') {e : Error} :
    InStep c R (MonadExcept.throw ⟨loc, e⟩) (MonadExcept.throw ⟨loc', e⟩) := .throw ⟨h, rfl⟩

theorem bind {f : α → Expand γ} {g : β → Expand δ} (hx : InStep c R x y)
    (hf : ∀ a b, R a b → InStep c Q (f a) (g b)) : InStep c Q (x >>= f) (y >>= g) := by
  intro s t hst
  have hfirst := hx s t hst
  cases hs : x s with
  | ok a s' =>
    rw [hs] at hfirst
    obtain ⟨b, t', ht, hab, hst'⟩ := hfirst
    rw [estate_bind_of_ok hs, estate_bind_of_ok ht]
    exact hf a b hab s' t' hst'
  | error e s' =>
    rw [hs] at hfirst
    simp only [Bind.bind, EStateM.bind, hs]
    -- if the second step went on, nothing is left to say
    cases ht : y t with
    | ok b t' =>
      rw [ht] at hfirst
      exact c.free hfirst _
    | error e' t' =>
      rw [ht] at hfirst
      exact hfirst

/-- If the first step succeeds, so does the second. -/
theorem exists_ok {s s' t : State} {a : α} (h : InStep c R x y) (hst : c.state s t)
    (hx : x s = .ok a s') : ∃ b t', y t = .ok b t' ∧ R a b ∧ c.state s' t' := by
  have hstep := h s t hst
  rwa [hx] at hstep

/-- Where nothing is said of failures, it is enough to look at success. -/
theorem of_ok (hfailed : ∀ e s outcome, c.failed e s outcome)
    (h : ∀ s t, c.state s t → ∀ a s', x s = .ok a s' →
      ∃ b t', y t = .ok b t' ∧ R a b ∧ c.state s' t') : InStep c R x y := by
  intro s t hst
  cases hx : x s with
  | ok a s' => exact h s t hst a s' hx
  | error e s' => exact hfailed e s' _

theorem get_bind {f g : State → Expand γ} {Q : γ → γ → Prop}
    (h : ∀ s t, c.state s t → InStep c Q (f s) (g t)) : InStep c Q (get >>= f) (get >>= g) :=
  fun s t hst => h s t hst s t hst

theorem modify {f g : State → State} (h : ∀ s t, c.state s t → c.state (f s) (g t)) :
    InStep c (fun _ _ => True) (modify f : Expand PUnit) (modify g : Expand PUnit) :=
  fun s t hst => ⟨(), g t, rfl, trivial, h s t hst⟩

end InStep

/-- An expansion beside itself, in states of which `I` holds. -/
def keeping (I : State → Prop) (hrevalued : ∀ s constants, I s → I { s with constants })
    (hreported : ∀ s event, I s → I { s with events := s.events.push event }) :
    Correspondence where
  state s t := s = t ∧ I s
  place := Eq
  failed _ _ _ := True
  constants_eq h := congrArg State.constants h.1
  revalued constants h := by
    obtain ⟨rfl, hs⟩ := h
    exact ⟨rfl, hrevalued _ constants hs⟩
  reported hevent h := by
    obtain ⟨rfl, hs⟩ := h
    refine ⟨?_, hreported _ _ hs⟩
    cases hevent with
    | preDirective name hloc => rw [hloc]
    | _ => rfl
  thrown _ _ := trivial
  free _ _ := trivial

/-- The step keeps `I`, if it succeeds. -/
def Keeps (I : State → Prop) {α : Type} (x : Expand α) : Prop :=
  ∀ s a s', I s → x s = .ok a s' → I s'

section

variable {I : State → Prop} {hrevalued : ∀ s constants, I s → I { s with constants }}
  {hreported : ∀ s event, I s → I { s with events := s.events.push event }} {α : Type}

theorem Keeps.inStep {x : Expand α} (h : Keeps I x) :
    InStep (keeping I hrevalued hreported) (fun _ _ => True) x x := by
  refine .of_ok (fun _ _ _ => trivial) ?_
  rintro s _ ⟨rfl, hs⟩ a s' hx
  exact ⟨a, s', hx, trivial, rfl, h s a s' hs hx⟩

theorem InStep.keeps {R : α → α → Prop} {x : Expand α}
    (h : InStep (keeping I hrevalued hreported) R x x) : Keeps I x := by
  intro s a s' hs hx
  obtain ⟨_, _, -, -, -, hs'⟩ := h.exists_ok ⟨rfl, hs⟩ hx
  exact hs'

end

/-! ### Values -/

section

variable {tokens tokens' : List (Located Token)}

theorem inStep_report {event event' : Event} (h : Reports c.place event event') :
    InStep c (fun _ _ => True) (report event) (report event') :=
  .modify fun _ _ hst => c.reported h hst

theorem inStep_valueOf? (name : String) : InStep c Eq (valueOf? name) (valueOf? name) := by
  refine .get_bind fun s t hst => ?_
  rw [c.constants_eq hst]
  exact .pure rfl

theorem inStep_literal? {token token' : Located Token} (h : token.Alike c.place token') :
    InStep c Eq (literal? token) (literal? token') := by
  obtain ⟨loc, value⟩ := token
  obtain ⟨loc', value'⟩ := token'
  obtain ⟨hloc, rfl⟩ : c.place loc loc' ∧ value = value' := ⟨h.loc, h.value⟩
  unfold literal?
  cases value with
  | number digits =>
    dsimp only
    split
    · exact .pure rfl
    · exact .throwAt hloc
  | hex digits =>
    dsimp only
    split
    · exact .pure rfl
    · exact .throwAt hloc
  | _ => exact .pure rfl

theorem inStep_evaluate {opening opening' : Located Token} (ho : opening.Alike c.place opening')
    (h : List.Forall₂ (Located.Alike c.place) tokens tokens') :
    InStep c Eq (evaluate opening tokens) (evaluate opening' tokens') := by
  refine .get_bind fun s t hst => ?_
  rw [c.constants_eq hst]
  rcases Expression.evaluateFrom_alike ho.loc h t.constants .start 0 with
    ⟨v, m, hv, hv'⟩ | ⟨e, e', m, he, he', hee'⟩
  · simp only [Expression.evaluate, hv, hv']
    exact (inStep_report (.folded v)).bind fun _ _ _ => .pure rfl
  · simp only [Expression.evaluate, he, he']
    exact .throw ⟨hee'.loc, congrArg Error.expression hee'.value⟩

theorem inStep_expectEnd (reason : String)
    (h : List.Forall₂ (Located.Alike c.place) tokens tokens') :
    InStep c (fun _ _ => True) (expectEnd reason tokens) (expectEnd reason tokens') := by
  cases h with
  | nil => exact .pure trivial
  | cons htoken _ =>
    refine .throw ⟨htoken.loc, ?_⟩
    simp only [Located.withValue, htoken.value]

/-- However a value is read, the line has to end after it. -/
theorem inStep_valueEnd {α : Type} (h : List.Forall₂ (Located.Alike c.place) tokens tokens')
    (reason : String) (result : Constant → α) (p q : Constant × Nat) (hpq : p = q) :
    InStep c Eq
      (do
        expectEnd reason (tokens.drop p.2)
        return result p.1)
      (do
        expectEnd reason (tokens'.drop q.2)
        return result q.1) := by
  subst hpq
  exact (inStep_expectEnd reason (List.forall₂_drop p.2 h)).bind fun _ _ _ => .pure rfl

end

/-! ### Directives -/

/-- The same directive, at places that correspond. -/
structure DirectiveLine.Alike (P : Option Location → Option Location → Prop)
    (line line' : DirectiveLine) : Prop where
  loc : P line.loc line'.loc
  name : line.name = line'.name
  arguments : List.Forall₂ (Located.Alike P) line.arguments line'.arguments

section

variable {line line' : DirectiveLine}

theorem inStep_fail {α β : Type} {R : α → β → Prop} (h : line.Alike c.place line') (e : Error) :
    InStep c R (line.fail e) (line'.fail e) := .throwAt h.loc

theorem inStep_announce (h : line.Alike c.place line') :
    InStep c (fun _ _ => True) line.announce line'.announce := by
  unfold DirectiveLine.announce
  rw [← h.name]
  exact inStep_report (.preDirective line.name h.loc)

theorem inStep_argumentName (h : line.Alike c.place line') (directive : String) :
    InStep c Eq (line.argumentName directive) (line'.argumentName directive) := by
  have hfail := inStep_fail (α := String) (R := Eq) h (.missingName directive)
  obtain ⟨loc, name, arguments⟩ := line
  obtain ⟨loc', name', arguments'⟩ := line'
  cases h.arguments with
  | nil => exact hfail
  | @cons first first' rest rest' hfirst _ =>
    obtain ⟨firstLoc, value⟩ := first
    obtain ⟨firstLoc', value'⟩ := first'
    obtain rfl : value = value' := hfirst.value
    cases value with
    | word w => exact .pure rfl
    | _ => exact hfail

theorem inStep_condition (h : line.Alike c.place line') :
    InStep c Eq line.condition line'.condition := by
  have hfail := inStep_fail (α := Bool) (R := Eq) h (.missingName "#if")
  obtain ⟨loc, name, arguments⟩ := line
  obtain ⟨loc', name', arguments'⟩ := line'
  cases h.arguments with
  | nil => exact hfail
  | @cons first first' rest rest' hfirst hrest =>
    have hend := inStep_valueEnd hrest "expected end of line after condition" Constant.isTrue
    obtain ⟨firstLoc, value⟩ := first
    obtain ⟨firstLoc', value'⟩ := first'
    obtain rfl : value = value' := hfirst.value
    cases value with
    | parenOpen => exact (inStep_evaluate hfirst hrest).bind hend
    | word w =>
      refine (inStep_valueOf? w).bind fun value _ hvalue => ?_
      subst hvalue
      exact (InStep.pure rfl).bind hend
    | _ =>
      refine (inStep_literal? hfirst).bind fun value _ hvalue => ?_
      subst hvalue
      cases value with
      | none => exact (InStep.throwAt hfirst.loc).bind hend
      | some value => exact (InStep.pure rfl).bind hend

theorem inStep_isDefined (h : line.Alike c.place line') (directive : String) :
    InStep c Eq (line.isDefined directive) (line'.isDefined directive) := by
  refine (inStep_argumentName h directive).bind fun name _ hname => ?_
  subst hname
  refine (inStep_expectEnd _ (List.forall₂_drop 1 h.arguments)).bind fun _ _ _ => ?_
  refine (inStep_valueOf? name).bind fun value _ hvalue => ?_
  subst hvalue
  exact .pure rfl

theorem inStep_definition (h : line.Alike c.place line') :
    InStep c Eq line.definition line'.definition := by
  have hvalues := List.forall₂_drop 1 h.arguments
  unfold DirectiveLine.definition
  generalize line.arguments.drop 1 = values at hvalues
  generalize line'.arguments.drop 1 = values' at hvalues
  cases hvalues with
  | nil => exact .pure rfl
  | @cons first first' rest rest' hfirst hrest =>
    have hend := inStep_valueEnd hrest "expected end of line after value" id
    obtain ⟨firstLoc, value⟩ := first
    obtain ⟨firstLoc', value'⟩ := first'
    obtain rfl : value = value' := hfirst.value
    cases value with
    | parenOpen => exact (inStep_evaluate hfirst hrest).bind hend
    | word w =>
      refine (inStep_valueOf? w).bind fun value _ hvalue => ?_
      subst hvalue
      cases value with
      | none => exact (InStep.throwAt hfirst.loc).bind hend
      | some value => exact (InStep.pure rfl).bind hend
    | _ =>
      refine (inStep_literal? hfirst).bind fun value _ hvalue => ?_
      subst hvalue
      cases value with
      | none => exact (InStep.throwAt hfirst.loc).bind hend
      | some value => exact (InStep.pure rfl).bind hend

theorem inStep_redefine (f : Table Constant → Table Constant) :
    InStep c (fun _ _ => True) (modify fun s => { s with constants := f s.constants })
      (modify fun s => { s with constants := f s.constants }) := by
  refine .modify fun s t hst => ?_
  rw [c.constants_eq hst]
  exact c.revalued _ hst

theorem inStep_define (h : line.Alike c.place line') :
    InStep c (fun _ _ => True) line.define line'.define := by
  refine (inStep_argumentName h _).bind fun name _ hname => ?_
  subst hname
  refine (inStep_definition h).bind fun value _ hvalue => ?_
  subst hvalue
  refine (inStep_valueOf? name).bind fun old _ hold => ?_
  subst hold
  have hset := inStep_redefine (c := c) (·.insert name value)
  cases old with
  | none => exact hset
  | some old => exact (inStep_report (.redefinition name old value)).bind fun _ _ _ => hset

theorem inStep_undefine (h : line.Alike c.place line') :
    InStep c (fun _ _ => True) line.undefine line'.undefine := by
  refine (inStep_argumentName h _).bind fun name _ hname => ?_
  subst hname
  refine (inStep_valueOf? name).bind fun old _ hold => ?_
  subst hold
  have herase := inStep_redefine (c := c) (·.erase name)
  cases old with
  | none => exact (inStep_report (.undefinedRemoval name)).bind fun _ _ _ => herase
  | some old => exact herase

theorem inStep_inclusion (h : line.Alike c.place line') :
    InStep c Eq line.inclusion line'.inclusion := by
  have hfail := inStep_fail (α := String) (R := Eq) h (.missingName "#include")
  obtain ⟨loc, name, arguments⟩ := line
  obtain ⟨loc', name', arguments'⟩ := line'
  cases h.arguments with
  | nil => exact hfail
  | @cons first first' rest rest' hfirst hrest =>
    obtain ⟨firstLoc, value⟩ := first
    obtain ⟨firstLoc', value'⟩ := first'
    obtain rfl : value = value' := hfirst.value
    cases value with
    | text content =>
      cases hrest with
      | nil => exact .pure rfl
      | cons => exact hfail
    | _ => exact hfail

theorem inStep_holds (h : line.Alike c.place line') : InStep c Eq line.holds line'.holds := by
  unfold DirectiveLine.holds
  rw [← h.name]
  split
  · exact inStep_isDefined h _
  · refine (inStep_isDefined h _).bind fun holds _ hholds => ?_
    subst hholds
    exact .pure rfl
  · exact inStep_condition h

theorem inStep_holdsIf (h : line.Alike c.place line') (needed : Bool) :
    InStep c Eq (line.holdsIf needed) (line'.holdsIf needed) := by
  cases needed with
  | false => exact .pure rfl
  | true => exact inStep_holds h

end

/-! ### Conditional blocks -/

/-- The same open block, opened at places that correspond. -/
def Frame.Alike (P : Option Location → Option Location → Prop) (frame frame' : Frame) : Prop :=
  ∃ loc, P frame.loc loc ∧ frame' = { frame with loc }

section

variable {line line' : DirectiveLine} {frames frames' : Frames}
  {splice splice' : Option Location → String → Expand Unit}

/-- Blocks change alike, or fail to in the same way. -/
theorem inStep_blocks {α β : Type} {R : α → β → Prop} (h : line.Alike c.place line')
    {outcome : Except Error α} {outcome' : Except Error β}
    (houtcome : (∃ a b, outcome = .ok a ∧ outcome' = .ok b ∧ R a b) ∨
      ∃ e, outcome = .error e ∧ outcome' = .error e) :
    InStep c R (line.blocks outcome) (line'.blocks outcome') := by
  rcases houtcome with ⟨a, b, rfl, rfl, hab⟩ | ⟨e, rfl, rfl⟩
  · exact .pure hab
  · exact inStep_fail h e

theorem isActive_alike (h : List.Forall₂ (Frame.Alike c.place) frames frames') :
    frames.isActive = frames'.isActive := by
  cases h with
  | nil => rfl
  | cons hframe _ =>
    obtain ⟨loc, -, rfl⟩ := hframe
    rfl

theorem role_alike (h : line.Alike c.place line') : line.role = line'.role := by
  unfold DirectiveLine.role
  rw [h.name]

theorem inStep_execute
    (hsplice : ∀ loc loc' name, c.place loc loc' →
      InStep c (fun _ _ => True) (splice loc name) (splice' loc' name))
    (h : line.Alike c.place line') :
    InStep c (fun _ _ => True) (line.execute splice) (line'.execute splice') := by
  unfold DirectiveLine.execute
  rw [← h.name]
  split
  · exact inStep_define h
  · exact inStep_undefine h
  · refine (inStep_inclusion h).bind fun name _ hname => ?_
    subst hname
    exact hsplice _ _ name h.loc
  · exact inStep_fail h _

/-- Directives that differ only in where they stand do the same to blocks and states that
correspond. -/
theorem inStep_run
    (hsplice : ∀ loc loc' name, c.place loc loc' →
      InStep c (fun _ _ => True) (splice loc name) (splice' loc' name))
    (h : line.Alike c.place line') (hframes : List.Forall₂ (Frame.Alike c.place) frames frames') :
    InStep c (List.Forall₂ (Frame.Alike c.place)) (line.run splice frames)
      (line'.run splice' frames') := by
  rw [line.run_eq, line'.run_eq, ← role_alike h, ← isActive_alike hframes]
  refine (inStep_announce h).bind fun _ _ _ => ?_
  cases line.role with
  | opening =>
    refine (inStep_holdsIf h _).bind fun holds _ hholds => ?_
    subst hholds
    refine .pure (.cons ⟨line'.loc, h.loc, ?_⟩ hframes)
    simp only [isActive_alike hframes]
  | further =>
    have hpending :
        InStep c Eq (line.blocks frames.isPending) (line'.blocks frames'.isPending) := by
      refine inStep_blocks h ?_
      cases hframes with
      | nil => exact .inr ⟨_, rfl, rfl⟩
      | @cons frame _ _ _ hframe _ =>
        obtain ⟨loc, -, rfl⟩ := hframe
        obtain ⟨outer, active, chosen, inElse, opened⟩ := frame
        cases inElse with
        | true => exact .inr ⟨_, rfl, rfl⟩
        | false => exact .inl ⟨_, _, rfl, rfl, rfl⟩
    refine hpending.bind fun pending _ heq => ?_
    subst heq
    refine (inStep_holdsIf h _).bind fun holds _ hholds => ?_
    subst hholds
    refine .pure ?_
    cases hframes with
    | nil => exact .nil
    | cons hframe hrest =>
      obtain ⟨loc, hloc, rfl⟩ := hframe
      exact .cons ⟨loc, hloc, rfl⟩ hrest
  | otherwise =>
    have hlast : InStep c (List.Forall₂ (Frame.Alike c.place)) (line.blocks frames.lastBranch)
        (line'.blocks frames'.lastBranch) := by
      refine inStep_blocks h ?_
      cases hframes with
      | nil => exact .inr ⟨_, rfl, rfl⟩
      | @cons frame _ _ _ hframe hrest =>
        obtain ⟨loc, hloc, rfl⟩ := hframe
        obtain ⟨outer, active, chosen, inElse, opened⟩ := frame
        cases inElse with
        | true => exact .inr ⟨_, rfl, rfl⟩
        | false => exact .inl ⟨_, _, rfl, rfl, .cons ⟨loc, hloc, rfl⟩ hrest⟩
    refine hlast.bind fun after after' hafter => ?_
    exact (inStep_expectEnd _ h.arguments).bind fun _ _ _ => .pure hafter
  | closing =>
    have hclose : InStep c (List.Forall₂ (Frame.Alike c.place)) (line.blocks frames.closeBlock)
        (line'.blocks frames'.closeBlock) := by
      refine inStep_blocks h ?_
      cases hframes with
      | nil => exact .inr ⟨_, rfl, rfl⟩
      | cons _ hrest => exact .inl ⟨_, _, rfl, rfl, hrest⟩
    refine hclose.bind fun after after' hafter => ?_
    exact (inStep_expectEnd _ h.arguments).bind fun _ _ _ => .pure hafter
  | plain =>
    dsimp only
    split
    · exact (inStep_execute hsplice h).bind fun _ _ _ => .pure hframes
    · exact .pure hframes

end

/-! ### Lines of tokens -/

section

variable (hc : c.Emits) {tokens tokens' : List (Located Token)}

include hc

theorem inStep_emit {loc loc' : Option Location} (hloc : c.place loc loc') {item : Item}
    (hsource : ∀ index kind, item ≠ .constant index kind) (hline : item ≠ .lineEnd) :
    InStep c (fun _ _ => True) (emit loc item) (emit loc' item) :=
  .modify fun _ _ hst => hc.emitted hst ⟨hloc, rfl⟩ hsource hline

theorem inStep_emitConstant {loc loc' : Option Location} (hloc : c.place loc loc')
    (value : Constant) :
    InStep c (fun _ _ => True) (emitConstant loc value) (emitConstant loc' value) := by
  cases value with
  | empty => exact .pure trivial
  | number n => exact inStep_emit hc hloc (by simp) (by simp)
  | text s => exact inStep_emit hc hloc (by simp) (by simp)

theorem inStep_emitLineEnd {loc loc' : Option Location} (hloc : c.place loc loc') :
    InStep c (fun _ _ => True) (emitLineEnd loc) (emitLineEnd loc') := by
  intro s t hst
  rw [emitLineEnd_apply, emitLineEnd_apply]
  exact ⟨(), t.endLine loc', rfl, trivial, hc.ended hst hloc⟩

theorem inStep_emitLiteral {token token' : Located Token} (h : token.Alike c.place token') :
    InStep c (fun _ _ => True)
      (do if let some value ← literal? token then emitConstant token.loc value)
      (do if let some value ← literal? token' then emitConstant token'.loc value) := by
  refine (inStep_literal? h).bind fun value _ hvalue => ?_
  subst hvalue
  cases value with
  | none => exact .pure trivial
  | some value => exact inStep_emitConstant hc h.loc value

theorem inStep_emitToken {token token' : Located Token} (h : token.Alike c.place token') :
    InStep c (fun _ _ => True) (emitToken token) (emitToken token') := by
  obtain ⟨loc, value⟩ := token
  obtain ⟨loc', value'⟩ := token'
  obtain ⟨hloc, rfl⟩ : c.place loc loc' ∧ value = value' := ⟨h.loc, h.value⟩
  cases value with
  | lineEnd => exact inStep_emitLineEnd hc hloc
  | comment content => exact .pure trivial
  | escape c => exact .pure trivial
  | word name =>
    refine (inStep_valueOf? name).bind fun value _ hvalue => ?_
    subst hvalue
    cases value with
    | none => exact inStep_emit hc hloc (by simp) (by simp)
    | some value => exact inStep_emitConstant hc hloc value
  | number digits => exact inStep_emitLiteral hc h
  | hex digits => exact inStep_emitLiteral hc h
  | char c => exact inStep_emitLiteral hc h
  | text content => exact inStep_emitLiteral hc h
  | directive name => exact inStep_emit hc hloc (by simp) (by simp)
  | separator c => exact inStep_emit hc hloc (by simp) (by simp)
  | bracketOpen => exact inStep_emit hc hloc (by simp) (by simp)
  | bracketClose => exact inStep_emit hc hloc (by simp) (by simp)
  | operator op => exact inStep_emit hc hloc (by simp) (by simp)
  | _ => exact .throwAt hloc

theorem inStep_emitInLine {token token' : Located Token} (h : token.Alike c.place token') :
    InStep c (fun _ _ => True) (emitInLine token) (emitInLine token') := by
  by_cases hdirective : ∃ name, token.value = .preDirective name
  · obtain ⟨name, hname⟩ := hdirective
    rw [emitInLine, emitInLine, ← h.value, hname]
    exact .throwAt h.loc
  · have hne := not_exists.mp hdirective
    rw [emitInLine_of_ne hne, emitInLine_of_ne (h.value ▸ hne)]
    exact inStep_emitToken hc h

theorem inStep_emitTokens (h : List.Forall₂ (Located.Alike c.place) tokens tokens') :
    InStep c (fun _ _ => True) (emitTokens tokens) (emitTokens tokens') := by
  induction tokens using emitTokens.induct generalizing tokens' with
  | case1 =>
    cases h
    rw [emitTokens]
    exact .pure trivial
  | case2 token rest hopen ih =>
    cases h with
    | cons htoken hrest =>
      rw [emitTokens, emitTokens, if_pos hopen, if_pos (htoken.value ▸ hopen)]
      refine (inStep_evaluate htoken hrest).bind fun p _ hp => ?_
      subst hp
      refine (inStep_emitConstant hc htoken.loc p.1).bind fun _ _ _ => ?_
      exact ih p.2 (List.forall₂_drop p.2 hrest)
  | case3 token rest hopen ih =>
    cases h with
    | cons htoken hrest =>
      rw [emitTokens, emitTokens, if_neg hopen, if_neg (htoken.value ▸ hopen)]
      exact (inStep_emitInLine hc htoken).bind fun _ _ _ => ih hrest

end

theorem inStep_skipTokens {tokens tokens' : List (Located Token)}
    (h : List.Forall₂ (Located.Alike c.place) tokens tokens') :
    InStep c (fun _ _ => True) (skipTokens tokens) (skipTokens tokens') := by
  induction h with
  | nil => exact .pure trivial
  | @cons token token' rest rest' htoken _ ih =>
    obtain ⟨loc, value⟩ := token
    obtain ⟨loc', value'⟩ := token'
    obtain ⟨hloc, rfl⟩ : c.place loc loc' ∧ value = value' := ⟨htoken.loc, htoken.value⟩
    cases value with
    | preDirective name => exact .throwAt hloc
    | _ => exact ih

/-! ### Lines -/

/-- The same line, at places that correspond. -/
inductive Line.Alike (P : Option Location → Option Location → Prop) : Line → Line → Prop where
  | directive {line line' : DirectiveLine} (h : line.Alike P line') :
      Line.Alike P (.directive line) (.directive line')
  | content {tokens tokens' : List (Located Token)}
      (h : List.Forall₂ (Located.Alike P) tokens tokens') :
      Line.Alike P (.content tokens) (.content tokens')

section

variable {P : Option Location → Option Location → Prop} {tokens tokens' : List (Located Token)}

theorem rel_getLast? {α : Type} {R : α → α → Prop} {xs ys : List α} (h : List.Forall₂ R xs ys) :
    Option.Rel R xs.getLast? ys.getLast? := by
  induction h with
  | nil => exact .none
  | cons hxy htail ih =>
    cases htail with
    | nil => exact .some hxy
    | cons => simpa only [List.getLast?_cons_cons] using ih

theorem alike_directiveArguments (h : List.Forall₂ (Located.Alike P) tokens tokens') :
    List.Forall₂ (Located.Alike P) (directiveArguments tokens) (directiveArguments tokens') := by
  have htake : List.Forall₂ (Located.Alike P) (tokens.takeWhile (·.value ≠ .lineEnd))
      (tokens'.takeWhile (·.value ≠ .lineEnd)) := by
    induction h with
    | nil => exact .nil
    | @cons token token' rest rest' htoken _ ih =>
      rw [List.takeWhile_cons, List.takeWhile_cons, ← htoken.value]
      split
      · exact .cons htoken ih
      · exact .nil
  have hlast := rel_getLast? htake
  unfold directiveArguments
  dsimp only
  generalize (tokens.takeWhile (·.value ≠ .lineEnd)).getLast? = last at hlast
  generalize (tokens'.takeWhile (·.value ≠ .lineEnd)).getLast? = last' at hlast
  cases hlast with
  | none => exact htake
  | @some token token' htoken =>
    obtain ⟨loc, value⟩ := token
    obtain ⟨loc', value'⟩ := token'
    obtain rfl : value = value' := htoken.value
    cases value with
    | comment content =>
      rw [List.dropLast_eq_take, List.dropLast_eq_take, ← htake.length_eq]
      exact List.forall₂_take _ htake
    | _ => exact htake

theorem alike_ofTokens (h : List.Forall₂ (Located.Alike P) tokens tokens') :
    (Line.ofTokens tokens).Alike P (Line.ofTokens tokens') := by
  cases h with
  | nil => exact .content .nil
  | @cons token token' rest rest' htoken hrest =>
    obtain ⟨loc, value⟩ := token
    obtain ⟨loc', value'⟩ := token'
    obtain rfl : value = value' := htoken.value
    cases value with
    | preDirective name =>
      exact .directive ⟨htoken.loc, rfl, alike_directiveArguments hrest⟩
    | _ => exact .content (.cons htoken hrest)

theorem alike_consToken {token token' : Located Token} (htoken : token.Alike P token')
    {lines lines' : List (List (Located Token))}
    (h : List.Forall₂ (List.Forall₂ (Located.Alike P)) lines lines') :
    List.Forall₂ (List.Forall₂ (Located.Alike P)) (consToken token lines)
      (consToken token' lines') := by
  obtain ⟨loc, value⟩ := token
  obtain ⟨loc', value'⟩ := token'
  obtain rfl : value = value' := htoken.value
  have hend : List.Forall₂ (List.Forall₂ (Located.Alike P)) ([⟨loc, value⟩] :: lines)
      ([⟨loc', value⟩] :: lines') := .cons (.cons htoken .nil) h
  cases h with
  | nil => cases value <;> exact hend
  | cons hline hrest =>
    cases value with
    | lineEnd => exact hend
    | _ => exact .cons (.cons htoken hline) hrest

/-- The same tokens form the same lines. -/
theorem alike_sourceLines (h : List.Forall₂ (Located.Alike P) tokens tokens') :
    List.Forall₂ (Line.Alike P) (sourceLines tokens) (sourceLines tokens') := by
  have hlines : List.Forall₂ (List.Forall₂ (Located.Alike P)) (tokenLines tokens)
      (tokenLines tokens') := by
    induction h with
    | nil => exact .nil
    | cons htoken _ ih => exact alike_consToken htoken ih
  rw [sourceLines, sourceLines, List.forall₂_map_left_iff, List.forall₂_map_right_iff]
  exact hlines.imp fun _ _ => alike_ofTokens

end

/-- Expands the tokens of a file, none of which may be malformed. -/
def expandChecked (splice : Option Location → String → Expand Unit)
    (tokens : List (Located Token)) : Expand Unit := do
  expectLexed tokens
  expandTokens splice tokens

theorem expectLexed_eq_ok {tokens : List (Located Token)} {s s' : State} :
    expectLexed tokens s = .ok () s' ↔
      tokens.find? (·.value.isLexicalError) = none ∧ s' = s := by
  unfold expectLexed
  cases tokens.find? (·.value.isLexicalError) with
  | none =>
    constructor
    · intro h
      cases h
      exact ⟨rfl, rfl⟩
    · rintro ⟨-, rfl⟩
      rfl
  | some token =>
    constructor
    · intro h
      cases h
    · intro h
      cases h.1

theorem inStep_expectLexed {tokens tokens' : List (Located Token)}
    (h : List.Forall₂ (Located.Alike c.place) tokens tokens') :
    InStep c (fun _ _ => True) (expectLexed tokens) (expectLexed tokens') := by
  have hfind : Option.Rel (Located.Alike c.place) (tokens.find? (·.value.isLexicalError))
      (tokens'.find? (·.value.isLexicalError)) := by
    induction h with
    | nil => exact .none
    | cons htoken _ ih =>
      rw [List.find?_cons, List.find?_cons, ← htoken.value]
      split
      · exact .some htoken
      · exact ih
  unfold expectLexed
  generalize tokens.find? (·.value.isLexicalError) = found at hfind
  generalize tokens'.find? (·.value.isLexicalError) = found' at hfind
  cases hfind with
  | none => exact .pure trivial
  | some htoken =>
    refine .throw ⟨htoken.loc, ?_⟩
    simp only [Located.withValue, htoken.value]

section

variable (hc : c.Emits) {splice splice' : Option Location → String → Expand Unit}
  (hsplice : ∀ loc loc' name, c.place loc loc' →
    InStep c (fun _ _ => True) (splice loc name) (splice' loc' name))

include hc hsplice

theorem inStep_expandLine {line line' : Line} (h : line.Alike c.place line')
    {frames frames' : Frames} (hframes : List.Forall₂ (Frame.Alike c.place) frames frames') :
    InStep c (List.Forall₂ (Frame.Alike c.place)) (expandLine splice frames line)
      (expandLine splice' frames' line') := by
  cases h with
  | directive h => exact inStep_run hsplice h hframes
  | content h =>
    unfold expandLine
    dsimp only
    rw [← isActive_alike hframes]
    split
    · exact (inStep_emitTokens hc h).bind fun _ _ _ => .pure hframes
    · exact (inStep_skipTokens h).bind fun _ _ _ => .pure hframes

/-- **Lines that differ only in where they stand are expanded alike.** -/
theorem inStep_expandLines {lines lines' : List Line}
    (h : List.Forall₂ (Line.Alike c.place) lines lines') {frames frames' : Frames}
    (hframes : List.Forall₂ (Frame.Alike c.place) frames frames') :
    InStep c (List.Forall₂ (Frame.Alike c.place)) (expandLines splice frames lines)
      (expandLines splice' frames' lines') := by
  induction h generalizing frames frames' with
  | nil => exact .pure hframes
  | cons hline _ ih =>
    exact (inStep_expandLine hc hsplice hline hframes).bind fun after after' hafter => ih hafter

theorem inStep_expandTokens {tokens tokens' : List (Located Token)}
    (h : List.Forall₂ (Located.Alike c.place) tokens tokens') :
    InStep c (fun _ _ => True) (expandTokens splice tokens) (expandTokens splice' tokens') := by
  rw [expandTokens_eq, expandTokens_eq]
  refine (inStep_expandLines hc hsplice (alike_sourceLines h) .nil).bind fun _ _ hframes => ?_
  cases hframes with
  | nil => exact .pure trivial
  | cons hframe _ =>
    obtain ⟨loc, hloc, rfl⟩ := hframe
    exact .throwAt hloc

theorem inStep_expandChecked {tokens tokens' : List (Located Token)}
    (h : List.Forall₂ (Located.Alike c.place) tokens tokens') :
    InStep c (fun _ _ => True) (expandChecked splice tokens) (expandChecked splice' tokens') :=
  (inStep_expectLexed h).bind fun _ _ _ => inStep_expandTokens hc hsplice h

end

end Expansion

end StackAsm
