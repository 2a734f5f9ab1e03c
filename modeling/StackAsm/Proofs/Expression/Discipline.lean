import StackAsm.Proofs.Expression.Evaluation

/-!
# The two stacks keep in step

What the stacks hold between two tokens is a tree of which a part is missing at the right
(`Reached`). Each operator that waits between two operands has its left operand among the values,
and nothing else is there but the operand that is complete. So an operator is applied only when its
operands are there, and once the first parenthesis is closed exactly one value is left.

What an evaluation can lack is therefore found by a closing parenthesis alone. Where an operand has
to follow, the top of the operators is what the last token has put there, and it tells what is
lacking: everything after an opening parenthesis, and the right operand after an operator.
-/

namespace StackAsm.Expression

variable {constants : Table Constant} {s s' : State} {token : Located Token}
  {tokens done : List (Located Token)} {values below : List Constant} {entries : List Entry}
  {op : Operator} {v : Constant} {e : Error} {level n m : Nat} {opening : Option Location}

/-! ### Applying operators strictly -/

/-- Applies an entry of the operator stack to the values; `none` tells that it is no operator or
that an operand is lacking. -/
def applyStrictly (values : List Constant) : Entry → Except (Option Error) (List Constant)
  | .paren => .error none
  | .unary op =>
    match values with
    | v :: rest => ((applyUnary op v).map (· :: rest)).mapError some
    | [] => .error none
  | .binary op =>
    match values with
    | r :: l :: rest => ((applyBinary op l r).map (· :: rest)).mapError some
    | _ => .error none

/-- Applies the waiting operators that bind at least as tightly as `level`; `none` tells that one of
them could not be applied or that there was nothing left to stop at. -/
def reduceStrictly (level : Nat) (values : List Constant) :
    List Entry → Except (Option Error) (List Constant × List Entry)
  | [] => .error none
  | entry :: entries =>
    match entry.precedence? with
    | none => .ok (values, entry :: entries)
    | some top =>
      if top < level then .ok (values, entry :: entries)
      else do
        let values ← applyStrictly values entry
        reduceStrictly level values entries

/-- With one more value in the missing place, every operator has its operands. -/
theorem Pending.reduceStrictly_eq (h : Pending constants entries below done) (v : Constant) :
    reduceStrictly level (v :: below) entries =
      (reduce level (v :: below) entries).mapError some := by
  induction h generalizing v with
  | start => rfl
  | paren => rfl
  | @unary op entries below done loc hop hpending ih =>
    by_cases hlevel : Operator.unaryPrecedence < level
    · simp only [reduceStrictly, reduce, Entry.precedence?, if_pos hlevel]
      rfl
    · simp only [reduceStrictly, reduce, Entry.precedence?, if_neg hlevel, applyStrictly, applyEntry]
      cases applyUnary op v with
      | error e => rfl
      | ok w => exact ih w
  | @binary k ops op left l entries below done loc hk hop hleft hl hwaits hpending ih =>
    obtain ⟨p, hp, -⟩ := precedence_of_mem_level hk hop
    by_cases hlevel : p < level
    · simp only [reduceStrictly, reduce, Entry.precedence?, hp, if_pos hlevel]
      rfl
    · simp only [reduceStrictly, reduce, Entry.precedence?, hp, if_neg hlevel, applyStrictly,
        applyEntry]
      cases applyBinary op l v with
      | error e => rfl
      | ok w => exact ih w

/-! ### Counting values -/

/-- Whether an entry is an operator between two operands. -/
def Entry.isBinary : Entry → Bool
  | binary _ => true
  | _ => false

/-- Where an operand is missing, the values are the left operands of the waiting operators. -/
theorem Pending.length_values (h : Pending constants entries values done) :
    values.length = entries.countP Entry.isBinary := by
  induction h with
  | start => rfl
  | paren _ _ ih => rw [ih]; rfl
  | unary _ _ _ ih => rw [ih]; rfl
  | binary _ _ _ _ _ _ _ ih => rw [List.length_cons, ih, List.countP_cons_of_pos rfl]

/-- What holds of the stacks between two tokens. -/
structure Disciplined (s : State) : Prop where
  /-- There are as many values as operators between two operands, and one more if an operand is
  complete. -/
  length_values : s.values.length =
    s.entries.countP Entry.isBinary + if s.expectsOperand then 0 else 1
  /-- Where an operand is complete, whatever a token applies is an operator with its operands. -/
  reduces : s.entries ≠ [] → s.expectsOperand = false → ∀ level,
    reduceStrictly level s.values s.entries = (reduce level s.values s.entries).mapError some
  /-- Once the first parenthesis is closed, one value is left and is the result. -/
  result : s.entries = [] → ∃ v, v ≠ .empty ∧ s.values = [v] ∧ s.result = .ok v

theorem Reached.disciplined (h : Reached constants s done) : Disciplined s := by
  have hopen := h.entries_ne_nil
  cases h with
  | expecting hpending =>
    exact ⟨hpending.length_values, fun _ hcomplete => Bool.noConfusion hcomplete,
      fun h => absurd h hopen⟩
  | complete hfilled =>
    obtain ⟨tree, v, below, before, rfl, -, hpending, -⟩ := hfilled none
    refine ⟨?_, fun _ _ level => hpending.reduceStrictly_eq v, fun h => absurd h hopen⟩
    simpa using hpending.length_values

theorem Closed.disciplined {loc : Option Location} (h : Closed constants loc s done) :
    Disciplined s := by
  obtain ⟨tree, v, rfl, -, -, hv⟩ := h
  have hne : v ≠ .empty := fun h => Tree.eval_ne_empty (h ▸ hv)
  exact ⟨rfl, fun h => absurd rfl h, fun _ => ⟨v, hne, rfl, result_of_ne_empty hne⟩⟩

/-- A run: tokens lead to a part of a tree, or to its value if they close the first parenthesis. -/
theorem Reached.advance (h : Reached constants s done)
    (hadvance : advance constants s tokens = .ok s') :
    Reached constants s' (done ++ reading (!s.expectsOperand) tokens) ∨
      ∃ loc done, Closed constants loc s' done := by
  induction tokens generalizing s done with
  | nil =>
    cases hadvance
    left
    simpa [reading] using h
  | cons token tokens ih =>
    obtain ⟨-, t, hstep, hadvance⟩ := advance_cons_eq_ok.mp hadvance
    have htakes := takes_of_step hstep
    rcases h.takes token.loc htakes with h | ⟨-, hclosed⟩
    · have hrest := ih h hadvance
      rwa [List.append_assoc, ← htakes.completeAfter] at hrest
    · -- nothing can follow the closing parenthesis
      have hend := hclosed
      obtain ⟨_, _, rfl, -⟩ := hend
      cases tokens with
      | nil =>
        cases hadvance
        exact .inr ⟨_, _, hclosed⟩
      | cons => cases hadvance

theorem disciplined_of_advance (h : advance constants .start tokens = .ok s) : Disciplined s := by
  rcases (Reached.expecting .start).advance h with h | ⟨loc, done, h⟩
  · exact h.disciplined
  · exact h.disciplined

/-! ### Errors of operators -/

/-- Whether an error says that something is lacking before a closing parenthesis. -/
def Error.isLack : Error → Bool
  | empty | missingOperand _ => true
  | _ => false

/-- No error says that something is lacking. -/
def Sated {α : Type} (x : Except Error α) : Prop := Lands (fun _ => True) (·.isLack = false) x

theorem sated_applyUnary : Sated (applyUnary op v) := by
  cases v with
  | number n =>
    cases op with
    | minus | plus | complement | negation => exact trivial
    | _ => exact rfl
  | _ => exact rfl

theorem sated_applyNumeric {l r : Int64} : Sated (applyNumeric op l r) := by
  cases op with
  | divide | modulo =>
    rw [applyNumeric]
    split
    · exact rfl
    · exact trivial
  | complement | negation => exact rfl
  | _ => exact trivial

theorem sated_applyTextual {l r : String} : Sated (applyTextual op l r) := by
  cases op with
  | plus | minus | divide | equal | notEqual => exact trivial
  | _ => exact rfl

theorem sated_applyBinary {l r : Constant} : Sated (applyBinary op l r) := by
  cases l with
  | empty => exact rfl
  | number l =>
    cases r with
    | empty => exact rfl
    | number r => exact Lands.map sated_applyNumeric fun _ _ => trivial
    | text r => exact sated_applyTextual
  | text l =>
    cases r with
    | empty => exact rfl
    | number r => exact sated_applyTextual
    | text r => exact sated_applyTextual

/-- Where operators have their operands, no error says that something is lacking. -/
theorem lands_applyStrictly {entry : Entry} :
    Lands (fun _ => True) (∀ e ∈ ·, e.isLack = false) (applyStrictly values entry) := by
  have hnone : ∀ e ∈ (none : Option Error), e.isLack = false := by simp
  have hsome (e : Error) (he : e.isLack = false) : ∀ e' ∈ some e, e'.isLack = false := by simpa
  cases entry with
  | paren => exact hnone
  | unary op =>
    cases values with
    | nil => exact hnone
    | cons v rest => exact (Lands.map sated_applyUnary fun _ _ => trivial).mapError hsome
  | binary op =>
    rcases values with _ | ⟨r, _ | ⟨l, rest⟩⟩
    · exact hnone
    · exact hnone
    · exact (Lands.map sated_applyBinary fun _ _ => trivial).mapError hsome

theorem lands_reduceStrictly :
    Lands (fun _ => True) (∀ e ∈ ·, e.isLack = false) (reduceStrictly level values entries) := by
  induction entries generalizing values with
  | nil => simp [reduceStrictly, Lands]
  | cons entry entries ih =>
    rw [reduceStrictly]
    split
    · trivial
    · split
      · trivial
      · exact lands_applyStrictly.bind fun values _ => ih

/-- So there is none either where a token applies operators. -/
theorem Disciplined.sated_reduce (h : Disciplined s) (hopen : s.entries ≠ [])
    (hcomplete : s.expectsOperand = false) (level : Nat) :
    Sated (reduce level s.values s.entries) := by
  have hlands := @lands_reduceStrictly s.values s.entries level
  rw [h.reduces hopen hcomplete level] at hlands
  cases hreduce : reduce level s.values s.entries with
  | ok => trivial
  | error e =>
    rw [hreduce] at hlands
    exact hlands e rfl

/-! ### What a token finds lacking -/

/-- What a closing parenthesis finds lacking. -/
def State.lack? (s : State) : Option Error :=
  if s.expectsOperand then
    match s.entries with
    | .paren :: _ => some .empty
    | .unary op :: _ | .binary op :: _ => some (.missingOperand op)
    | [] => none
  else none

theorem Disciplined.sated_operator (h : Disciplined s) (hopen : s.entries ≠ []) :
    Sated (s.operator op) := by
  rw [State.operator]
  split
  · split
    · trivial
    · exact rfl
  · next hexpects =>
    split
    · exact rfl
    · exact (h.sated_reduce hopen (by simpa using hexpects) _).bind fun _ _ => trivial

theorem sated_number {digits : String} : Sated (s.number digits) := by
  rw [State.number]
  split
  · trivial
  · exact rfl

theorem sated_operandToken {token : Token} : Sated (s.operandToken constants token) := by
  cases token with
  | number digits => exact sated_number
  | hex digits =>
    rw [State.operandToken]
    split
    · trivial
    · exact rfl
  | word name =>
    rw [State.operandToken, State.name]
    split
    · exact rfl
    · exact rfl
    · trivial
  | parenOpen | char | text => exact trivial
  | _ => exact rfl

theorem Disciplined.sated_nextToken {token : Token} (h : Disciplined s) (hopen : s.entries ≠ []) :
    Sated (s.nextToken token) := by
  cases token with
  | number digits =>
    rw [State.nextToken]
    split
    · exact (h.sated_operator hopen).bind fun _ _ => sated_number
    · exact rfl
  | _ => exact rfl

/-- Where an operand is complete, a closing parenthesis reports no lack. -/
theorem Disciplined.sated_close (h : Disciplined s) (hopen : s.entries ≠ [])
    (hcomplete : s.expectsOperand = false) : Sated s.close := by
  rw [State.close, if_neg (by simp [hcomplete])]
  refine (h.sated_reduce hopen hcomplete 0).bind fun reduced _ => ?_
  obtain ⟨values, entries⟩ := reduced
  simp only
  split
  · trivial
  · exact rfl

theorem close_eq_error_iff (hopen : s.entries ≠ []) (hexpects : s.expectsOperand = true) :
    s.close = .error e ↔ s.lack? = some e := by
  obtain ⟨values, entries, expects⟩ := s
  obtain rfl : expects = true := hexpects
  obtain ⟨entry, entries, rfl⟩ := List.exists_cons_of_ne_nil hopen
  cases entry <;> simp [State.close, State.lack?]

theorem expectsOperand_of_lack? (h : s.lack? = some e) : s.expectsOperand = true := by
  by_contra hcomplete
  rw [State.lack?, if_neg hcomplete] at h
  cases h

theorem entries_ne_nil_of_lack? (h : s.lack? = some e) : s.entries ≠ [] := by
  intro hclosed
  rw [State.lack?, hclosed] at h
  split at h <;> cases h

theorem Disciplined.sated_step {token : Token} (h : Disciplined s) (hopen : s.entries ≠ [])
    (hclose : token = .parenClose → s.expectsOperand = false) :
    Sated (s.step constants token) := by
  have hrest : Sated (if s.expectsOperand then s.operandToken constants token
      else s.nextToken token) := by
    split
    · exact sated_operandToken
    · exact h.sated_nextToken hopen
  cases token with
  | comment => trivial
  | lineEnd => exact rfl
  | parenClose => exact h.sated_close hopen (hclose rfl)
  | operator op => exact h.sated_operator hopen
  | _ => exact hrest

/-- **Only a closing parenthesis finds something lacking**, and only where an operand has to
follow. -/
theorem Disciplined.step_eq_lack_iff {token : Token} (h : Disciplined s) (hopen : s.entries ≠ [])
    (he : e.isLack = true) :
    s.step constants token = .error e ↔ token = .parenClose ∧ s.lack? = some e := by
  by_cases hclose : token = .parenClose → s.expectsOperand = false
  · have hsated := @Disciplined.sated_step constants s token h hopen hclose
    constructor
    · intro hstep
      rw [hstep] at hsated
      exact absurd (he.symm.trans hsated) (by decide)
    · rintro ⟨htoken, hlack⟩
      exact absurd ((expectsOperand_of_lack? hlack).symm.trans (hclose htoken)) (by decide)
  · obtain ⟨rfl, hexpects⟩ := Classical.not_imp.mp hclose
    rw [and_iff_right rfl]
    exact close_eq_error_iff hopen (by simpa using hexpects)

/-! ### What the last token leaves -/

/-- Whether a token is a comment. -/
def isComment : Token → Bool
  | .comment _ => true
  | _ => false

/-- The last of the tokens, comments aside, or `last` if there is none. -/
def lastToken? (last : Option Token) : List (Located Token) → Option Token
  | [] => last
  | token :: tokens =>
    lastToken? (if isComment token.value then last else some token.value) tokens

/-- What is lacking between a token and a closing parenthesis. -/
def lackAfter? : Option Token → Option Error
  | none | some .parenOpen => some .empty
  | some (.operator op) => some (.missingOperand op)
  | some _ => none

theorem lackAfter?_eq_empty {last : Option Token} :
    lackAfter? last = some .empty ↔ last = none ∨ last = some .parenOpen := by
  cases last with
  | none => simp [lackAfter?]
  | some token => cases token <;> simp [lackAfter?]

theorem lackAfter?_eq_missingOperand {last : Option Token} :
    lackAfter? last = some (.missingOperand op) ↔ last = some (.operator op) := by
  cases last with
  | none => simp [lackAfter?]
  | some token => cases token <;> simp [lackAfter?]

/-- One step: the top of the operators is what the last token has put there. -/
theorem Takes.lack? {token : Token} {last : Option Token} (h : Takes constants s token s')
    (hlast : s.lack? = lackAfter? last) :
    s'.lack? = lackAfter? (if isComment token then last else some token) := by
  cases h with
  | comment => exact hlast
  | opening => rfl
  | @operand token _ _ _ hop =>
    cases token with
    | number | hex | char | text | word => rfl
    | _ => cases hop
  | front => rfl
  | between => rfl
  | closing => rfl
  | signed hsplit hop hdigits =>
    have hcomplete : s'.expectsOperand = false := by
      have hafter := hdigits.completeAfter
      simpa [Expression.completeAfter, isOperand] using hafter.symm
    rw [State.lack?, if_neg (by simp [hcomplete])]
    rfl

/-- A run: what is lacking after tokens is what their last leaves lacking. -/
theorem lack?_of_advance {last : Option Token} (hlast : s.lack? = lackAfter? last)
    (h : advance constants s tokens = .ok s') : s'.lack? = lackAfter? (lastToken? last tokens) := by
  induction tokens generalizing s last with
  | nil =>
    cases h
    exact hlast
  | cons token tokens ih =>
    obtain ⟨-, t, hstep, h⟩ := advance_cons_eq_ok.mp h
    exact ih ((takes_of_step hstep).lack? hlast) h

/-! ### How an evaluation fails -/

/-- An evaluation fails where a token does, if those before it leave the first parenthesis open. -/
theorem evaluateFrom_of_step_error {front rest : List (Located Token)} {t : State}
    (hs : s.entries ≠ []) (h : advance constants s front = .ok t) (ht : t.entries ≠ [])
    (hstep : t.step constants token.value = .error e) :
    evaluateFrom constants opening s n (front ++ token :: rest) =
      (.error (token.withValue e), n + front.length + 1) := by
  induction front generalizing s n with
  | nil =>
    cases h
    simp [evaluateFrom, hstep]
  | cons first front ih =>
    obtain ⟨-, u, hu, h⟩ := advance_cons_eq_ok.mp h
    have hopen : u.entries ≠ [] := by
      cases front with
      | nil =>
        cases h
        exact ht
      | cons next front => exact (advance_cons_eq_ok.mp h).1
    rw [List.cons_append, evaluateFrom, hu]
    simp only [if_neg hopen]
    rw [ih hopen h, List.length_cons]
    congr 1
    omega

/-- An evaluation that fails has met the end of the tokens, a token that cannot be taken in, or a
result that is none. -/
theorem evaluateFrom_eq_error {e : Located Error} (hs : s.entries ≠ [])
    (h : evaluateFrom constants opening s n tokens = (.error e, m)) :
    e.value = .unbalanced ∨
    (∃ front token rest t e', tokens = front ++ token :: rest ∧ m = n + front.length + 1 ∧
      advance constants s front = .ok t ∧ t.entries ≠ [] ∧
      t.step constants token.value = .error e' ∧ e = token.withValue e') ∨
    ∃ front t, advance constants s front = .ok t ∧ t.entries = [] ∧ t.result = .error e.value := by
  induction tokens generalizing s n with
  | nil =>
    cases h
    exact .inl rfl
  | cons token tokens ih =>
    rw [evaluateFrom] at h
    cases hstep : s.step constants token.value with
    | error e' =>
      rw [hstep] at h
      cases h
      exact .inr (.inl ⟨[], token, tokens, s, e', rfl, rfl, rfl, hs, hstep, rfl⟩)
    | ok t =>
      simp only [hstep] at h
      by_cases hopen : t.entries = []
      · simp only [if_pos hopen, Prod.mk.injEq] at h
        refine .inr (.inr ⟨[token], t, advance_of_step hs hstep, hopen, ?_⟩)
        cases hresult : t.result with
        | ok v => simp [hresult, Except.mapError] at h
        | error e' =>
          simp only [hresult, Except.mapError, Except.error.injEq] at h
          rw [← h.1]
      · rw [if_neg hopen] at h
        rcases ih hopen h with h | ⟨front, token', rest, u, e', rfl, rfl, hu, hrest⟩ |
          ⟨front, u, hu, hrest⟩
        · exact .inl h
        · refine .inr (.inl ⟨token :: front, token', rest, u, e', rfl, ?_, ?_, hrest⟩)
          · simp only [List.length_cons]
            omega
          · rw [advance_of_step hs hstep, hu]
        · exact .inr (.inr ⟨token :: front, u, by rw [advance_of_step hs hstep, hu], hrest⟩)

/-- **Something is lacking exactly where the last token says so**: an evaluation fails for a lack if
a closing parenthesis stands where its last token, comments aside, has left something lacking. -/
theorem evaluate_eq_lack_iff {loc : Option Location} (he : e.isLack = true) :
    evaluate constants opening tokens = (.error ⟨loc, e⟩, n) ↔
      ∃ front rest s, tokens = front ++ ⟨loc, .parenClose⟩ :: rest ∧ n = front.length + 1 ∧
        advance constants .start front = .ok s ∧ lackAfter? (lastToken? none front) = some e := by
  have hopen : State.start.entries ≠ [] := by simp [State.start]
  constructor
  · intro h
    rcases evaluateFrom_eq_error hopen h with h | ⟨front, token, rest, t, e', rfl, rfl, ht, hrest⟩ |
      ⟨front, t, ht, hclosed, hresult⟩
    · obtain rfl : e = .unbalanced := h
      cases he
    · obtain ⟨htopen, hstep, heq⟩ := hrest
      cases heq
      obtain ⟨htoken, hlack⟩ := ((disciplined_of_advance ht).step_eq_lack_iff htopen he).mp hstep
      refine ⟨front, rest, t, ?_, by omega, ht, ?_⟩
      · rw [← htoken]
      · rw [← lack?_of_advance rfl ht, hlack]
    · obtain ⟨v, -, -, hok⟩ := (disciplined_of_advance ht).result hclosed
      rw [hok] at hresult
      cases hresult
  · rintro ⟨front, rest, s, rfl, rfl, hs, hlast⟩
    rw [← lack?_of_advance rfl hs] at hlast
    have hsopen := entries_ne_nil_of_lack? hlast
    have hstep : s.step constants .parenClose = .error e :=
      ((disciplined_of_advance hs).step_eq_lack_iff hsopen he).mpr ⟨rfl, hlast⟩
    have hfails := @evaluateFrom_of_step_error constants .start ⟨loc, .parenClose⟩ e 0 opening front
      rest s hopen hs hsopen hstep
    simpa [evaluate, Located.withValue] using hfails

/-! ### The discipline of an evaluation -/

/-- **The two stacks are never out of step.** Between any two tokens the stacks are disciplined, so
whatever is applied has its operands, and the one value that is left in the end is the result. An
evaluation finds nothing between two parentheses only where a closing one follows an opening one,
and an operator without its right operand only where a closing one follows the operator. -/
theorem evaluate_disciplined (constants : Table Constant) (opening : Option Location)
    (tokens : List (Located Token)) :
    (∀ front rest s, tokens = front ++ rest → advance constants .start front = .ok s →
      Disciplined s) ∧
    (∀ loc n, evaluate constants opening tokens = (.error ⟨loc, .empty⟩, n) ↔
      ∃ front rest s, tokens = front ++ ⟨loc, .parenClose⟩ :: rest ∧ n = front.length + 1 ∧
        advance constants .start front = .ok s ∧
        (lastToken? none front = none ∨ lastToken? none front = some .parenOpen)) ∧
    (∀ loc op n, evaluate constants opening tokens = (.error ⟨loc, .missingOperand op⟩, n) ↔
      ∃ front rest s, tokens = front ++ ⟨loc, .parenClose⟩ :: rest ∧ n = front.length + 1 ∧
        advance constants .start front = .ok s ∧
        lastToken? none front = some (.operator op)) ∧
    ∀ v n, evaluate constants opening tokens = (.ok v, n) → v ≠ .empty := by
  refine ⟨fun _ _ _ _ h => disciplined_of_advance h, ?_, ?_, ?_⟩
  · intro loc n
    simp only [evaluate_eq_lack_iff (e := .empty) rfl, lackAfter?_eq_empty]
  · intro loc op n
    simp only [evaluate_eq_lack_iff (e := .missingOperand op) rfl, lackAfter?_eq_missingOperand]
  · rintro v n h rfl
    obtain ⟨inner, last, tail, s, rfl, rfl, hs, hclosed, hresult⟩ :=
      advance_of_evaluateFrom (by simp [State.start]) h
    obtain ⟨w, hw, -, hok⟩ := (disciplined_of_advance hs).result hclosed
    rw [hok] at hresult
    cases hresult
    exact hw rfl

/-- `7 -3 *` with a comment: the last operator waits for its right operand. -/
def unfinished : List (Located Token) :=
  [.nowhere (.number "7"), .nowhere (.number "-3"), .nowhere (.operator .times),
   .nowhere (.comment "twice")]

/-- The stacks after `7 -3 *`. -/
def unfinishedState : State :=
  ⟨[.number 3, .number 7], [.binary .times, .binary .minus, .paren], true⟩

theorem evaluate_disciplined_unfinished :
    advance .empty .start unfinished = .ok unfinishedState ∧ Disciplined unfinishedState ∧
    evaluate .empty none (unfinished ++ [⟨none, .parenClose⟩]) =
      (.error ⟨none, .missingOperand .times⟩, 5) ∧
    evaluate .empty none (unfinished ++ [.nowhere (.number "2"), ⟨none, .parenClose⟩]) =
      (.ok (.number 1), 6) ∧ Constant.number 1 ≠ .empty := by
  have hadvance : advance .empty .start unfinished = .ok unfinishedState := by decide +kernel
  have hvalue : evaluate .empty none (unfinished ++ [.nowhere (.number "2"), ⟨none, .parenClose⟩]) =
      (.ok (.number 1), 6) := by decide +kernel
  refine ⟨hadvance, ?_, ?_, hvalue, ?_⟩
  · exact (evaluate_disciplined .empty none unfinished).1 unfinished [] _ (by simp) hadvance
  · exact ((evaluate_disciplined .empty none _).2.2.1 _ _ _).mpr
      ⟨unfinished, [], _, rfl, rfl, hadvance, by decide⟩
  · exact (evaluate_disciplined .empty none _).2.2.2 _ _ hvalue

end StackAsm.Expression
