import StackAsm.Proofs.Expression.Grammar

/-!
# Taking in tokens

What one token does to the two stacks of an evaluation, and what tokens do one after the other as
long as the first parenthesis is open. Comments do nothing, and a number with a sign does what an
operator and a number do.
-/

namespace StackAsm.Expression

variable {constants : Table Constant} {s s' : State} {token : Located Token}
  {tokens rest : List (Located Token)} {values : List Constant} {entries : List Entry}
  {op : Operator} {v : Constant} {n : Nat}

/-! ### Taking in tokens -/

/-- Takes in the tokens, each while the first parenthesis is open; `none` tells that it was
closed before the last of them. -/
def advance (constants : Table Constant) (s : State) :
    List (Located Token) → Except (Option (Located Error)) State
  | [] => .ok s
  | token :: tokens =>
    if s.entries = [] then .error none
    else
      match s.step constants token.value with
      | .error e => .error (some (token.withValue e))
      | .ok s => advance constants s tokens

theorem advance_of_closed (h : s.entries = []) :
    advance constants s (token :: tokens) = .error none := by
  rw [advance, if_pos h]

theorem advance_of_step (h : s.entries ≠ []) (hs : s.step constants token.value = .ok s') :
    advance constants s (token :: tokens) = advance constants s' tokens := by
  rw [advance, if_neg h, hs]

theorem advance_of_step_error {e : Error} (h : s.entries ≠ [])
    (hs : s.step constants token.value = .error e) :
    advance constants s (token :: tokens) = .error (some (token.withValue e)) := by
  rw [advance, if_neg h, hs]

theorem advance_cons_eq_ok :
    advance constants s (token :: tokens) = .ok s' ↔ s.entries ≠ [] ∧
      ∃ t, s.step constants token.value = .ok t ∧ advance constants t tokens = .ok s' := by
  by_cases h : s.entries = []
  · simp [advance_of_closed h, h]
  · cases hs : s.step constants token.value with
    | error e => simp [advance_of_step_error h hs]
    | ok t => simp [advance_of_step h hs, h]

/-- An evaluation ends where the first parenthesis is closed. -/
theorem evaluateFrom_of_advance {opening : Option Location} (hs : s.entries ≠ [])
    (h : advance constants s tokens = .ok s') (hclosed : s'.entries = []) :
    evaluateFrom constants opening s n (tokens ++ rest) =
      (s'.result.mapError (⟨opening, ·⟩), n + tokens.length) := by
  induction tokens generalizing s n with
  | nil =>
    cases h
    exact absurd hclosed hs
  | cons token tokens ih =>
    obtain ⟨-, t, ht, h⟩ := advance_cons_eq_ok.mp h
    rw [List.cons_append, evaluateFrom, ht]
    by_cases hopen : t.entries = []
    · cases tokens with
      | nil =>
        cases h
        simp [hopen]
      | cons => simp [advance_of_closed hopen] at h
    · simp only [if_neg hopen]
      rw [ih hopen h, List.length_cons, Nat.add_assoc, Nat.add_comm 1]

theorem evaluateFrom_of_advance_error {opening : Option Location} {e : Located Error}
    (hs : s.entries ≠ []) (h : advance constants s tokens = .error (some e)) :
    ∃ m ≤ n + tokens.length,
      evaluateFrom constants opening s n (tokens ++ rest) = (.error e, m) := by
  induction tokens generalizing s n with
  | nil => cases h
  | cons token tokens ih =>
    rw [List.cons_append, evaluateFrom]
    cases hstep : s.step constants token.value with
    | error e' =>
      rw [advance_of_step_error hs hstep] at h
      cases h
      exact ⟨n + 1, by simp, rfl⟩
    | ok t =>
      rw [advance_of_step hs hstep] at h
      by_cases hopen : t.entries = []
      · cases tokens with
        | nil => cases h
        | cons => simp [advance_of_closed hopen] at h
      · obtain ⟨m, hm, heq⟩ := ih (n := n + 1) hopen h
        refine ⟨m, by simp only [List.length_cons]; omega, ?_⟩
        simp only [if_neg hopen, heq]

/-- An evaluation that ends in a value has closed the first parenthesis with its last token. -/
theorem advance_of_evaluateFrom {opening : Option Location} {m : Nat} (hs : s.entries ≠ [])
    (h : evaluateFrom constants opening s n tokens = (.ok v, m)) :
    ∃ inner last tail s', tokens = inner ++ last :: tail ∧ m = n + inner.length + 1 ∧
      advance constants s (inner ++ [last]) = .ok s' ∧ s'.entries = [] ∧ s'.result = .ok v := by
  induction tokens generalizing s n with
  | nil => simp [evaluateFrom] at h
  | cons token tokens ih =>
    rw [evaluateFrom] at h
    cases hstep : s.step constants token.value with
    | error e => simp [hstep] at h
    | ok t =>
      simp only [hstep] at h
      by_cases hopen : t.entries = []
      · simp only [if_pos hopen, Prod.mk.injEq] at h
        obtain ⟨hv, rfl⟩ := h
        refine ⟨[], token, tokens, t, rfl, rfl, advance_of_step hs hstep, hopen, ?_⟩
        cases hr : t.result with
        | error e => simp [hr, Except.mapError] at hv
        | ok w => simpa [hr, Except.mapError] using hv
      · rw [if_neg hopen] at h
        obtain ⟨inner, last, tail, s', rfl, rfl, hadv, hrest⟩ := ih hopen h
        refine ⟨token :: inner, last, tail, s', rfl, ?_, ?_, hrest⟩
        · simp only [List.length_cons]; omega
        · rw [List.cons_append, advance_of_step hs hstep, hadv]

/-! ### One token -/

/-- Where an operand is expected, a token that is one counts for its value. -/
theorem step_operand {token : Token} (h : isOperand token = true) :
    State.step constants ⟨values, entries, true⟩ token =
      (operandValue constants token).map fun v => ⟨v :: values, entries, false⟩ := by
  cases token with
  | number digits =>
    simp only [State.step, State.operandToken, State.number, operandValue, if_true]
    cases Text.readDecimal digits <;> rfl
  | hex digits =>
    simp only [State.step, State.operandToken, operandValue, if_true]
    cases Text.readHex digits <;> rfl
  | char c => rfl
  | text content => rfl
  | word name =>
    simp only [State.step, State.operandToken, State.name, operandValue, if_true]
    cases constants.get? name with
    | none => rfl
    | some value => cases value <;> rfl
  | _ => simp [isOperand] at h

/-- What a token that is taken in does to the state. -/
inductive Takes (constants : Table Constant) : State → Token → State → Prop where
  | comment (s : State) (content : String) : Takes constants s (.comment content) s
  | opening (values : List Constant) (entries : List Entry) :
      Takes constants ⟨values, entries, true⟩ .parenOpen ⟨values, .paren :: entries, true⟩
  | operand {token : Token} {v : Constant} (values : List Constant) (entries : List Entry) :
      isOperand token = true → operandValue constants token = .ok v →
      Takes constants ⟨values, entries, true⟩ token ⟨v :: values, entries, false⟩
  | front {op : Operator} (values : List Constant) (entries : List Entry) :
      op ∈ frontOperators →
      Takes constants ⟨values, entries, true⟩ (.operator op) ⟨values, .unary op :: entries, true⟩
  | between {op : Operator} {p : Nat} {values values' : List Constant}
      {entries entries' : List Entry} :
      op.binaryPrecedence? = some p → reduce p values entries = .ok (values', entries') →
      Takes constants ⟨values, entries, false⟩ (.operator op)
        ⟨values', .binary op :: entries', true⟩
  | closing {values values' : List Constant} {entries entries' : List Entry} :
      reduce 0 values entries = .ok (values', .paren :: entries') →
      Takes constants ⟨values, entries, false⟩ .parenClose ⟨values', entries', false⟩
  | signed {op : Operator} {digits rest : String} {values : List Constant} {entries : List Entry}
      {t t' : State} :
      State.splitSign? digits = some (op, rest) →
      Takes constants ⟨values, entries, false⟩ (.operator op) t →
      Takes constants t (.number rest) t' →
      Takes constants ⟨values, entries, false⟩ (.number digits) t'

theorem operator_eq_ok (h : State.operator ⟨values, entries, false⟩ op = .ok s') :
    ∃ p values' entries', op.binaryPrecedence? = some p ∧
      reduce p values entries = .ok (values', entries') ∧
      s' = ⟨values', .binary op :: entries', true⟩ := by
  cases hp : op.binaryPrecedence? with
  | none => simp [State.operator, hp] at h
  | some p =>
    simp only [State.operator, hp, Bool.false_eq_true, if_false] at h
    obtain ⟨⟨values', entries'⟩, hr, h⟩ := except_bind_eq_ok.mp h
    cases h
    exact ⟨p, values', entries', rfl, hr, rfl⟩

theorem takes_operator (h : s.operator op = .ok s') : Takes constants s (.operator op) s' := by
  obtain ⟨values, entries, expects⟩ := s
  cases expects with
  | true =>
    by_cases hop : op.isUnary = true
    · simp only [State.operator, if_true, if_pos hop] at h
      cases h
      exact .front values entries (mem_frontOperators.mpr hop)
    · simp [State.operator, hop] at h
  | false =>
    obtain ⟨p, values', entries', hp, hr, rfl⟩ := operator_eq_ok h
    exact .between hp hr

theorem takes_close (h : s.close = .ok s') : Takes constants s .parenClose s' := by
  obtain ⟨values, entries, expects⟩ := s
  cases expects with
  | true =>
    simp only [State.close, if_true] at h
    split at h <;> cases h
  | false =>
    simp only [State.close, Bool.false_eq_true, if_false] at h
    obtain ⟨⟨values', entries'⟩, hr, h⟩ := except_bind_eq_ok.mp h
    cases entries' with
    | nil => cases h
    | cons entry entries' =>
      cases entry with
      | paren =>
        cases h
        exact .closing hr
      | _ => cases h

/-- Where an operand is complete, a number with a sign counts for two tokens. -/
theorem step_signed {digits rest : String} (hsplit : State.splitSign? digits = some (op, rest)) :
    State.step constants ⟨values, entries, false⟩ (.number digits) =
      State.step constants ⟨values, entries, false⟩ (.operator op) >>=
        (·.step constants (.number rest)) := by
  simp only [State.step, Bool.false_eq_true, if_false, State.nextToken, hsplit]
  cases hop : State.operator ⟨values, entries, false⟩ op with
  | error e => rfl
  | ok t =>
    obtain ⟨-, -, -, -, -, rfl⟩ := operator_eq_ok hop
    rfl

/-- Where an operand is expected, the tokens taken in are operands, opening parentheses and
operators in front of an operand. -/
theorem takes_of_step_expecting {token : Token}
    (h : State.step constants ⟨values, entries, true⟩ token = .ok s') :
    Takes constants ⟨values, entries, true⟩ token s' := by
  by_cases hop : isOperand token = true
  · rw [step_operand hop] at h
    obtain ⟨v, hv, rfl⟩ := except_map_eq_ok.mp h
    exact .operand values entries hop hv
  · cases token with
    | comment content =>
      cases h
      exact .comment _ content
    | parenOpen =>
      cases h
      exact .opening values entries
    | parenClose => exact takes_close h
    | operator op => exact takes_operator h
    | number | hex | char | text | word => exact absurd rfl hop
    | _ => cases h

theorem takes_of_step {token : Token} (h : s.step constants token = .ok s') :
    Takes constants s token s' := by
  obtain ⟨values, entries, expects⟩ := s
  cases expects with
  | true => exact takes_of_step_expecting h
  | false =>
    cases token with
    | comment content =>
      cases h
      exact .comment _ content
    | parenClose => exact takes_close h
    | operator op => exact takes_operator h
    | number digits =>
      cases hsplit : State.splitSign? digits with
      | none => simp [State.step, State.nextToken, hsplit] at h
      | some split =>
        obtain ⟨op, rest⟩ := split
        rw [step_signed hsplit] at h
        obtain ⟨t, ht, h⟩ := except_bind_eq_ok.mp h
        obtain ⟨p, values', entries', hp, hr, rfl⟩ := operator_eq_ok ht
        exact .signed hsplit (.between hp hr) (takes_of_step_expecting h)
    | _ => cases h

/-- Whether an operand is complete depends on the last token alone. -/
theorem Takes.completeAfter {token : Token} (h : Takes constants s token s') :
    completeAfter (!s.expectsOperand) token = !s'.expectsOperand := by
  induction h with
  | comment => rfl
  | opening => rfl
  | operand _ _ hop _ => exact completeAfter_of_isOperand hop
  | front => rfl
  | between => rfl
  | closing => rfl
  | signed _ _ _ _ ih => exact ih

/-- Neither the end of a line nor a directive is taken in. -/
theorem Takes.ne_lineEnd_and_ne_preDirective {token : Token} (h : Takes constants s token s') :
    token ≠ .lineEnd ∧ ∀ name, token ≠ .preDirective name := by
  cases h with
  | operand _ _ hop _ =>
    constructor
    · rintro rfl
      cases hop
    · rintro name rfl
      cases hop
  | _ => exact ⟨nofun, nofun⟩

/-- Every token that was taken in did something to the state. -/
theorem takes_of_mem_advance (h : advance constants s tokens = .ok s') (htoken : token ∈ tokens) :
    ∃ t t', Takes constants t token.value t' := by
  induction tokens generalizing s with
  | nil => cases htoken
  | cons first tokens ih =>
    obtain ⟨-, t, hstep, hrest⟩ := advance_cons_eq_ok.mp h
    rcases List.mem_cons.mp htoken with rfl | hmem
    · exact ⟨s, t, takes_of_step hstep⟩
    · exact ih hrest hmem

/-- An expression takes up some of the tokens, none of which ends the line or is a directive. -/
theorem taken_of_evaluate {opening : Option Location}
    (h : evaluate constants opening tokens = (.ok v, n)) :
    ∃ taken rest, tokens = taken ++ rest ∧ taken.length = n ∧
      ∀ token ∈ taken, token.value ≠ .lineEnd ∧ ∀ name, token.value ≠ .preDirective name := by
  obtain ⟨inner, last, tail, s', rfl, rfl, hadvance, -, -⟩ :=
    advance_of_evaluateFrom (by simp [State.start]) h
  refine ⟨inner ++ [last], tail, by simp, by simp, fun token htoken => ?_⟩
  obtain ⟨t, t', htakes⟩ := takes_of_mem_advance hadvance htoken
  exact htakes.ne_lineEnd_and_ne_preDirective

/-! ### Tokens as they are read -/

theorem advance_signed {loc : Option Location} {digits digits' : String} (hs : entries ≠ [])
    (hsplit : State.splitSign? digits = some (op, digits')) :
    advance constants ⟨values, entries, false⟩
        (⟨loc, .operator op⟩ :: ⟨loc, .number digits'⟩ :: tokens) =
      advance constants ⟨values, entries, false⟩ (⟨loc, .number digits⟩ :: tokens) := by
  have hstep := @step_signed constants values entries op digits digits' hsplit
  cases hop : State.step constants ⟨values, entries, false⟩ (.operator op) with
  | error e =>
    rw [hop] at hstep
    rw [advance_of_step_error hs hop, advance_of_step_error hs hstep]
    rfl
  | ok t =>
    rw [hop] at hstep
    obtain ⟨p, values', entries', -, -, rfl⟩ := operator_eq_ok hop
    rw [advance_of_step hs hop]
    simp only [advance, hs, reduceCtorEq, if_false]
    rw [hstep]
    rfl

/-- What a token is read as does what the token does. -/
theorem advance_readToken (next : Located Token) (rest : List (Located Token)) :
    advance constants s (readToken (!s.expectsOperand) token ++ next :: rest) =
      advance constants s (token :: next :: rest) := by
  obtain ⟨loc, value⟩ := token
  obtain ⟨values, entries, expects⟩ := s
  by_cases hs : entries = []
  · -- nothing is taken in any more, and some token follows either way
    have hclosed : ∀ token tokens,
        advance constants ⟨values, entries, expects⟩ (token :: tokens) = .error none :=
      fun _ _ => advance_of_closed hs
    rw [hclosed]
    cases readToken (!expects) ⟨loc, value⟩ <;> exact hclosed _ _
  · cases value with
    | comment content => exact (advance_of_step hs rfl).symm
    | number digits =>
      cases expects with
      | true => rfl
      | false =>
        cases hsplit : State.splitSign? digits with
        | none => simp [readToken, hsplit]
        | some split =>
          simp only [readToken, Bool.not_false, hsplit]
          exact advance_signed hs hsplit
    | _ => rfl

/-- What the tokens are read as does what the tokens do. -/
theorem advance_reading (next : Located Token) (rest : List (Located Token)) :
    advance constants s (reading (!s.expectsOperand) tokens ++ next :: rest) =
      advance constants s (tokens ++ next :: rest) := by
  induction tokens generalizing s with
  | nil => rfl
  | cons token tokens ih =>
    have hread : ∀ more, more ≠ [] →
        advance constants s (readToken (!s.expectsOperand) token ++ more) =
          advance constants s (token :: more) := by
      intro more hmore
      obtain ⟨next, rest, rfl⟩ := List.exists_cons_of_ne_nil hmore
      exact advance_readToken next rest
    rw [reading, List.append_assoc, hread _ (by simp), List.cons_append]
    by_cases hs : s.entries = []
    · rw [advance_of_closed hs, advance_of_closed hs]
    · cases hstep : s.step constants token.value with
      | error e => rw [advance_of_step_error hs hstep, advance_of_step_error hs hstep]
      | ok t =>
        rw [advance_of_step hs hstep, advance_of_step hs hstep,
          (takes_of_step hstep).completeAfter, ih]

end StackAsm.Expression
