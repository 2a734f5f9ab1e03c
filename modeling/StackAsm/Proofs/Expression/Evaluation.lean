import StackAsm.Proofs.Expression.Steps

/-!
# The two stacks compute the value of the tree

The evaluation with two stacks is related to the grammar in both directions. A tree that stands
where an operand is expected comes to the same as its value there, as soon as the token after it
is read (`advance_render`); and whatever the stacks hold is a tree of which a part is missing at
the right (`Reached`), so that an evaluation that ends in a value has read a tree.
-/

namespace StackAsm.Expression

variable {constants : Table Constant} {s s' : State} {next : Located Token}
  {tokens rest done : List (Located Token)} {values values' : List Constant} {entry : Entry}
  {entries entries' : List Entry} {tree : Tree} {op : Operator} {v : Constant} {k p q n : Nat}

/-! ### From a tree to its value -/

/-- The stack of operators lets a tree of the first `k` levels be read as one operand: none of
these levels applies what is on top. -/
def Waits (k : Nat) (entries : List Entry) : Prop :=
  ∀ entry ∈ entries.head?, ∀ p ∈ entry.precedence?, k = 0 ∨ p + k ≤ levels.length

theorem Waits.zero : Waits 0 entries := fun _ _ _ _ => .inl rfl

theorem Waits.of_succ (h : Waits (k + 1) entries) : Waits k entries := by
  intro entry hentry p hp
  rcases h entry hentry p hp with h | h <;> omega

theorem waits_paren : Waits k (.paren :: entries) := by
  intro entry hentry p hp
  cases hentry
  cases hp

theorem waits_binary (hp : op.binaryPrecedence? = some p) :
    Waits k (.binary op :: entries) ↔ k = 0 ∨ p + k ≤ levels.length := by
  simp [Waits, Entry.precedence?, hp]

theorem waits_unary : Waits k (.unary op :: entries) ↔ k = 0 := by
  constructor
  · intro h
    have hlt : levels.length < Operator.unaryPrecedence := by decide
    rcases h _ rfl _ rfl with h | h <;> omega
  · rintro rfl
    exact .zero

/-- An operator of the level after those that wait applies nothing. -/
theorem reduce_of_waits (h : Waits (k + 1) entries) (hp : p + k = levels.length) :
    reduce p values entries = .ok (values, entries) := by
  cases entries with
  | nil => rfl
  | cons entry entries =>
    cases hq : entry.precedence? with
    | none => simp [reduce, hq]
    | some q =>
      have hqp : q < p := by
        rcases h entry rfl q hq with h | h <;> omega
      simp [reduce, hq, hqp]

/-- Down to which precedence a token applies the waiting operators where an operand is
complete. -/
def reducesTo : Token → Option Nat
  | .parenClose => some 0
  | .operator op => op.binaryPrecedence?
  | _ => none

/-- After a tree of the first `k` levels, the token applies all of its operators. -/
def Ends (k : Nat) (token : Token) : Prop := ∃ p ∈ reducesTo token, p + k ≤ levels.length + 1

theorem ends_close (hk : k ≤ levels.length + 1) : Ends k .parenClose := ⟨0, rfl, by omega⟩

theorem ends_operator (hp : op.binaryPrecedence? = some p) (hk : p + k ≤ levels.length + 1) :
    Ends k (.operator op) := ⟨p, hp, hk⟩

theorem Ends.of_succ {token : Token} (h : Ends (k + 1) token) : Ends k token := by
  obtain ⟨p, hp, hle⟩ := h
  exact ⟨p, hp, by omega⟩

theorem reduce_cons (hq : entry.precedence? = some q) (hpq : p ≤ q) :
    reduce p values (entry :: entries) = applyEntry values entry >>= (reduce p · entries) := by
  rw [reduce, hq]
  simp only [Nat.not_lt.mpr hpq, if_false]
  cases applyEntry values entry <;> rfl

/-- A token that applies what is on top of the operators does so before anything else. -/
theorem step_cons {token : Token} (hp : reducesTo token = some p)
    (hq : entry.precedence? = some q) (hpq : p ≤ q) :
    State.step constants ⟨values, entry :: entries, false⟩ token =
      applyEntry values entry >>= fun values =>
        State.step constants ⟨values, entries, false⟩ token := by
  cases token with
  | parenClose =>
    cases hp
    simp only [State.step, State.close, Bool.false_eq_true, if_false, reduce_cons hq hpq]
    cases applyEntry values entry <;> rfl
  | operator op =>
    have hp : op.binaryPrecedence? = some p := hp
    simp only [State.step, State.operator, Bool.false_eq_true, if_false, hp, reduce_cons hq hpq]
    cases applyEntry values entry <;> rfl
  | _ => cases hp

theorem advance_cons (hn : reducesTo next.value = some p) (hq : entry.precedence? = some q)
    (hpq : p ≤ q) (hes : entries ≠ []) :
    advance constants ⟨values, entry :: entries, false⟩ (next :: rest) =
      match applyEntry values entry with
      | .error e => .error (some ⟨next.loc, e⟩)
      | .ok values => advance constants ⟨values, entries, false⟩ (next :: rest) := by
  have hstep := @step_cons constants values entry entries p q next.value hn hq hpq
  cases happly : applyEntry values entry with
  | error e =>
    rw [happly] at hstep
    exact advance_of_step_error (by simp) hstep
  | ok values' =>
    rw [happly] at hstep
    simp only [advance, hes, reduceCtorEq, if_false, hstep]
    rfl

theorem step_front (h : op ∈ frontOperators) :
    State.step constants ⟨values, entries, true⟩ (.operator op) =
      .ok ⟨values, .unary op :: entries, true⟩ := by
  simp [State.step, State.operator, mem_frontOperators.mp h]

theorem step_between (hp : op.binaryPrecedence? = some p) (hk : p + k = levels.length)
    (hw : Waits (k + 1) entries) :
    State.step constants ⟨values, entries, false⟩ (.operator op) =
      .ok ⟨values, .binary op :: entries, true⟩ := by
  simp only [State.step, State.operator, Bool.false_eq_true, if_false, hp, reduce_of_waits hw hk]
  rfl

/-- A tree comes to the same as its value in its place, once the token after it is read; and if
it has no value, its error is met first. -/
theorem advance_render (h : Derives k tree) (hes : entries ≠ []) (hw : Waits k entries)
    (hn : Ends k next.value) :
    advance constants ⟨values, entries, true⟩ (tree.render ++ next :: rest) =
      match tree.eval constants next.loc with
      | .error e => .error (some e)
      | .ok v => advance constants ⟨v :: values, entries, false⟩ (next :: rest) := by
  induction h generalizing values entries next rest with
  | @leaf token hop =>
    have hstep := @step_operand constants values entries token.value hop
    cases hv : operandValue constants token.value with
    | error e =>
      rw [hv] at hstep
      simp only [Tree.eval, hv, Except.mapError]
      exact advance_of_step_error hes hstep
    | ok v =>
      rw [hv] at hstep
      simp only [Tree.eval, hv, Except.mapError]
      exact advance_of_step hes hstep
  | @paren inner opening closing _ ih =>
    have hopen : advance constants ⟨values, entries, true⟩
        ((Tree.paren opening inner closing).render ++ next :: rest) =
        advance constants ⟨values, .paren :: entries, true⟩
          (inner.render ++ ⟨closing, .parenClose⟩ :: next :: rest) := by
      simp only [Tree.render, List.cons_append, List.append_assoc, List.nil_append]
      exact advance_of_step hes rfl
    rw [hopen, ih (by simp) waits_paren (ends_close (by simp))]
    simp only [Tree.eval]
    cases inner.eval constants closing with
    | error e => rfl
    | ok v => exact advance_of_step (by simp) rfl
  | @unary op operand loc hop _ ih =>
    obtain ⟨p, hp, hle⟩ := hn
    have hpq : p ≤ Operator.unaryPrecedence := hle
    rw [Tree.render, List.cons_append, advance_of_step hes (step_front hop),
      ih (by simp) .zero ⟨p, hp, hle⟩, Tree.eval]
    cases operand.eval constants next.loc with
    | error e => rfl
    | ok v =>
      simp only [Bind.bind, Except.bind]
      rw [advance_cons hp rfl hpq hes]
      simp only [applyEntry]
      cases applyUnary op v <;> rfl
  | @binary k ops op left right loc hk hop _ _ ihl ihr =>
    obtain ⟨q, hq, hqk⟩ := precedence_of_mem_level hk hop
    obtain ⟨p, hp, hle⟩ := hn
    -- the operator itself is the token after its left operand
    have hleft := @ihl ⟨loc, .operator op⟩ (right.render ++ next :: rest) values entries hes hw
      (ends_operator hq (by omega))
    rw [Tree.render, List.append_assoc, List.cons_append, hleft, Tree.eval]
    cases left.eval constants loc with
    | error e => rfl
    | ok l =>
      -- on its right the operator takes tighter levels only, so it is on top until `next`
      simp only [Bind.bind, Except.bind]
      rw [advance_of_step hes (step_between hq hqk hw),
        ihr (by simp) ((waits_binary hq).mpr (by omega)) ⟨p, hp, by omega⟩]
      cases right.eval constants next.loc with
      | error e => rfl
      | ok r =>
        simp only
        have htop : (Entry.binary op).precedence? = some q := hq
        rw [advance_cons hp htop (by omega) hes]
        simp only [applyEntry]
        cases applyBinary op l r <;> rfl
  | looser _ ih => exact ih hes hw.of_succ hn.of_succ

/-! ### From the stacks to a tree -/

/-- Where an operand is expected, the stacks hold a tree that lacks this operand and what follows
it: `done` are its tokens up to here, after the first parenthesis. -/
inductive Pending (constants : Table Constant) :
    List Entry → List Constant → List (Located Token) → Prop where
  | start : Pending constants [.paren] [] []
  | paren {entries : List Entry} {values : List Constant} {done : List (Located Token)}
      (loc : Option Location) : Pending constants entries values done →
      Pending constants (.paren :: entries) values (done ++ [⟨loc, .parenOpen⟩])
  | unary {op : Operator} {entries : List Entry} {values : List Constant}
      {done : List (Located Token)} (loc : Option Location) :
      op ∈ frontOperators → Pending constants entries values done →
      Pending constants (.unary op :: entries) values (done ++ [⟨loc, .operator op⟩])
  | binary {k : Nat} {ops : List Operator} {op : Operator} {left : Tree} {l : Constant}
      {entries : List Entry} {values : List Constant} {done : List (Located Token)}
      (loc : Option Location) :
      levels[k]? = some ops → op ∈ ops → Derives (k + 1) left → left.eval constants loc = .ok l →
      Waits (k + 1) entries → Pending constants entries values done →
      Pending constants (.binary op :: entries) (l :: values)
        (done ++ (left.render ++ [⟨loc, .operator op⟩]))

/-- The stacks hold such a tree and, as the latest value, that of a tree of the first `k` levels
in the missing place, if a token at `loc` follows. -/
def Filled (constants : Table Constant) (loc : Option Location) (k : Nat) (entries : List Entry)
    (values : List Constant) (done : List (Located Token)) : Prop :=
  ∃ tree v below before, values = v :: below ∧ done = before ++ tree.render ∧
    Pending constants entries below before ∧ Waits k entries ∧ Derives k tree ∧
    tree.eval constants loc = .ok v

theorem Entry.precedence?_pos (h : entry.precedence? = some q) : 0 < q := by
  cases entry with
  | paren => cases h
  | unary op =>
    cases h
    decide
  | binary op => cases op <;> cases h <;> decide

/-- Every operator binds tighter than a closing parenthesis. -/
theorem reduce_zero : reduce 0 values entries = reduce 1 values entries := by
  induction entries generalizing values with
  | nil => rfl
  | cons entry entries ih =>
    cases hq : entry.precedence? with
    | none => simp only [reduce, hq]
    | some q =>
      have hpos := Entry.precedence?_pos hq
      rw [reduce_cons hq (Nat.zero_le q), reduce_cons hq hpos]
      exact congrArg _ (funext fun _ => ih)

/-- Applying the waiting operators of the first `k + 1` levels turns the latest value into that of
a larger tree. -/
theorem Filled.reduce {loc : Option Location} {j : Nat}
    (h : Filled constants loc j entries values done) (hj : j ≤ k + 1) (hp : p + k = levels.length)
    (hr : reduce p values entries = .ok (values', entries')) :
    Filled constants loc (k + 1) entries' values' done := by
  induction entries generalizing j values with
  | nil =>
    obtain ⟨_, _, _, _, _, _, hpending, _⟩ := h
    cases hpending
  | cons entry entries ih =>
    obtain ⟨tree, v, below, before, rfl, rfl, hpending, hw, htree, hv⟩ := h
    cases hpending with
    | start =>
      cases hr
      exact ⟨tree, v, [], [], rfl, rfl, .start, waits_paren, htree.mono hj, hv⟩
    | paren opening hpending =>
      cases hr
      exact ⟨tree, v, _, _, rfl, rfl, hpending.paren opening, waits_paren, htree.mono hj, hv⟩
    | @unary op _ _ before front hop hpending =>
      obtain rfl := waits_unary.mp hw
      have hle : p ≤ Operator.unaryPrecedence :=
        Nat.le_trans (by omega) (show levels.length ≤ Operator.unaryPrecedence by decide)
      rw [reduce_cons (q := Operator.unaryPrecedence) rfl hle] at hr
      obtain ⟨values'', happly, hr⟩ := except_bind_eq_ok.mp hr
      obtain ⟨w, hw', rfl⟩ := except_map_eq_ok.mp happly
      refine ih ?_ (Nat.zero_le _) hr
      refine ⟨.unary front op tree, w, below, before, rfl, ?_, hpending, .zero,
        .unary front hop htree, ?_⟩
      · simp [Tree.render]
      · exact except_bind_eq_ok.mpr ⟨v, hv, except_mapError_eq_ok.mpr hw'⟩
    | @binary k' ops op left l _ below before opLoc hk hop hleft hl hwaits hpending =>
      obtain ⟨q, hq, hqk⟩ := precedence_of_mem_level hk hop
      have htop : (Entry.binary op).precedence? = some q := hq
      have hjk : j ≤ k' := by
        rcases (waits_binary hq).mp hw with h | h <;> omega
      by_cases hlt : q < p
      · -- the operator on top is of a looser level
        rw [StackAsm.Expression.reduce, htop] at hr
        simp only [if_pos hlt] at hr
        cases hr
        exact ⟨tree, v, _, _, rfl, rfl, hpending.binary opLoc hk hop hleft hl hwaits,
          (waits_binary hq).mpr (by omega), htree.mono hj, hv⟩
      · rw [reduce_cons htop (Nat.not_lt.mp hlt)] at hr
        obtain ⟨values'', happly, hr⟩ := except_bind_eq_ok.mp hr
        obtain ⟨w, hw', rfl⟩ := except_map_eq_ok.mp happly
        refine ih (j := k' + 1) ?_ (by omega) hr
        refine ⟨.binary left opLoc op tree, w, below, before, rfl, ?_, hpending, hwaits,
          .binary opLoc hk hop hleft (htree.mono hjk), ?_⟩
        · simp [Tree.render]
        · exact except_bind_eq_ok.mpr ⟨l, hl, except_bind_eq_ok.mpr
            ⟨v, hv, except_mapError_eq_ok.mpr hw'⟩⟩

/-- The states that the tokens `done` after the first parenthesis lead to. -/
inductive Reached (constants : Table Constant) : State → List (Located Token) → Prop where
  | expecting {entries : List Entry} {values : List Constant} {done : List (Located Token)} :
      Pending constants entries values done → Reached constants ⟨values, entries, true⟩ done
  | complete {entries : List Entry} {values : List Constant} {done : List (Located Token)} :
      (∀ loc, Filled constants loc 0 entries values done) →
      Reached constants ⟨values, entries, false⟩ done

theorem Pending.entries_ne_nil (h : Pending constants entries values done) : entries ≠ [] := by
  cases h <;> simp

theorem Reached.entries_ne_nil (h : Reached constants s done) : s.entries ≠ [] := by
  cases h with
  | expecting h => exact h.entries_ne_nil
  | complete h =>
    obtain ⟨_, _, _, _, _, _, hpending, _⟩ := h none
    exact hpending.entries_ne_nil

/-- The first parenthesis is closed by a token at `loc`, with the value of a tree that has the
tokens `done`. -/
def Closed (constants : Table Constant) (loc : Option Location) (s : State)
    (done : List (Located Token)) : Prop :=
  ∃ tree v, s = ⟨[v], [], false⟩ ∧ done = tree.render ∧ Derives levels.length tree ∧
    tree.eval constants loc = .ok v

/-- One step: an operand, or an operator that waits for one, is added to the tree. -/
theorem Reached.takes {token : Token} (loc : Option Location) (h : Reached constants s done)
    (ht : Takes constants s token s') :
    Reached constants s' (done ++ readToken (!s.expectsOperand) ⟨loc, token⟩) ∨
      token = .parenClose ∧ Closed constants loc s' done := by
  induction ht generalizing done with
  | comment s content =>
    left
    simpa [readToken] using h
  | opening values entries =>
    left
    cases h with
    | expecting hpending => exact .expecting (hpending.paren loc)
  | @operand token v values entries hop hv =>
    left
    have hread : readToken false ⟨loc, token⟩ = [⟨loc, token⟩] := readToken_of_isOperand hop
    cases h with
    | expecting hpending =>
      refine .complete fun next => ?_
      exact ⟨.leaf ⟨loc, token⟩, v, values, done, rfl, by simp [hread, Tree.render], hpending,
        .zero, .leaf hop, by simp [Tree.eval, hv, Except.mapError]⟩
  | front values entries hop =>
    left
    cases h with
    | expecting hpending => exact .expecting (hpending.unary loc hop)
  | between hp hr =>
    left
    cases h with
    | complete hfilled =>
      obtain ⟨k, ops, hk, hop, hpk⟩ := mem_level_of_precedence hp
      obtain ⟨tree, l, below, before, rfl, rfl, hpending, hw, htree, hl⟩ :=
        (hfilled loc).reduce (Nat.zero_le _) hpk hr
      rw [List.append_assoc]
      exact .expecting (hpending.binary loc hk hop htree hl hw)
  | closing hr =>
    cases h with
    | complete hfilled =>
      rw [reduce_zero] at hr
      obtain ⟨tree, v, below, before, rfl, rfl, hpending, -, htree, hv⟩ :=
        (hfilled loc).reduce (k := levels.length - 1) (Nat.zero_le _) rfl hr
      cases hpending with
      | start => exact .inr ⟨rfl, tree, v, rfl, rfl, htree, hv⟩
      | paren opening hpending =>
        left
        refine .complete fun next => ?_
        exact ⟨.paren opening tree loc, v, below, _, rfl, by simp [readToken, Tree.render],
          hpending, .zero, .paren opening loc htree, hv⟩
  | @signed op digits rest values entries t t' hsplit htop htdigits ihop ihdigits =>
    left
    have hexpects : t.expectsOperand = true := by
      have hafter := htop.completeAfter
      simpa [completeAfter, isOperand] using hafter.symm
    rcases ihop h with h | ⟨h, -⟩
    · rcases ihdigits h with h | ⟨h, -⟩
      · simpa [readToken, hsplit, hexpects, Located.withValue] using h
      · cases h
    · cases h

/-- A run: an evaluation that closes the first parenthesis has read a tree. -/
theorem Reached.closed {last : Located Token} (h : Reached constants s done)
    (hadv : advance constants s (tokens ++ [last]) = .ok s') (hclosed : s'.entries = []) :
    last.value = .parenClose ∧
      Closed constants last.loc s' (done ++ reading (!s.expectsOperand) tokens) := by
  induction tokens generalizing s done with
  | nil =>
    obtain ⟨-, t, ht, hadv⟩ := advance_cons_eq_ok.mp hadv
    cases hadv
    rcases h.takes last.loc (takes_of_step ht) with h | h
    · exact absurd hclosed h.entries_ne_nil
    · simpa [reading] using h
  | cons token tokens ih =>
    obtain ⟨-, t, ht, hadv⟩ := advance_cons_eq_ok.mp hadv
    have htakes := takes_of_step ht
    rcases h.takes token.loc htakes with h | ⟨-, hend⟩
    · have hrest := ih h hadv
      rwa [List.append_assoc, ← htakes.completeAfter] at hrest
    · -- nothing can follow the closing parenthesis
      obtain ⟨_, _, rfl, -⟩ := hend
      cases tokens <;> cases hadv

/-! ### The value of an expression -/

/-- Tokens that write a tree and the closing parenthesis after them lead to the value of the
tree, or to its error. -/
theorem advance_writes {closing : Option Location} (h : Writes tokens tree) :
    advance constants .start (tokens ++ [⟨closing, .parenClose⟩]) =
      match tree.eval constants closing with
      | .error e => .error (some e)
      | .ok v => .ok ⟨[v], [], false⟩ := by
  have hread := @advance_reading constants .start tokens ⟨closing, .parenClose⟩ []
  have hfalse : (!State.start.expectsOperand) = false := rfl
  rw [← hread, hfalse, h.2]
  exact advance_render h.1 (by simp) waits_paren (ends_close (by simp))

theorem writes_of_evaluate {opening : Option Location}
    (h : evaluate constants opening tokens = (.ok v, n)) :
    ∃ inner closing tail tree, tokens = inner ++ ⟨closing, .parenClose⟩ :: tail ∧
      n = inner.length + 1 ∧ Writes inner tree ∧ tree.eval constants closing = .ok v := by
  obtain ⟨inner, ⟨closing, value⟩, tail, s', rfl, rfl, hadv, hclosed, hv⟩ :=
    advance_of_evaluateFrom (by simp [State.start]) h
  obtain ⟨hlast, tree, w, rfl, hrender, htree, hw⟩ :=
    (Reached.expecting .start).closed hadv hclosed
  obtain rfl : value = .parenClose := hlast
  refine ⟨inner, closing, tail, tree, rfl, by omega, ⟨htree, hrender⟩, ?_⟩
  cases w with
  | empty => exact absurd hw Tree.eval_ne_empty
  | number m =>
    cases hv
    exact hw
  | text t =>
    cases hv
    exact hw

theorem result_of_ne_empty (hv : v ≠ .empty) : State.result ⟨[v], [], false⟩ = .ok v := by
  cases v with
  | empty => exact absurd rfl hv
  | number m => rfl
  | text t => rfl

/-- **The two stacks implement the grammar**: an evaluation ends in a value exactly if the tokens
up to a closing parenthesis write a tree and this is the value of the tree. If they write a tree
that has no value, the evaluation fails with the error that the tree meets first. -/
theorem evaluate_iff_writes (constants : Table Constant) (opening : Option Location)
    (tokens : List (Located Token)) :
    (∀ v n, evaluate constants opening tokens = (.ok v, n) ↔
      ∃ inner closing tail tree, tokens = inner ++ ⟨closing, .parenClose⟩ :: tail ∧
        n = inner.length + 1 ∧ Writes inner tree ∧ tree.eval constants closing = .ok v) ∧
    ∀ inner closing tail tree e, tokens = inner ++ ⟨closing, .parenClose⟩ :: tail →
      Writes inner tree → tree.eval constants closing = .error e →
      ∃ n ≤ inner.length + 1, evaluate constants opening tokens = (.error e, n) := by
  have hopen : State.start.entries ≠ [] := by simp [State.start]
  refine ⟨fun v n => ⟨writes_of_evaluate, ?_⟩, ?_⟩
  · rintro ⟨inner, closing, tail, tree, rfl, rfl, hwrites, hv⟩
    have hadv := @advance_writes constants inner tree closing hwrites
    rw [hv] at hadv
    have hne : v ≠ .empty := fun h => Tree.eval_ne_empty (h ▸ hv)
    have heval := @evaluateFrom_of_advance constants .start _ _ tail 0 opening hopen hadv rfl
    rw [result_of_ne_empty hne, List.append_assoc] at heval
    simpa [evaluate, Except.mapError] using heval
  · rintro inner closing tail tree e rfl hwrites he
    have hadv := @advance_writes constants inner tree closing hwrites
    rw [he] at hadv
    obtain ⟨n, hn, heval⟩ :=
      @evaluateFrom_of_advance_error constants .start _ tail 0 opening e hopen hadv
    rw [List.append_assoc] at heval
    exact ⟨n, by simpa using hn, heval⟩

/-- `7 -3 * 2` with a comment, as it stands in a source: the sign belongs to the number. -/
def sampleTokens : List (Located Token) :=
  [.nowhere (.number "7"), .nowhere (.number "-3"), .nowhere (.operator .times),
   .nowhere (.comment "twice"), .nowhere (.number "2")]

/-- The tree of `7 - 3 * 2`. -/
def sampleTree : Tree :=
  .binary (.leaf (.nowhere (.number "7"))) none .minus
    (.binary (.leaf (.nowhere (.number "3"))) none .times (.leaf (.nowhere (.number "2"))))

/-- `~ "t" + x`, where the complement already fails. -/
def failingTokens : List (Located Token) :=
  [.nowhere (.operator .complement), .nowhere (.text "t"), .nowhere (.operator .plus),
   .nowhere (.word "x")]

/-- The tree of `(~ "t") + x`. -/
def failingTree : Tree :=
  .binary (.unary none .complement (.leaf (.nowhere (.text "t")))) none .plus
    (.leaf (.nowhere (.word "x")))

theorem evaluate_iff_writes_sample :
    Writes sampleTokens sampleTree ∧ Writes failingTokens failingTree ∧
    evaluate .empty none (sampleTokens ++ [⟨none, .parenClose⟩]) = (.ok (.number 1), 6) ∧
    ∃ n ≤ 5, evaluate .empty none (failingTokens ++ [⟨none, .parenClose⟩]) =
      (.error ⟨none, .invalidOperation .complement⟩, n) := by
  have hsample : Writes sampleTokens sampleTree := by
    refine ⟨Derives.mono (k := 2) ?_ (by decide), by decide +kernel⟩
    have hproduct : Derives 1 (.binary (.leaf (.nowhere (.number "3"))) none .times
        (.leaf (.nowhere (.number "2")))) :=
      .binary none rfl (by decide) (.looser (.leaf rfl)) (.leaf rfl)
    exact .binary none rfl (by decide) (.looser (.looser (.leaf rfl))) hproduct
  have hfailing : Writes failingTokens failingTree := by
    refine ⟨Derives.mono (k := 2) ?_ (by decide), by decide +kernel⟩
    have hfront : Derives 0 (.unary none .complement (.leaf (.nowhere (.text "t")))) :=
      .unary none (by decide) (.leaf rfl)
    exact .binary none rfl (by decide) (hfront.mono (by decide)) (.looser (.leaf rfl))
  refine ⟨hsample, hfailing, ?_, ?_⟩
  · exact ((evaluate_iff_writes .empty none _).1 _ _).mpr
      ⟨sampleTokens, none, [], sampleTree, rfl, rfl, hsample, by decide +kernel⟩
  · exact (evaluate_iff_writes .empty none _).2 failingTokens none [] failingTree _ rfl hfailing
      (by decide +kernel)

end StackAsm.Expression
