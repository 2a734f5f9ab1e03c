import StackAsm.Expression
import StackAsm.Proofs.Effects

/-!
# The grammar of expressions

An expression is a tree: literals and names at the leaves, operators at the nodes, and any tree
between parentheses as an operand. Ten levels of operators between two operands say which trees a
sequence of tokens can stand for: an operator takes trees of its own level on its left and of the
tighter levels on its right, so every level associates to the left. Operators in front of one
operand bind tighter than all of these.

A tree is evaluated left to right, the operands before their operator. A node is applied when the
token after its last operand is there to be read, and that is where its error is reported.
-/

namespace StackAsm.Expression

/-! ### Trees -/

/-- The tree of an expression. Of every token it keeps the place. -/
inductive Tree where
  /-- A literal or a name. -/
  | leaf (token : Located Token)
  /-- A tree between parentheses. -/
  | paren (opening : Option Location) (inner : Tree) (closing : Option Location)
  /-- An operator in front of its operand. -/
  | unary (loc : Option Location) (op : Operator) (operand : Tree)
  /-- An operator between its operands. -/
  | binary (left : Tree) (loc : Option Location) (op : Operator) (right : Tree)
  deriving DecidableEq, Repr

/-- The tokens of a tree. -/
def Tree.render : Tree → List (Located Token)
  | leaf token => [token]
  | paren opening inner closing => ⟨opening, .parenOpen⟩ :: inner.render ++ [⟨closing, .parenClose⟩]
  | unary loc op operand => ⟨loc, .operator op⟩ :: operand.render
  | binary left loc op right => left.render ++ ⟨loc, .operator op⟩ :: right.render

/-- Whether a token is an operand of its own. -/
def isOperand : Token → Bool
  | .number _ | .hex _ | .char _ | .text _ | .word _ => true
  | _ => false

/-- The operators in front of one operand. -/
def frontOperators : List Operator := [.plus, .minus, .complement, .negation]

/-- The operators between two operands, level by level, the tightest first. -/
def levels : List (List Operator) :=
  [[.times, .divide, .modulo],
   [.plus, .minus],
   [.shiftLeft, .shiftRight],
   [.less, .lessEq, .greater, .greaterEq],
   [.equal, .notEqual],
   [.bitAnd],
   [.bitXor],
   [.bitOr],
   [.logicalAnd],
   [.logicalOr]]

/-- The trees in which the operators outside of parentheses are those in front of an operand and
those of the first `n` levels. -/
inductive Derives : Nat → Tree → Prop where
  | leaf {token : Located Token} : isOperand token.value → Derives 0 (.leaf token)
  | paren {inner : Tree} (opening closing : Option Location) :
      Derives levels.length inner → Derives 0 (.paren opening inner closing)
  | unary {op : Operator} {operand : Tree} (loc : Option Location) :
      op ∈ frontOperators → Derives 0 operand → Derives 0 (.unary loc op operand)
  | binary {k : Nat} {ops : List Operator} {op : Operator} {left right : Tree}
      (loc : Option Location) :
      levels[k]? = some ops → op ∈ ops → Derives (k + 1) left → Derives k right →
      Derives (k + 1) (.binary left loc op right)
  | looser {k : Nat} {tree : Tree} : Derives k tree → Derives (k + 1) tree

theorem Derives.mono {k n : Nat} {tree : Tree} (h : Derives k tree) (hkn : k ≤ n) :
    Derives n tree := by
  induction hkn with
  | refl => exact h
  | step _ ih => exact ih.looser

/-! ### Precedences and levels -/

theorem mem_frontOperators {op : Operator} : op ∈ frontOperators ↔ op.isUnary = true := by
  cases op <;> decide

/-- The precedences count the levels from the loosest. -/
theorem precedence_of_mem_level {k : Nat} {ops : List Operator} {op : Operator}
    (hk : levels[k]? = some ops) (hop : op ∈ ops) :
    ∃ p, op.binaryPrecedence? = some p ∧ p + k = levels.length := by
  have hlt : k < levels.length := (List.getElem?_eq_some_iff.mp hk).1
  have hall : ∀ j < levels.length, ∀ op ∈ (levels[j]?).getD [],
      op.binaryPrecedence? = some (levels.length - j) := by decide
  refine ⟨levels.length - k, hall k hlt op (by simpa [hk] using hop), by omega⟩

theorem mem_level_of_precedence {op : Operator} {p : Nat} (h : op.binaryPrecedence? = some p) :
    ∃ k ops, levels[k]? = some ops ∧ op ∈ ops ∧ p + k = levels.length := by
  obtain ⟨hmem, hpos, hle⟩ :
      op ∈ (levels[levels.length - p]?).getD [] ∧ 0 < p ∧ p ≤ levels.length := by
    cases op <;> cases h <;> decide
  obtain ⟨ops, hops⟩ : ∃ ops, levels[levels.length - p]? = some ops :=
    ⟨_, List.getElem?_eq_getElem (by omega)⟩
  exact ⟨levels.length - p, ops, hops, by simpa [hops] using hmem, by omega⟩

/-! ### Values -/

/-- The value of a literal or of a name; a name must have one. -/
def operandValue (constants : Table Constant) : Token → Except Error Constant
  | .number digits =>
    match Text.readDecimal digits with
    | .ok n => .ok (.number n)
    | .error _ => .error (.malformedNumber digits)
  | .hex digits =>
    match Text.readHex digits with
    | .ok n => .ok (.number n)
    | .error _ => .error (.malformedNumber digits)
  | .char c => .ok (.number (Int64.ofNat c.toNat))
  | .text content => .ok (.text content)
  | .word name =>
    match constants.get? name with
    | none | some .empty => .error (.unknownConstant name)
    | some value => .ok value
  | token => .error (.unexpectedToken token.source)

/-- The value of a tree after which a token at `next` follows. -/
def Tree.eval (constants : Table Constant) :
    Tree → (next : Option Location) → Except (Located Error) Constant
  | leaf token, _ => (operandValue constants token.value).mapError token.withValue
  | paren _ inner closing, _ => inner.eval constants closing
  | unary _ op operand, next => do
    let value ← operand.eval constants next
    (applyUnary op value).mapError (⟨next, ·⟩)
  | binary left loc op right, next => do
    let l ← left.eval constants loc
    let r ← right.eval constants next
    (applyBinary op l r).mapError (⟨next, ·⟩)

variable {constants : Table Constant} {op : Operator} {v : Constant}

theorem operandValue_ne_empty {token : Token} : operandValue constants token ≠ .ok .empty := by
  cases token with
  | number digits => cases h : Text.readDecimal digits <;> simp [operandValue, h]
  | hex digits => cases h : Text.readHex digits <;> simp [operandValue, h]
  | word name =>
    cases h : constants.get? name with
    | none => simp [operandValue, h]
    | some value => cases value <;> simp [operandValue, h]
  | _ => simp [operandValue]

theorem applyUnary_ne_empty : applyUnary op v ≠ .ok .empty := by
  cases v with
  | number n => cases op <;> simp [applyUnary]
  | _ => simp [applyUnary]

theorem applyTextual_ne_empty {l r : String} : applyTextual op l r ≠ .ok .empty := by
  cases op <;> simp [applyTextual]

theorem applyBinary_ne_empty {l r : Constant} : applyBinary op l r ≠ .ok .empty := by
  cases l with
  | empty => cases r <;> simp [applyBinary]
  | number l =>
    cases r with
    | empty => simp [applyBinary]
    | number r => cases h : applyNumeric op l r <;> simp [applyBinary, h, Except.map]
    | text r => exact applyTextual_ne_empty
  | text l =>
    cases r with
    | empty => simp [applyBinary]
    | number r => exact applyTextual_ne_empty
    | text r => exact applyTextual_ne_empty

/-- An expression that has a value has one that is something. -/
theorem Tree.eval_ne_empty {tree : Tree} {loc : Option Location} :
    tree.eval constants loc ≠ .ok .empty := by
  induction tree generalizing loc with
  | leaf token =>
    intro h
    exact operandValue_ne_empty (except_mapError_eq_ok.mp h)
  | paren opening inner closing ih => exact ih
  | unary _ op operand _ =>
    intro h
    obtain ⟨v, -, h⟩ := except_bind_eq_ok.mp h
    exact applyUnary_ne_empty (except_mapError_eq_ok.mp h)
  | binary left _ op right _ _ =>
    intro h
    obtain ⟨l, -, h⟩ := except_bind_eq_ok.mp h
    obtain ⟨r, -, h⟩ := except_bind_eq_ok.mp h
    exact applyBinary_ne_empty (except_mapError_eq_ok.mp h)

/-! ### Tokens as they are read -/

/-- Whether an operand is complete after a token, given whether one is before it. -/
def completeAfter (complete : Bool) : Token → Bool
  | .comment _ => complete
  | .parenClose => true
  | token => isOperand token

theorem completeAfter_of_isOperand {complete : Bool} {token : Token} (h : isOperand token = true) :
    completeAfter complete token = true := by
  cases token with
  | number | hex | char | text | word => rfl
  | _ => cases h

/-- What a token is read as: a comment as nothing, and a number with a sign as an operator and
the digits if an operand is complete before it. -/
def readToken (complete : Bool) (token : Located Token) : List (Located Token) :=
  match token.value with
  | .comment _ => []
  | .number digits =>
    match complete, State.splitSign? digits with
    | true, some (op, rest) => [token.withValue (.operator op), token.withValue (.number rest)]
    | _, _ => [token]
  | _ => [token]

theorem readToken_of_isOperand {loc : Option Location} {token : Token}
    (h : isOperand token = true) : readToken false ⟨loc, token⟩ = [⟨loc, token⟩] := by
  cases token with
  | number | hex | char | text | word => rfl
  | _ => cases h

/-- What the tokens are read as; `complete` says whether an operand is complete before them. -/
def reading (complete : Bool) : List (Located Token) → List (Located Token)
  | [] => []
  | token :: tokens =>
    readToken complete token ++ reading (completeAfter complete token.value) tokens

/-- The tokens are a way to write the tree. -/
def Writes (tokens : List (Located Token)) (tree : Tree) : Prop :=
  Derives levels.length tree ∧ reading false tokens = tree.render

end StackAsm.Expression
