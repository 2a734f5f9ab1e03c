import StackAsm.Constant
import StackAsm.ErrorClass
import StackAsm.Table
import StackAsm.Token

/-!
# Expressions

An expression stands between parentheses and is evaluated while it is read, with one stack for the
values and one for the operators that wait for their right operand. Numbers wrap around at 64 bits;
texts can be joined, shortened and compared, and a number beside a text counts as its numeral.

There is no tree of an expression and no grammar: which tree an expression has, and that its value
is that of the tree, is a matter of proof. The stacks have no bound. What is reported of an
expression is left to `StackAsm.Expansion`.
-/

namespace StackAsm.Expression

/-! ### Errors -/

/-- Why an expression has no value. -/
inductive Error where
  /-- A parenthesis is missing. -/
  | unbalanced
  /-- There is nothing between two parentheses. -/
  | empty
  /-- The operator does not apply to operands of this kind. -/
  | invalidOperation (op : Operator)
  /-- The operator lacks its right operand. -/
  | missingOperand (op : Operator)
  | divisionByZero
  /-- The name has no value. -/
  | unknownConstant (name : String)
  /-- The token, given by its source, cannot stand here. -/
  | unexpectedToken (source : String)
  /-- The digits are out of range. -/
  | malformedNumber (digits : String)
  deriving DecidableEq, Repr

/-- The class of an error. -/
def Error.errorClass : Error → ErrorClass
  | .malformedNumber _ => .lexical
  | .unknownConstant _ => .reference
  | _ => .expression

/-- The wording of an error. -/
def Error.message : Error → String
  | .unbalanced => "Unbalanced parentheses in expression"
  | .empty => "Expression is invalid or empty"
  | .invalidOperation op => "Operator '" ++ op.text ++ "' cannot be applied to these operands"
  | .missingOperand op => "Missing operand for operator '" ++ op.text ++ "'"
  | .divisionByZero => "Division by zero"
  | .unknownConstant name => "Unknown constant '" ++ name ++ "'"
  | .unexpectedToken source => "Unexpected token in expression: '" ++ source ++ "'"
  | .malformedNumber digits => "Malformed numeric literal '" ++ digits ++ "'"

/-! ### Operators -/

/-- One for true and zero for false. -/
def ofBool (b : Bool) : Int64 := if b then 1 else 0

/-- The value of an operator in front of its operand. -/
def applyUnary (op : Operator) : Constant → Except Error Constant
  | .number n =>
    match op with
    | .minus => .ok (.number (-n))
    | .plus => .ok (.number n)
    | .complement => .ok (.number (~~~n))
    | .negation => .ok (.number (ofBool (n == 0)))
    | _ => .error (.invalidOperation op)
  | _ => .error (.invalidOperation op)

/-- The value of an operator between two numbers. Division truncates; a shift counts its distance
modulo 64. -/
def applyNumeric (op : Operator) (l r : Int64) : Except Error Int64 :=
  match op with
  | .plus => .ok (l + r)
  | .minus => .ok (l - r)
  | .times => .ok (l * r)
  | .divide => if r = 0 then .error .divisionByZero else .ok (l / r)
  | .modulo => if r = 0 then .error .divisionByZero else .ok (l % r)
  | .bitAnd => .ok (l &&& r)
  | .bitOr => .ok (l ||| r)
  | .bitXor => .ok (l ^^^ r)
  | .shiftLeft => .ok (l <<< r)
  | .shiftRight => .ok (l >>> r)
  | .less => .ok (ofBool (l < r))
  | .lessEq => .ok (ofBool (l ≤ r))
  | .greater => .ok (ofBool (r < l))
  | .greaterEq => .ok (ofBool (r ≤ l))
  | .equal => .ok (ofBool (l == r))
  | .notEqual => .ok (ofBool (l != r))
  | .logicalAnd => .ok (ofBool (l != 0 && r != 0))
  | .logicalOr => .ok (ofBool (l != 0 || r != 0))
  | .complement | .negation => .error (.invalidOperation op)

/-- The text without its ending, if that is how it ends. -/
def dropEnding (s ending : String) : String :=
  if ending.toList.isSuffixOf s.toList then
    String.ofList (s.toList.take (s.toList.length - ending.toList.length))
  else s

/-- Adds to `done`, last first, the characters `cs` without the occurrences of `part`, from the
left and without overlap. -/
def removeInto (part done cs : List Char) : List Char :=
  match cs with
  | [] => done.reverse
  | c :: rest =>
    if part ≠ [] ∧ part.isPrefixOf cs then removeInto part done (rest.drop (part.length - 1))
    else removeInto part (c :: done) rest
termination_by cs.length
decreasing_by all_goals simp; try omega

/-- The text without the occurrences of a part; an empty part is removed nowhere. -/
def removeAll (s part : String) : String := String.ofList (removeInto part.toList [] s.toList)

/-- The value of an operator between two texts. -/
def applyTextual (op : Operator) (l r : String) : Except Error Constant :=
  match op with
  | .plus => .ok (.text (l ++ r))
  | .minus => .ok (.text (dropEnding l r))
  | .divide => .ok (.text (removeAll l r))
  | .equal => .ok (.number (ofBool (l == r)))
  | .notEqual => .ok (.number (ofBool (l != r)))
  | _ => .error (.invalidOperation op)

/-- The value of an operator between two operands. -/
def applyBinary (op : Operator) : Constant → Constant → Except Error Constant
  | .number l, .number r => (applyNumeric op l r).map .number
  | .text l, .text r => applyTextual op l r
  | .text l, .number r => applyTextual op l (Text.decimal r)
  | .number l, .text r => applyTextual op (Text.decimal l) r
  | _, _ => .error (.invalidOperation op)

/-! ### The two stacks -/

/-- What waits on the stack of operators. -/
inductive Entry where
  /-- An open parenthesis. -/
  | paren
  /-- An operator in front of its operand. -/
  | unary (op : Operator)
  /-- An operator between two operands. -/
  | binary (op : Operator)
  deriving DecidableEq, Repr

/-- How tightly an entry binds; a parenthesis binds nothing. -/
def Entry.precedence? : Entry → Option Nat
  | paren => none
  | unary _ => some Operator.unaryPrecedence
  | binary op => op.binaryPrecedence?

/-- The state of an evaluation between two tokens. -/
structure State where
  /-- The values so far, the latest first. -/
  values : List Constant
  /-- The open parentheses and waiting operators, the latest first. -/
  entries : List Entry
  /-- Whether an operand has to follow. -/
  expectsOperand : Bool
  deriving DecidableEq, Repr

/-- The state just after the opening parenthesis. -/
def State.start : State := ⟨[], [.paren], true⟩

/-- Applies the entry of the operator stack to the values. -/
def applyEntry (values : List Constant) : Entry → Except Error (List Constant)
  | .paren => .ok values
  | .unary op =>
    match values with
    | v :: rest => (applyUnary op v).map (· :: rest)
    | [] => .error (.missingOperand op)
  | .binary op =>
    match values with
    | r :: l :: rest => (applyBinary op l r).map (· :: rest)
    | _ => .error (.missingOperand op)

/-- Applies the waiting operators that bind at least as tightly as `level`. -/
def reduce (level : Nat) (values : List Constant) :
    List Entry → Except Error (List Constant × List Entry)
  | [] => .ok (values, [])
  | entry :: entries =>
    match entry.precedence? with
    | none => .ok (values, entry :: entries)
    | some top =>
      if top < level then .ok (values, entry :: entries)
      else
        match applyEntry values entry with
        | .ok values => reduce level values entries
        | .error e => .error e

namespace State

/-- Takes in an operand. -/
def operand (s : State) (value : Constant) : State :=
  { s with values := value :: s.values, expectsOperand := false }

/-- Takes in an operator. -/
def operator (s : State) (op : Operator) : Except Error State :=
  if s.expectsOperand then
    if op.isUnary then .ok { s with entries := .unary op :: s.entries }
    else .error (.unexpectedToken op.text)
  else
    match op.binaryPrecedence? with
    | none => .error (.unexpectedToken op.text)
    | some level => do
      let (values, entries) ← reduce level s.values s.entries
      return ⟨values, .binary op :: entries, true⟩

/-- Takes in a closing parenthesis. -/
def close (s : State) : Except Error State :=
  if s.expectsOperand then
    match s.entries with
    | .paren :: _ => .error .empty
    | .unary op :: _ | .binary op :: _ => .error (.missingOperand op)
    | [] => .error .unbalanced
  else do
    let (values, entries) ← reduce 0 s.values s.entries
    match entries with
    | .paren :: entries => return { s with values, entries }
    | _ => .error .unbalanced

/-- Takes in decimal digits. -/
def number (s : State) (digits : String) : Except Error State :=
  match Text.readDecimal digits with
  | .ok n => .ok (s.operand (.number n))
  | .error _ => .error (.malformedNumber digits)

/-- Takes in the name of a constant, which must have a value. -/
def name (constants : Table Constant) (s : State) (name : String) : Except Error State :=
  match constants.get? name with
  | none | some .empty => .error (.unknownConstant name)
  | some value => .ok (s.operand value)

/-- The operator and the digits of a number written with a sign. -/
def splitSign? (digits : String) : Option (Operator × String) :=
  match digits.toList with
  | '-' :: cs => some (.minus, String.ofList cs)
  | '+' :: cs => some (.plus, String.ofList cs)
  | _ => none

/-- Takes in a token where an operand has to follow. -/
def operandToken (constants : Table Constant) (s : State) : Token → Except Error State
  | .parenOpen => .ok { s with entries := .paren :: s.entries }
  | .number digits => s.number digits
  | .hex digits =>
    match Text.readHex digits with
    | .ok n => .ok (s.operand (.number n))
    | .error _ => .error (.malformedNumber digits)
  | .char c => .ok (s.operand (.number (Int64.ofNat c.toNat)))
  | .text content => .ok (s.operand (.text content))
  | .word word => s.name constants word
  | token => .error (.unexpectedToken token.source)

/-- Takes in a token where no operand may follow. A sign that was read as part of a number can
here only be an operator. -/
def nextToken (s : State) : Token → Except Error State
  | .number digits =>
    match splitSign? digits with
    | some (op, digits) => do (← s.operator op).number digits
    | none => .error (.unexpectedToken digits)
  | token => .error (.unexpectedToken token.source)

/-- Takes in a token. -/
def step (constants : Table Constant) (s : State) : Token → Except Error State
  | .comment _ => .ok s
  | .lineEnd => .error .unbalanced
  | .parenClose => s.close
  | .operator op => s.operator op
  | token => if s.expectsOperand then s.operandToken constants token else s.nextToken token

/-- The value of a closed expression. -/
def result (s : State) : Except Error Constant :=
  match s.values with
  | [.number n] => .ok (.number n)
  | [.text t] => .ok (.text t)
  | _ => .error .empty

end State

/-! ### Evaluation -/

/-- Goes on from the state `s`, after `n` tokens, until the first parenthesis is closed. -/
def evaluateFrom (constants : Table Constant) (opening : Option Location) (s : State) (n : Nat) :
    List (Located Token) → Except (Located Error) Constant × Nat
  | [] => (.error ⟨opening, .unbalanced⟩, n)
  | token :: tokens =>
    match s.step constants token.value with
    | .error e => (.error (token.withValue e), n + 1)
    | .ok s =>
      if s.entries = [] then (s.result.mapError (⟨opening, ·⟩), n + 1)
      else evaluateFrom constants opening s (n + 1) tokens

/-- The value of the expression whose opening parenthesis stands at `opening` just before
`tokens`, and the number of tokens it takes up; on an error, the number up to the offending one. -/
def evaluate (constants : Table Constant) (opening : Option Location)
    (tokens : List (Located Token)) : Except (Located Error) Constant × Nat :=
  evaluateFrom constants opening .start 0 tokens

end StackAsm.Expression
