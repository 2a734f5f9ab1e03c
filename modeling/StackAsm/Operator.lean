/-!
# Operators

The operators of expressions: how they are written and how tightly they bind. What they do to
numbers and texts stands in `StackAsm.Expression`.
-/

namespace StackAsm

/-- An operator of an expression. -/
inductive Operator where
  | plus
  | minus
  | times
  | divide
  | modulo
  | bitAnd
  | bitOr
  | bitXor
  | complement
  | negation
  | less
  | greater
  | lessEq
  | greaterEq
  | shiftLeft
  | shiftRight
  | logicalAnd
  | logicalOr
  | equal
  | notEqual
  deriving DecidableEq, Repr

namespace Operator

/-- How an operator is written. -/
def text : Operator → String
  | plus => "+"
  | minus => "-"
  | times => "*"
  | divide => "/"
  | modulo => "//"
  | bitAnd => "&"
  | bitOr => "|"
  | bitXor => "^"
  | complement => "~"
  | negation => "!"
  | less => "<"
  | greater => ">"
  | lessEq => "<="
  | greaterEq => ">="
  | shiftLeft => "<<"
  | shiftRight => ">>"
  | logicalAnd => "&&"
  | logicalOr => "||"
  | equal => "=="
  | notEqual => "!="

/-- How tightly an operator binds between two operands; a higher number binds tighter. The
complement and the negation never stand between two operands. -/
def binaryPrecedence? : Operator → Option Nat
  | times | divide | modulo => some 10
  | plus | minus => some 9
  | shiftLeft | shiftRight => some 8
  | less | lessEq | greater | greaterEq => some 7
  | equal | notEqual => some 6
  | bitAnd => some 5
  | bitXor => some 4
  | bitOr => some 3
  | logicalAnd => some 2
  | logicalOr => some 1
  | complement | negation => none

/-- How tightly an operator binds in front of one operand: tighter than any between two. -/
def unaryPrecedence : Nat := 11

/-- Whether an operator may stand in front of one operand. -/
def isUnary : Operator → Bool
  | complement | negation | plus | minus => true
  | _ => false

end Operator

end StackAsm
