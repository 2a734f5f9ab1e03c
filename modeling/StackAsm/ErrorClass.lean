/-!
# Classes of errors

Every error of the assembler belongs to one of seven classes. The class heads a diagnostic and
decides the exit status of the command.
-/

namespace StackAsm

/-- What kind of thing went wrong. -/
inductive ErrorClass where
  /-- A source text holds something that is no token. -/
  | lexical
  /-- Tokens or items stand where they may not. -/
  | structural
  /-- A name is unknown, or known already. -/
  | reference
  /-- An operand does not fit its instruction. -/
  | argument
  /-- A table or a length is exceeded. -/
  | capacity
  /-- An expression cannot be evaluated. -/
  | expression
  /-- A file cannot be read or written. -/
  | io
  deriving DecidableEq, Repr

/-- How a class is shown. -/
def ErrorClass.text : ErrorClass → String
  | .lexical => "Lexical error"
  | .structural => "Structural error"
  | .reference => "Reference error"
  | .argument => "Argument error"
  | .capacity => "Capacity error"
  | .expression => "Expression error"
  | .io => "I/O error"

end StackAsm
