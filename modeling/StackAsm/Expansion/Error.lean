import StackAsm.Expression

/-!
# Errors of expansion
-/

namespace StackAsm.Expansion

/-- How deep files may include each other. -/
def maxDepth : Nat := 64

/-- Why a source cannot be expanded. -/
inductive Error where
  /-- The source holds something that is no token. -/
  | badToken (source : String)
  /-- The digits are out of range. -/
  | malformedNumber (digits : String)
  | unknownDirective (name : String)
  /-- A part of a conditional block stands where it may not. -/
  | directiveOrder (what : String)
  /-- A directive does not start its line. -/
  | midLineDirective (name : String)
  | unterminatedConditional
  /-- The directive lacks its operand. -/
  | missingName (directive : String)
  /-- The token, given by its source, cannot stand here. -/
  | unexpectedToken (source reason : String)
  /-- The file cannot be loaded. -/
  | inclusion (name reason : String)
  | inclusionTooDeep (name : String)
  | expression (e : Expression.Error)
  deriving DecidableEq, Repr

/-- The class of an error. -/
def Error.errorClass : Error → ErrorClass
  | badToken _ | malformedNumber _ => .lexical
  | inclusion _ _ => .io
  | expression e => e.errorClass
  | _ => .structural

/-- The wording of an error. -/
def Error.message : Error → String
  | badToken source => "Unrecognized token '" ++ source ++ "'"
  | malformedNumber digits => "Malformed numeric literal '" ++ digits ++ "'"
  | unknownDirective name => "Unknown preprocessor directive '#" ++ name ++ "'"
  | directiveOrder what => "Directive out of order: " ++ what
  | midLineDirective name => "'#" ++ name ++ "' must start its own line"
  | unterminatedConditional => "Conditional block is not terminated by '#endif'"
  | missingName directive => "Expected a name after '" ++ directive ++ "'"
  | unexpectedToken source reason => "Unexpected token '" ++ source ++ "': " ++ reason
  | inclusion name reason => "Could not include '" ++ name ++ "': " ++ reason
  | inclusionTooDeep name =>
    "Including '" ++ name ++ "' exceeds the maximum include depth of " ++ toString maxDepth
  | expression e => e.message

end StackAsm.Expansion
