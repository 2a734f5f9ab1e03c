import StackAsm.Text.Numeral
import StackAsm.Text.Quoted

/-!
# Constants

The values that names stand for while a source is preprocessed: a number, a text, or nothing at
all.
-/

namespace StackAsm

/-- The value of a name. -/
inductive Constant where
  /-- Defined, but without a value. -/
  | empty
  | number (n : Int64)
  | text (s : String)
  deriving DecidableEq, Repr

namespace Constant

/-- Whether a condition with this value holds. -/
def isTrue : Constant → Bool
  | empty => false
  | number n => n != 0
  | text s => s != ""

/-- How a value is shown. -/
def shown : Constant → String
  | empty => "<empty>"
  | number n => Text.decimal n
  | text s => Text.quoted s

/-- The value a definition on the command line writes as `s`: a number in base ten, or in base
sixteen after a dollar sign, and otherwise the text itself. -/
def ofText (s : String) : Constant :=
  match s.toList with
  | [] => empty
  | '$' :: digits =>
    match Text.readInt64 16 (String.ofList digits) with
    | .ok n => number n
    | .error _ => text s
  | _ =>
    match Text.readDecimal s with
    | .ok n => number n
    | .error _ => text s

end Constant

end StackAsm
