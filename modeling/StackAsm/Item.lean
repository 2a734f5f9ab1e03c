import StackAsm.Contract
import StackAsm.Location
import StackAsm.Operator
import StackAsm.Text.Numeral
import StackAsm.Text.Quoted

/-!
# Items

What is left of the tokens once a source is expanded: literals have become values, constants and
expressions have been replaced, and comments are gone. Items come in lines.
-/

namespace StackAsm

/-- What a constant of the pool holds. -/
inductive ConstantKind where
  | data
  | values
  | string
  deriving DecidableEq, Repr

/-- How a kind of constant is shown. -/
def ConstantKind.text : ConstantKind → String
  | data => "data"
  | values => "values"
  | string => "string"

/-- The target of a reference to such a constant. -/
def ConstantKind.target : ConstantKind → Target
  | data => .data
  | values => .values
  | string => .string

/-- A unit of an expanded source. -/
inductive Item where
  /-- The end of a line. -/
  | lineEnd
  /-- A comma or a colon. -/
  | separator (c : Char)
  | word (name : String)
  | number (n : Int64)
  | text (content : String)
  /-- The name of a directive, in lower case. -/
  | directive (name : String)
  | bracketOpen
  | bracketClose
  | operator (op : Operator)
  /-- A constant of the pool; texts become such. -/
  | constant (index : UInt8) (kind : ConstantKind)
  deriving DecidableEq, Repr

namespace Item

/-- How an item is shown. -/
def shown : Item → String
  | lineEnd => "<end of line>"
  | separator c => String.singleton c
  | word name => name
  | number n => Text.decimal n
  | text content => Text.quoted content
  | directive name => "." ++ name
  | bracketOpen => "["
  | bracketClose => "]"
  | operator op => op.text
  | constant index kind => kind.text ++ "#" ++ toString index.toNat

/-- Adds an item in front of lines: the end of a line closes one, and anything else joins the
first. -/
def consLine (item : Located Item) (lines : List (List (Located Item))) :
    List (List (Located Item)) :=
  match item.value, lines with
  | .lineEnd, lines => [] :: lines
  | _, [] => [[item]]
  | _, line :: lines => (item :: line) :: lines

/-- The lines of a sequence of items, without their ends and without the empty ones. -/
def lines (items : List (Located Item)) : List (List (Located Item)) :=
  (items.foldr consLine []).filter (· ≠ [])

end Item

end StackAsm
