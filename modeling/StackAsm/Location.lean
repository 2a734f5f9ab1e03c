/-!
# Locations

A location is a line and a column of a numbered source file, both counted from one. Values read
from a source carry the location of their first character; values that come from nowhere in
particular carry none.
-/

namespace StackAsm

/-- A place in a source file. -/
structure Location where
  /-- The number of the file, in the order in which files were first loaded. -/
  file : Nat
  /-- The line, from one. -/
  line : Nat
  /-- The column, from one, counted in characters. -/
  column : Nat
  deriving DecidableEq, Repr

/-- How a location is shown; the file is not part of it. -/
def Location.text (loc : Location) : String :=
  "(line: " ++ toString loc.line ++ ", col: " ++ toString loc.column ++ ")"

/-- A value and where it stands, if anywhere. -/
structure Located (α : Type) where
  /-- Where the value stands. -/
  loc : Option Location
  /-- The value. -/
  value : α
  deriving DecidableEq, Repr

namespace Located

variable {α β : Type}

/-- A value at a place. -/
def here (loc : Location) (value : α) : Located α := ⟨some loc, value⟩

/-- A value that stands nowhere. -/
def nowhere (value : α) : Located α := ⟨none, value⟩

/-- Another value at the same place. -/
def withValue (x : Located α) (value : β) : Located β := ⟨x.loc, value⟩

/-- The image of the value, at the same place. -/
def map (f : α → β) (x : Located α) : Located β := ⟨x.loc, f x.value⟩

/-- How a located value is shown, given how the value is. -/
def text (shown : α → String) (x : Located α) : String :=
  match x.loc with
  | some loc => "@" ++ loc.text ++ ": " ++ shown x.value
  | none => "@<unknown location>: " ++ shown x.value

end Located

end StackAsm
