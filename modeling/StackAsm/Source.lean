import StackAsm.Table

/-!
# Sources

Where the texts of a program come from. A provider finds the text for a name; what a name means may
depend on the file that asks for it, and on what was asked for before.

A provider is a function of the queries so far, so it may count them or answer them differently each
time, but it cannot be changed by anything else while a program is assembled.
-/

namespace StackAsm

/-- A source text and the name under which it is known. -/
structure Source where
  /-- The name. -/
  name : String
  /-- The text. -/
  text : String
  deriving DecidableEq, Repr

/-- What a provider is asked. -/
structure Query where
  /-- The file that asks, if one does. -/
  including : Option String
  /-- The name that is asked for. -/
  name : String
  deriving DecidableEq, Repr

/-- Finds the source for a query, or says why there is none. -/
structure Provider where
  /-- Finds a source, after the queries `earlier`, the latest first. -/
  load : (earlier : List Query) → Query → Except String Source

/-- What is said of a source that does not exist. -/
def noSuchFile : String := "no such file"

/-- The provider of the texts in a table. -/
def Provider.ofTable (files : Table String) : Provider where
  load _ query :=
    match files.get? query.name with
    | some text => .ok ⟨query.name, text⟩
    | none => .error noSuchFile

end StackAsm
