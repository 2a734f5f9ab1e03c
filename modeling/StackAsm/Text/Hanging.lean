/-!
# Hanging texts

A text of several lines stays together below its first line if the others are indented.
-/

namespace StackAsm.Text

/-- A character of a text; a line feed takes the indentation of the next line along. -/
def hangChar (indent : List Char) (c : Char) : List Char :=
  if c = '\n' then c :: indent else [c]

/-- A text in which every line but the first starts with `indent`, also where nothing else is on
it. -/
def hanging (indent s : String) : String :=
  String.ofList (s.toList.flatMap (hangChar indent.toList))

end StackAsm.Text
