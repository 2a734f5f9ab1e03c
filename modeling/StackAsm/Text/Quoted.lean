import StackAsm.Text.Invisible
import StackAsm.Text.Numeral

/-!
# Quoted texts

How a text is shown inside a message: between double quotes, with quotes, backslashes and the
common controls named, and every other character that cannot be seen given by its code point.
-/

namespace StackAsm.Text

/-- How one character is shown inside quotes. -/
def showChar (c : Char) : List Char :=
  match c with
  | '"' => ['\\', '"']
  | '\\' => ['\\', '\\']
  | '\t' => ['\\', 't']
  | '\r' => ['\\', 'r']
  | '\n' => ['\\', 'n']
  | '\x00' => ['\\', '0']
  | c =>
    if isInvisible c then ['\\', 'u', '\x7b'] ++ (hexLower c.toNat).toList ++ ['\x7d'] else [c]

/-- A text as it is shown inside a message. -/
def quoted (s : String) : String :=
  "\"" ++ String.ofList (s.toList.flatMap showChar) ++ "\""

end StackAsm.Text
