import StackAsm.Location
import StackAsm.Operator

/-!
# Tokens

The smallest units of a source text. Whether a word is a mnemonic, a label or the name of a
constant is not decided here. What cannot be a token is one all the same, of a kind of its own, so
that every text can be split.
-/

namespace StackAsm

/-- A lexical unit of a source text. -/
inductive Token where
  /-- The end of a line. -/
  | lineEnd
  /-- A comma or a colon. -/
  | separator (c : Char)
  /-- Letters, digits and underscores that do not start with a digit. -/
  | word (name : String)
  /-- Decimal digits, with their sign if one was written. -/
  | number (digits : String)
  /-- What a text between double quotes stands for. -/
  | text (content : String)
  /-- A character standing for its code point. -/
  | char (c : Char)
  /-- A character after a backslash. -/
  | escape (c : Char)
  /-- One to eight hexadecimal digits. -/
  | hex (digits : String)
  /-- The name of a directive to the assembler. -/
  | directive (name : String)
  /-- The name of a directive to the preprocessor. -/
  | preDirective (name : String)
  /-- The text of a comment. -/
  | comment (content : String)
  | parenOpen
  | parenClose
  | bracketOpen
  | bracketClose
  | operator (op : Operator)
  /-- Characters that started as some token but are none. -/
  | malformed (raw : String)
  /-- A character that starts no token. -/
  | stray (c : Char)
  deriving DecidableEq, Repr

namespace Token

/-- How one character of a quoted text is written. -/
def escapeChar : Char → List Char
  | '"' => ['\\', '"']
  | '\\' => ['\\', '\\']
  | '\n' => ['\\', 'n']
  | '\r' => ['\\', 'r']
  | '\t' => ['\\', 't']
  | '\x00' => ['\\', '0']
  | c => [c]

/-- The characters between the quotes that stand for a text. -/
def escaped (cs : List Char) : List Char := cs.flatMap escapeChar

/-- What a character stands for after a backslash. -/
def unescapeChar : Char → Char
  | 'n' => '\n'
  | 'r' => '\r'
  | 't' => '\t'
  | '0' => '\x00'
  | c => c

/-- Adds to `done`, last first, what the characters between two quotes stand for. -/
def unescapeInto (done : List Char) : List Char → List Char
  | [] => done.reverse
  | ['\\'] => done.reverse
  | '\\' :: c :: cs => unescapeInto (unescapeChar c :: done) cs
  | c :: cs => unescapeInto (c :: done) cs

/-- What the characters between two quotes stand for. -/
def unescaped (cs : List Char) : List Char := unescapeInto [] cs

/-- The source text of a token. -/
def source : Token → String
  | lineEnd => "\n"
  | separator c | stray c => String.singleton c
  | word s | number s | malformed s => s
  | text s => "\"" ++ String.ofList (escaped s.toList) ++ "\""
  | char c => "%" ++ String.singleton c
  | escape c => "\\" ++ String.singleton c
  | hex s => "$" ++ s
  | directive s => "." ++ s
  | preDirective s => "#" ++ s
  | comment s => ";" ++ s
  | parenOpen => "("
  | parenClose => ")"
  | bracketOpen => "["
  | bracketClose => "]"
  | operator op => op.text

/-- Whether a token stands for something that is none. -/
def isLexicalError : Token → Bool
  | malformed _ | stray _ => true
  | _ => false

/-- How a token is shown: as its source, except that the end of a line is named. -/
def shown : Token → String
  | lineEnd => "<end of line>"
  | t => t.source

end Token

end StackAsm
