import StackAsm.Text.Blank
import StackAsm.Token

/-!
# Splitting a text into tokens

A text is read one character at a time. Between two characters the lexer knows what kind of token it
is reading, where this token began, and the characters collected of it. A character that cannot
belong to the token ends it, and is then looked at once more as what follows. The end of a line ends
every token, and so does the end of the text; both leave a `Token.lineEnd` behind, just past the
last character of the line. A line feed, a carriage return, and the one after the other are each one
line end.

Nothing is rejected: characters that are no token become one of a kind of its own.

The lexer knows no lines. That nothing of it but the number of the line outlasts the end of one is
proved of its steps, as is that the tokens are those of the lines one by one. Lines and columns are
counted without a bound, and a column counts characters, not bytes.
-/

namespace StackAsm.Token

/-! ### Classes of characters -/

/-- Whether a character ends a line. -/
def isLineEnd (c : Char) : Bool := c == '\n' || c == '\r'

/-- Whether a character does not end a line. -/
def isInLine (c : Char) : Bool := !isLineEnd c

/-- Whether a character may stand in a name. -/
def isWordChar (c : Char) : Bool := c.isAlphanum || c == '_'

/-- Whether a character may start a name. -/
def isWordStart (c : Char) : Bool := c.isAlpha || c == '_'

/-- Whether a character is a hexadecimal digit. -/
def isHexDigit (c : Char) : Bool :=
  c.isDigit || ('a' ≤ c && c ≤ 'f') || ('A' ≤ c && c ≤ 'F')

/-- The most digits of a hexadecimal number. -/
def maxHexDigits : Nat := 8

/-- The operator that a character is by itself. -/
def singleOperator? : Char → Option Operator
  | '*' => some .times
  | '/' => some .divide
  | '&' => some .bitAnd
  | '|' => some .bitOr
  | '^' => some .bitXor
  | '!' => some .negation
  | '<' => some .less
  | '>' => some .greater
  | _ => none

/-- The operator that two characters are together. -/
def doubleOperator? : Char → Char → Option Operator
  | '<', '<' => some .shiftLeft
  | '>', '>' => some .shiftRight
  | '&', '&' => some .logicalAnd
  | '|', '|' => some .logicalOr
  | '=', '=' => some .equal
  | '!', '=' => some .notEqual
  | '>', '=' => some .greaterEq
  | '<', '=' => some .lessEq
  | '/', '/' => some .modulo
  | _, _ => none

/-! ### What is being read -/

/-- The kind of token that is being read. -/
inductive Mode where
  /-- None: the next character starts one. -/
  | idle
  | comment
  /-- A text between quotes, and whether a backslash takes the next character along. -/
  | text (afterBackslash : Bool)
  | char
  | escape
  | hex
  | word
  | number
  /-- A plus or a minus, which belongs to a number if a digit follows. -/
  | sign (c : Char)
  | directive
  | preDirective
  /-- An operator of one or two characters, after its first. -/
  | operator (first : Char)
  deriving DecidableEq, Repr

/-- The characters that open a token of any length, and what they open. -/
def openers : List (Char × Mode) :=
  [(';', .comment), ('"', .text false), ('%', .char), ('\\', .escape), ('$', .hex),
   ('.', .directive), ('#', .preDirective), ('+', .sign '+'), ('-', .sign '-'),
   ('*', .operator '*'), ('/', .operator '/'), ('&', .operator '&'), ('|', .operator '|'),
   ('^', .operator '^'), ('!', .operator '!'), ('<', .operator '<'), ('>', .operator '>'),
   ('=', .operator '=')]

/-- The characters that are a token by themselves. -/
def singles : List (Char × Token) :=
  [(',', .separator ','), (':', .separator ':'), ('(', .parenOpen), (')', .parenClose),
   ('[', .bracketOpen), (']', .bracketClose), ('~', .operator .complement)]

/-- The token of the characters after a dollar sign. -/
def ofHexDigits (digits : String) : Token :=
  if digits = "" ∨ maxHexDigits < digits.length then .malformed ("$" ++ digits) else .hex digits

/-- The token of the name after a mark, or of the mark alone where there is no name. -/
def ofMarkedName (mark : String) (make : String → Token) (name : String) : Token :=
  if name = "" then .malformed mark else make name

/-- The operator that a sign is where no digit follows. -/
def ofSign (sign : Char) : Operator := if sign = '-' then .minus else .plus

/-- The token of a character that is no operator together with the next. -/
def ofSingle (first : Char) : Token :=
  match singleOperator? first with
  | some op => .operator op
  | none => .malformed (String.singleton first)

/-! ### The lexer -/

/-- The state of the lexer between two characters. -/
structure Lexer where
  /-- The number of the file. -/
  file : Nat
  /-- The line of the next character. -/
  line : Nat
  /-- The column of the next character. -/
  column : Nat
  /-- What is being read. -/
  mode : Mode
  /-- Where it began; of no meaning while nothing is being read. -/
  start : Location
  /-- The characters collected of it. -/
  buffer : String
  /-- The tokens so far. -/
  done : Array (Located Token)
  deriving DecidableEq, Repr

namespace Lexer

/-- The state before the first character of a file. -/
def ofFile (file : Nat) : Lexer := ⟨file, 1, 1, .idle, ⟨file, 1, 1⟩, "", #[]⟩

/-- Where the next character stands. -/
def here (l : Lexer) : Location := ⟨l.file, l.line, l.column⟩

/-- Goes on to the next place, behind a character. -/
def pass (l : Lexer) (c : Char) : Lexer :=
  if isLineEnd c then { l with line := l.line + 1, column := 1 }
  else { l with column := l.column + 1 }

/-- Starts to read a token at the next character. -/
def enter (l : Lexer) (mode : Mode) : Lexer := { l with mode, start := l.here, buffer := "" }

/-- Collects a character. -/
def collect (l : Lexer) (c : Char) : Lexer := { l with buffer := l.buffer.push c }

/-- Adds a token at the next character. -/
def emit (l : Lexer) (token : Token) : Lexer := { l with done := l.done.push (.here l.here token) }

/-- Adds the token that was being read. -/
def finish (l : Lexer) (token : Token) : Lexer :=
  { l with done := l.done.push (.here l.start token), mode := .idle, buffer := "" }

/-- Takes in a character where nothing is being read. -/
def begin (l : Lexer) (c : Char) : Lexer :=
  if isLineEnd c then l.emit .lineEnd
  else if Text.isBlank c then l
  else
    match openers.lookup c with
    | some mode => l.enter mode
    | none =>
      match singles.lookup c with
      | some token => l.emit token
      | none =>
        if c.isDigit then (l.enter .number).collect c
        else if isWordStart c then (l.enter .word).collect c
        else l.emit (.stray c)

/-! Each of these is given the next character, or none at the end of the text, and tells whether the
token that is being read takes it in. -/

/-- Goes on as `taken` where the token takes the next character in, and ends it where not. -/
@[inline] def orFinish (l : Lexer) (taken : Option Lexer) (token : Token) : Lexer × Bool :=
  match taken with
  | some l => (l, true)
  | none => (l.finish token, false)

/-- Collects characters of a kind. -/
@[inline] def collectWhile (l : Lexer) (belongs : Char → Bool) (make : String → Token)
    (next : Option Char) : Lexer × Bool :=
  l.orFinish ((next.filter belongs).map l.collect) (make l.buffer)

/-- Takes in a character of a text; a quote closes the text unless a backslash takes it along. -/
@[inline] def textChar (l : Lexer) (afterBackslash : Bool) (c : Char) : Lexer :=
  if c = '"' ∧ afterBackslash = false then
    l.finish (.text (String.ofList (unescaped l.buffer.toList)))
  else { l.collect c with mode := .text (!afterBackslash && c == '\\') }

/-- Goes on with a text, which has to be closed on its line. -/
@[inline] def inText (l : Lexer) (afterBackslash : Bool) (next : Option Char) : Lexer × Bool :=
  l.orFinish ((next.filter isInLine).map (l.textChar afterBackslash))
    (.malformed ("\"" ++ l.buffer))

/-- Takes the one character after a mark. -/
@[inline] def afterMark (l : Lexer) (mark : String) (make : Char → Token)
    (next : Option Char) : Lexer × Bool :=
  l.orFinish ((next.filter isInLine).map fun c => l.finish (make c)) (.malformed mark)

/-- Goes on with a number if a digit follows the sign. -/
@[inline] def afterSign (l : Lexer) (sign : Char) (next : Option Char) : Lexer × Bool :=
  l.orFinish
    ((next.filter Char.isDigit).map fun c => { (l.collect sign).collect c with mode := .number })
    (.operator (ofSign sign))

/-- Makes one operator of two characters where that is possible. -/
@[inline] def afterOperator (l : Lexer) (first : Char) (next : Option Char) : Lexer × Bool :=
  l.orFinish ((next.bind (doubleOperator? first)).map fun op => l.finish (.operator op))
    (ofSingle first)

/-- Looks at the next character, or at the end of the text. -/
def step (l : Lexer) (next : Option Char) : Lexer × Bool :=
  match l.mode with
  | .idle => (next.elim l l.begin, true)
  | .comment => l.collectWhile isInLine .comment next
  | .text afterBackslash => l.inText afterBackslash next
  | .char => l.afterMark "%" .char next
  | .escape => l.afterMark "\\" .escape next
  | .hex => l.collectWhile isHexDigit ofHexDigits next
  | .word => l.collectWhile isWordChar .word next
  | .number => l.collectWhile Char.isDigit .number next
  | .sign sign => l.afterSign sign next
  | .directive => l.collectWhile isWordChar (ofMarkedName "." .directive) next
  | .preDirective => l.collectWhile isWordChar (ofMarkedName "#" .preDirective) next
  | .operator first => l.afterOperator first next

theorem orFinish_refused {l l' : Lexer} {taken : Option Lexer} {token : Token}
    (h : l.orFinish taken token = (l', false)) : l' = l.finish token := by
  cases taken with
  | some => cases h
  | none => exact (Prod.mk.inj h).1.symm

/-- Only a token that is being read refuses a character, and it ends there. -/
theorem step_refused {l l' : Lexer} {next : Option Char} (h : l.step next = (l', false)) :
    l.mode ≠ .idle ∧ ∃ token, l' = l.finish token := by
  unfold step at h
  split at h
  · cases h
  all_goals
    next hmode => exact ⟨by simp [hmode], _, orFinish_refused h⟩

/-- Looks at the next character, or at the end of the text, until it is taken in. -/
def feed (l : Lexer) (next : Option Char) : Lexer :=
  match _h : l.step next with
  | (l, true) => l
  | (l, false) => l.feed next
termination_by if l.mode = .idle then 0 else 1
decreasing_by
  obtain ⟨hbusy, token, rfl⟩ := step_refused _h
  simp [hbusy, finish]

/-- Reads a character; `afterReturn` tells whether a carriage return stands before it, of which a
line feed is then a part. -/
def read : Lexer × Bool → Char → Lexer × Bool
  | (l, afterReturn), c =>
    if afterReturn && c == '\n' then (l, false) else ((l.feed (some c)).pass c, c == '\r')

/-- The tokens if the text ends here. -/
def tokens (l : Lexer) : List (Located Token) := ((l.feed none).emit .lineEnd).done.toList

end Lexer

/-- The tokens of a text, tagged with the number of its file. -/
def tokenize (file : Nat) (source : String) : List (Located Token) :=
  (source.toList.foldl Lexer.read (.ofFile file, false)).1.tokens

end StackAsm.Token
