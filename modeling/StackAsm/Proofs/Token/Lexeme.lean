import StackAsm.Token.Lexer

/-!
# A text read line by line

The lexer goes through a text character by character. What it finds can also be said without its
states: the text is cut into lines, and in a line the first character of a token tells which of the
characters behind it belong to the token. It is in these terms that the tokens of a text are
described; that they are the tokens the lexer gives is proved from its steps (`tokenize_eq`).
-/

namespace StackAsm.Token

/-! ### Lines -/

/-- What follows the line end at the front of `cs`. -/
def afterLineEnd : List Char → List Char
  | '\r' :: '\n' :: cs => cs
  | _ :: cs => cs
  | [] => []

/-- The text after a line end is shorter. -/
theorem length_afterLineEnd_lt {cs : List Char} (h : cs ≠ []) :
    (afterLineEnd cs).length < cs.length := by
  unfold afterLineEnd
  split
  · simp only [List.length_cons]
    omega
  · simp only [List.length_cons]
    omega
  · exact absurd rfl h

/-- The lines of a text, without their ends. There is always at least one. -/
def lines (cs : List Char) : List (List Char) :=
  let rest := cs.dropWhile isInLine
  if h : rest = [] then [cs.takeWhile isInLine]
  else
    have : (afterLineEnd rest).length < cs.length :=
      Nat.lt_of_lt_of_le (length_afterLineEnd_lt h) (List.dropWhile_sublist isInLine).length_le
    cs.takeWhile isInLine :: lines (afterLineEnd rest)
termination_by cs.length

/-! ### One token

Each of these takes what follows the first character of a token on its line, and gives the token
with the number of further characters that belong to it. -/

/-- As many characters of a kind as there are. -/
def taking (belongs : Char → Bool) (make : String → Token) (rest : List Char) : Token × Nat :=
  (make (String.ofList (rest.takeWhile belongs)), (rest.takeWhile belongs).length)

/-- How many characters stand before the quote that closes a text, `n` of them being passed
already; a quote after a backslash closes nothing. -/
def closingQuote? (afterBackslash : Bool) (n : Nat) : List Char → Option Nat
  | [] => none
  | c :: cs =>
    if c = '"' ∧ afterBackslash = false then some n
    else closingQuote? (!afterBackslash && c == '\\') (n + 1) cs

/-- A text after its opening quote. -/
def quotedText (rest : List Char) : Token × Nat :=
  match closingQuote? false 0 rest with
  | some n => (.text (String.ofList (unescaped (rest.take n))), n + 1)
  | none => (.malformed (String.ofList ('"' :: rest)), rest.length)

/-- The single character after a mark, or the mark alone at the end of a line. -/
def markedChar (mark : String) (make : Char → Token) : List Char → Token × Nat
  | [] => (.malformed mark, 0)
  | c :: _ => (make c, 1)

/-- A plus or minus sign, which belongs to a number if a digit follows it. -/
def signed (sign : Char) (rest : List Char) : Token × Nat :=
  let digits := rest.takeWhile Char.isDigit
  if digits = [] then (.operator (ofSign sign), 0)
  else (.number (String.ofList (sign :: digits)), digits.length)

/-- An operator of one or two characters. -/
def operatorFrom (first : Char) (rest : List Char) : Token × Nat :=
  match rest.head?.bind (doubleOperator? first) with
  | some op => (.operator op, 1)
  | none => (ofSingle first, 0)

/-- The token that an opening character opens. -/
def Mode.lexeme : Mode → List Char → Token × Nat
  | .comment, rest => (.comment (String.ofList rest), rest.length)
  | .text _, rest => quotedText rest
  | .char, rest => markedChar "%" .char rest
  | .escape, rest => markedChar "\\" .escape rest
  | .hex, rest => taking isHexDigit ofHexDigits rest
  | .directive, rest => taking isWordChar (ofMarkedName "." .directive) rest
  | .preDirective, rest => taking isWordChar (ofMarkedName "#" .preDirective) rest
  | .sign c, rest => signed c rest
  | .operator first, rest => operatorFrom first rest
  -- no character opens these
  | .idle, _ | .word, _ | .number, _ => (.malformed "", 0)

/-- The token that starts with the character `c`, which is not blank. -/
def lexeme (c : Char) (rest : List Char) : Token × Nat :=
  match openers.lookup c with
  | some mode => mode.lexeme rest
  | none =>
    match singles.lookup c with
    | some token => (token, 0)
    | none =>
      if c.isDigit then
        taking Char.isDigit (fun digits => .number (String.singleton c ++ digits)) rest
      else if isWordStart c then
        taking isWordChar (fun name => .word (String.singleton c ++ name)) rest
      else (.stray c, 0)

/-! ### Tokens of a line and of a text -/

/-- The tokens of the rest `cs` of a line, which starts at `loc`. -/
def scan (loc : Location) (cs : List Char) : List (Located Token) :=
  match cs with
  | [] => [.here loc .lineEnd]
  | c :: rest =>
    if Text.isBlank c then scan { loc with column := loc.column + 1 } rest
    else
      .here loc (lexeme c rest).1 ::
        scan { loc with column := loc.column + 1 + (lexeme c rest).2 } (rest.drop (lexeme c rest).2)
termination_by cs.length
decreasing_by all_goals simp; try omega

/-- The tokens of one line of a file. -/
def lineTokens (file line : Nat) (cs : List Char) : List (Located Token) := scan ⟨file, line, 1⟩ cs

end StackAsm.Token
