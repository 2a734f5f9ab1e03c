import StackAsm.Event
import StackAsm.Expansion.Conditional
import StackAsm.Source
import StackAsm.Token.Lexer

/-!
# Expansion

From source texts to items. Directives define and remove constants, splice in other files and choose
between branches; the names of constants are replaced by their values and expressions evaluated. The
tokens of a file are expanded one after the other, each where it stands: an expression takes up as
many as it needs, and a directive, which has to start its line, the rest of the line.

What was emitted, defined and loaded before an error stays in the state. The depth stays as well,
but is given back on every way out of a file, whether by its end or by an error (`nested`).

There are no lines and no tree of blocks here. That a file is expanded line by line and its blocks
are nested is proved of the steps. The argument `levels` of `expandFile` decides nothing and is
there for the recursion to end: the depth runs out before it does. Reports are kept in their order,
as part of the state; what is shown of them is left to the commands.
-/

namespace StackAsm.Expansion

/-- The state of an expansion. -/
structure State where
  /-- The constants and their values. -/
  constants : Table Constant := {}
  /-- The names of the files loaded so far, by number. -/
  files : List String := []
  /-- What the provider was asked, the latest first. -/
  queries : List Query := []
  /-- The items emitted and not yet handed over. -/
  items : Array (Located Item) := #[]
  /-- What was reported. -/
  events : Array Event := #[]
  /-- How many files are being expanded, one inside the other. -/
  depth : Nat := 0
  deriving DecidableEq, Repr

/-- A step of an expansion. Its effects remain if it fails. -/
abbrev Expand := EStateM (Located Error) State

/-! ### Effects -/

/-- Reports an event. -/
def report (event : Event) : Expand Unit :=
  modify fun s => { s with events := s.events.push event }

/-- Emits an item. -/
def emit (loc : Option Location) (item : Item) : Expand Unit :=
  modify fun s => { s with items := s.items.push ⟨loc, item⟩ }

/-- Emits the value of a constant; an empty one leaves no trace. -/
def emitConstant (loc : Option Location) : Constant → Expand Unit
  | .empty => return
  | .number n => emit loc (.number n)
  | .text s => emit loc (.text s)

/-- Whether the last item ends a line, or there is none. -/
def State.atLineStart (s : State) : Bool :=
  match s.items.back? with
  | none => true
  | some item => item.value == .lineEnd

/-- Ends a line, unless it is empty. -/
def emitLineEnd (loc : Option Location) : Expand Unit := do
  unless (← get).atLineStart do emit loc .lineEnd

/-- The value of a name. -/
def valueOf? (name : String) : Expand (Option Constant) := return (← get).constants.get? name

/-- Gives a name a value. -/
def State.define (s : State) (name : String) (value : Constant) : State :=
  { s with constants := s.constants.insert name value }

/-- The number of a file, which is new if the name is. -/
def fileNumber (name : String) : Expand Nat := do
  let files := (← get).files
  match files.idxOf? name with
  | some file => return file
  | none =>
    modify fun s => { s with files := s.files ++ [name] }
    return files.length

/-! ### Values -/

/-- The value of a literal; other tokens have none. -/
def literal? (token : Located Token) : Expand (Option Constant) :=
  match token.value with
  | .number digits =>
    match Text.readDecimal digits with
    | .ok n => return some (.number n)
    | .error _ => throw (token.withValue (.malformedNumber digits))
  | .hex digits =>
    match Text.readHex digits with
    | .ok n => return some (.number n)
    | .error _ => throw (token.withValue (.malformedNumber ("$" ++ digits)))
  | .char c => return some (.number (Int64.ofNat c.toNat))
  | .text content => return some (.text content)
  | _ => return none

/-- The value of the expression that follows its opening parenthesis, and how many tokens it takes
up. -/
def evaluate (opening : Located Token) (tokens : List (Located Token)) :
    Expand (Constant × Nat) := do
  let (result, n) := Expression.evaluate (← get).constants opening.loc tokens
  match result with
  | .error e => throw (e.map .expression)
  | .ok value =>
    report (.folded value)
    return (value, n)

/-- Refuses further tokens. -/
def expectEnd (reason : String) : List (Located Token) → Expand Unit
  | [] => return
  | token :: _ => throw (token.withValue (.unexpectedToken token.value.source reason))

/-! ### Directives -/

/-- A line with a directive. -/
structure DirectiveLine where
  /-- Where the directive stands. -/
  loc : Option Location
  /-- Its name, in lower case. -/
  name : String
  /-- The tokens after it, without the end of the line and a comment before that. -/
  arguments : List (Located Token)
  deriving DecidableEq, Repr

namespace DirectiveLine

/-- Fails at the directive. -/
def fail {α : Type} (line : DirectiveLine) (e : Error) : Expand α := throw ⟨line.loc, e⟩

/-- The name that follows the directive. -/
def argumentName (line : DirectiveLine) (directive : String) : Expand String :=
  match line.arguments with
  | ⟨_, .word name⟩ :: _ => return name
  | _ => line.fail (.missingName directive)

/-- The condition that follows the directive. An unknown name does not hold. -/
def condition (line : DirectiveLine) : Expand Bool := do
  match line.arguments with
  | [] => line.fail (.missingName "#if")
  | first :: rest =>
    let (value, n) ← match first.value with
      | .parenOpen => evaluate first rest
      | .word name => pure ((← valueOf? name).getD .empty, 0)
      | _ =>
        match ← literal? first with
        | some value => pure (value, 0)
        | none =>
          throw (first.withValue
            (.unexpectedToken first.value.source "expected a condition"))
    expectEnd "expected end of line after condition" (rest.drop n)
    return value.isTrue

/-- Whether the name that follows the directive is defined. -/
def isDefined (line : DirectiveLine) (directive : String) : Expand Bool := do
  let name ← line.argumentName directive
  expectEnd "expected end of line after name" (line.arguments.drop 1)
  return (← valueOf? name).isSome

/-- The value that follows the name of a definition. -/
def definition (line : DirectiveLine) : Expand Constant := do
  match line.arguments.drop 1 with
  | [] => return .empty
  | first :: rest =>
    let (value, n) ← match first.value with
      | .parenOpen => evaluate first rest
      | .word name =>
        match ← valueOf? name with
        | some value => pure (value, 0)
        | none => throw (first.withValue (.expression (.unknownConstant name)))
      | _ =>
        match ← literal? first with
        | some value => pure (value, 0)
        | none =>
          throw (first.withValue
            (.unexpectedToken first.value.source "expected a literal or expression"))
    expectEnd "expected end of line after value" (rest.drop n)
    return value

/-- Defines a constant. -/
def define (line : DirectiveLine) : Expand Unit := do
  let name ← line.argumentName "#define"
  let value ← line.definition
  if let some old ← valueOf? name then report (.redefinition name old value)
  modify (·.define name value)

/-- Removes a constant. -/
def undefine (line : DirectiveLine) : Expand Unit := do
  let name ← line.argumentName "#undef"
  if (← valueOf? name).isNone then report (.undefinedRemoval name)
  modify fun s => { s with constants := s.constants.erase name }

/-- The name of the file to be spliced in. -/
def inclusion (line : DirectiveLine) : Expand String :=
  match line.arguments with
  | [⟨_, .text name⟩] => return name
  | _ => line.fail (.missingName "#include")

/-- Executes a directive outside of inactive branches that is not part of a conditional block.
Files are spliced in by `splice`. -/
def execute (splice : Option Location → String → Expand Unit) (line : DirectiveLine) :
    Expand Unit :=
  match line.name with
  | "define" => line.define
  | "undef" => line.undefine
  | "include" => do splice line.loc (← line.inclusion)
  | name => line.fail (.unknownDirective name)

/-- The outcome of a change to the open blocks. -/
def blocks {α : Type} (line : DirectiveLine) : Except Error α → Expand α
  | .ok x => return x
  | .error e => line.fail e

/-- Executes a directive. Conditions are looked at only where they decide something. -/
def run (splice : Option Location → String → Expand Unit) (line : DirectiveLine)
    (frames : Frames) : Expand Frames := do
  report (.preDirective line.name line.loc)
  match line.name with
  | "if" =>
    let holds ← if frames.isActive then line.condition else pure false
    return frames.openBlock holds line.loc
  | "ifdef" =>
    let holds ← if frames.isActive then line.isDefined "#ifdef" else pure false
    return frames.openBlock holds line.loc
  | "ifndef" =>
    let holds ← if frames.isActive then (! ·) <$> line.isDefined "#ifndef" else pure false
    return frames.openBlock holds line.loc
  | "elif" =>
    let holds ← if ← line.blocks frames.isPending then line.condition else pure false
    return frames.nextBranch holds
  | "else" =>
    let frames ← line.blocks frames.lastBranch
    expectEnd "expected end of line after '#else'" line.arguments
    return frames
  | "endif" =>
    let frames ← line.blocks frames.closeBlock
    expectEnd "expected end of line after '#endif'" line.arguments
    return frames
  | _ =>
    if frames.isActive then line.execute splice
    return frames

end DirectiveLine

/-! ### Tokens -/

/-- The tokens after a directive on its line, without the end of the line and a comment before
that. -/
def directiveArguments (rest : List (Located Token)) : List (Located Token) :=
  let arguments := rest.takeWhile (·.value ≠ .lineEnd)
  match arguments.getLast? with
  | some ⟨_, .comment _⟩ => arguments.dropLast
  | _ => arguments

/-- The tokens of the lines after this one. -/
def afterLine (rest : List (Located Token)) : List (Located Token) :=
  (rest.dropWhile (·.value ≠ .lineEnd)).drop 1

theorem length_afterLine_le (rest : List (Located Token)) :
    (afterLine rest).length ≤ rest.length :=
  ((List.drop_sublist 1 _).trans (List.dropWhile_sublist _)).length_le

/-- Emits a token other than an opening parenthesis. -/
def emitToken (token : Located Token) : Expand Unit :=
  match token.value with
  | .lineEnd => emitLineEnd token.loc
  | .comment _ | .escape _ => return
  | .word name => do
    match ← valueOf? name with
    | some value => emitConstant token.loc value
    | none => emit token.loc (.word name)
  | .number _ | .hex _ | .char _ | .text _ => do
    if let some value ← literal? token then emitConstant token.loc value
  | .directive name => emit token.loc (.directive (Text.lowercase name))
  | .separator c => emit token.loc (.separator c)
  | .bracketOpen => emit token.loc .bracketOpen
  | .bracketClose => emit token.loc .bracketClose
  | .operator op => emit token.loc (.operator op)
  | other => throw (token.withValue (.unexpectedToken other.source "not allowed here"))

/-- Emits a token, and with an opening parenthesis all of the expression. Of the tokens after it, so
many are then taken up. -/
def emitNext (token : Located Token) (rest : List (Located Token)) : Expand Nat := do
  if token.value = .parenOpen then
    let (value, n) ← evaluate token rest
    emitConstant token.loc value
    return n
  else
    emitToken token
    return 0

/-- Expands the tokens that are left, which come after the token `last`. A directive has to start
its line, and takes up all of it. -/
def expandFrom (splice : Option Location → String → Expand Unit) (frames : Frames)
    (last : Option Token) (tokens : List (Located Token)) : Expand Frames :=
  match tokens with
  | [] => return frames
  | token :: rest =>
    match token.value with
    | .preDirective name =>
      if last.all (· = .lineEnd) then do
        let line : DirectiveLine := ⟨token.loc, Text.lowercase name, directiveArguments rest⟩
        let frames ← line.run splice frames
        expandFrom splice frames (some .lineEnd) (afterLine rest)
      else throw (token.withValue (.midLineDirective name))
    | value =>
      if frames.isActive then do
        let n ← emitNext token rest
        expandFrom splice frames ((token :: rest)[n]?.map (·.value)) (rest.drop n)
      else expandFrom splice frames (some value) rest
termination_by tokens.length
decreasing_by
  all_goals simp only [List.length_cons, List.length_drop]
  all_goals have := length_afterLine_le rest
  all_goals omega

/-! ### Files -/

/-- Refuses blocks that are still open. -/
def expectClosed : Frames → Expand Unit
  | [] => return
  | frame :: _ => throw ⟨frame.loc, .unterminatedConditional⟩

/-- Expands the tokens of a file, in which all blocks have to be closed. -/
def expandTokens (splice : Option Location → String → Expand Unit)
    (tokens : List (Located Token)) : Expand Unit := do
  expectClosed (← expandFrom splice [] none tokens)

/-- Refuses malformed tokens. -/
def expectLexed (tokens : List (Located Token)) : Expand Unit :=
  match tokens.find? (·.value.isLexicalError) with
  | some token => throw (token.withValue (.badToken token.value.source))
  | none => return

/-- Asks for a source. -/
def ask (provider : Provider) (query : Query) : Expand (Except String Source) := do
  let earlier := (← get).queries
  modify fun s => { s with queries := query :: earlier }
  return provider.load earlier query

/-- One file deeper, until the end or a failure. -/
def nested (x : Expand Unit) : Expand Unit := fun s =>
  match x { s with depth := s.depth + 1 } with
  | .ok () s => .ok () { s with depth := s.depth - 1 }
  | .error e s => .error e { s with depth := s.depth - 1 }

/-- Expands the file `name`, which is asked for at `loc` of the file `including`. The depth decides
whether there may be another file; `levels` is more than there may be. -/
def expandFile (provider : Provider) (levels : Nat) (including : Option String)
    (loc : Option Location) (name : String) : Expand Unit :=
  match levels with
  | 0 => throw ⟨loc, .inclusionTooDeep name⟩
  | levels + 1 => do
    if maxDepth ≤ (← get).depth then throw ⟨loc, .inclusionTooDeep name⟩
    else
      match ← ask provider ⟨including, name⟩ with
      | .error reason => throw ⟨loc, .inclusion name reason⟩
      | .ok source =>
        let file ← fileNumber source.name
        report (.loading source.name file)
        let tokens := Token.tokenize file source.text
        expectLexed tokens
        nested (expandTokens (expandFile provider levels (some source.name)) tokens)

/-- Expands the file `root` and hands over all items emitted so far. -/
def run (provider : Provider) (root : String) : Expand (List (Located Item)) := do
  expandFile provider (maxDepth + 1) none none root
  let s ← get
  report (.expanded s.files.length s.items.size)
  modify fun s => { s with items := #[] }
  return s.items.toList

end StackAsm.Expansion
