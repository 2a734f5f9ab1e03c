import StackAsm.Container
import StackAsm.Declaration.Error
import StackAsm.Item

/-!
# The arguments of a declaration

Reading the items of a line from left to right. An item of the wrong kind is reported where it
stands, and a missing one at the last item of the line.
-/

namespace StackAsm.Declaration

/-- The items of a line that are still to be read. -/
structure Arguments where
  /-- Where the last item of the line stands. -/
  last : Option Location
  /-- The items to be read. -/
  rest : List (Located Item)
  deriving DecidableEq, Repr

/-- The items after the first of a line. -/
def Arguments.ofLine (head : Located Item) (rest : List (Located Item)) : Arguments :=
  ⟨(rest.getLast?.getD head).loc, rest⟩

/-- Reads arguments. -/
abbrev Read := StateT Arguments (Except (Located Error))

/-- The error of an item of the wrong kind. -/
def unexpected (item : Located Item) (expected : String) : Located Error :=
  item.withValue (.unexpectedItem item.value.shown expected)

/-- The next item. -/
def readItem (expected : String) : Read (Located Item) := fun args =>
  match args.rest with
  | [] => .error ⟨args.last, .unexpectedEnd expected⟩
  | item :: rest => .ok (item, { args with rest })

/-- The next item, a name. -/
def readName : Read (Located String) := do
  let item ← readItem "a name"
  match item.value with
  | .word name => return item.withValue name
  | _ => throw (unexpected item "a name")

/-- The next item, a number. -/
def readNumber (expected : String) : Read (Located Int64) := do
  let item ← readItem expected
  match item.value with
  | .number n => return item.withValue n
  | _ => throw (unexpected item expected)

/-- The next item, a byte. -/
def readByte (expected : String) : Read UInt8 := do
  let n ← readNumber expected
  if fitsByte n.value then return n.value.toUInt64.toUInt8
  else throw (n.withValue (.valueOutOfRange n.value expected))

/-- The next item, a text. -/
def readText : Read String := do
  let item ← readItem "a string"
  match item.value with
  | .text s => return s
  | _ => throw (unexpected item "a string")

/-- The next item, a separator. -/
def readSeparator : Read Unit := do
  let item ← readItem "a separator"
  match item.value with
  | .separator _ => return
  | _ => throw (unexpected item "a separator")

/-- Whether anything follows; if so, a separator has to come first. -/
def readMore : Read Bool := do
  if (← get).rest = [] then return false
  readSeparator
  return true

/-- Refuses further items. -/
def Arguments.expectEnd (args : Arguments) : Except (Located Error) Unit :=
  match args.rest with
  | [] => .ok ()
  | item :: _ => .error (unexpected item "end of line")

/-! ### Lists of values -/

/-- What may come next in a list of values. -/
inductive Place where
  /-- A value, or a bracket before it. -/
  | beforeValue
  /-- A bracket, a separator or the end. -/
  | afterValue
  deriving DecidableEq, Repr

/-- Adds to `done` the values of the list `items`, where `depth` brackets are open. Brackets group
values and mean nothing. -/
def elementsInto (last : Option Location) (done : Array (Located Item)) (depth : Nat)
    (place : Place) : List (Located Item) → Except (Located Error) (Array (Located Item))
  | [] =>
    match place with
    | .beforeValue => .error ⟨last, .unexpectedEnd "a value"⟩
    | .afterValue => if depth = 0 then .ok done else .error ⟨last, .unexpectedEnd "']'"⟩
  | item :: items =>
    match place, item.value with
    | .beforeValue, .bracketOpen => elementsInto last done (depth + 1) .beforeValue items
    | .beforeValue, .number _ | .beforeValue, .text _ =>
      elementsInto last (done.push item) depth .afterValue items
    | .beforeValue, _ => .error (unexpected item "a value")
    | .afterValue, .separator _ => elementsInto last done depth .beforeValue items
    | .afterValue, .bracketClose =>
      if depth = 0 then .error (unexpected item "a separator")
      else elementsInto last done (depth - 1) .afterValue items
    | .afterValue, _ => .error (unexpected item "a separator")

/-- The values of the list that makes up the rest of the line. -/
def readElements : Read (List (Located Item)) := fun args => do
  let elements ← elementsInto args.last #[] 0 .beforeValue args.rest
  return (elements.toList, { args with rest := [] })

/-! ### Versions -/

/-- Three bytes, of which the third may be left out unless `full`. -/
def readVersion (full : Bool) : Read Triple := do
  let tooShort : Read Triple := do throw ⟨(← get).last, .unexpectedEnd "a separator"⟩
  let first ← readByte "a version byte"
  if !(← readMore) then return ← tooShort
  let second ← readByte "a version byte"
  if !(← readMore) then
    if full then return ← tooShort
    return ⟨first, second, 0⟩
  let third ← readByte "a version byte"
  return ⟨first, second, third⟩

end StackAsm.Declaration
