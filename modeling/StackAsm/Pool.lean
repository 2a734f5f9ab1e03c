import StackAsm.Limit
import StackAsm.Width

/-!
# The pool of constants

The constants of a container, each held once. Adding a constant that is there already gives its
index and changes nothing.

An index is a byte, made of the number of constants by dropping its high bits. That none is dropped,
as the pool is full before, is proved.
-/

namespace StackAsm

/-- The constants of a container. -/
structure Pool where
  /-- The constants by index. -/
  entries : List Bytes := []
  deriving DecidableEq, Repr

/-- Why a constant is refused. -/
inductive PoolError where
  /-- The constant has no bytes. -/
  | empty
  /-- There is no index left. -/
  | full
  deriving DecidableEq, Repr

/-- The wording of a refusal. -/
def PoolError.message : PoolError → String
  | empty => "array is empty"
  | full => "too many constants (at most " ++ toString Limit.constants ++ ")"

namespace Pool

/-- The pool without constants. -/
def empty : Pool := {}

/-- The constant of an index. -/
def get? (pool : Pool) (i : UInt8) : Option Bytes := pool.entries[i.toNat]?

/-- The number of constants. -/
def size (pool : Pool) : Nat := pool.entries.length

/-- Adds a constant and gives its index. The state is the pool; there is one after a refusal,
too. -/
def add (bytes : Bytes) : EStateM PoolError Pool UInt8 := do
  let pool ← get
  if bytes = [] then throw .empty
  else
    match pool.entries.idxOf? bytes with
    | some i => return UInt8.ofNat i
    | none =>
      if Limit.constants ≤ pool.size then throw .full
      else
        modify fun pool => ⟨pool.entries ++ [bytes]⟩
        return UInt8.ofNat ((← get).size - 1)

/-- The index of a constant and the pool with it. -/
def register (pool : Pool) (bytes : Bytes) : Except PoolError (UInt8 × Pool) :=
  match add bytes pool with
  | .ok i pool' => .ok (i, pool')
  | .error e _ => .error e

end Pool

end StackAsm
