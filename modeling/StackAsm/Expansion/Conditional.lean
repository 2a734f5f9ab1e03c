import StackAsm.Expansion.Error

/-!
# Conditional blocks

The blocks that are open at a point of a source, the innermost first. Each knows whether its
current branch is expanded and whether one of its branches has been already.
-/

namespace StackAsm.Expansion

/-- An open conditional block. -/
structure Frame where
  /-- Whether what surrounds the block is expanded. -/
  outerActive : Bool
  /-- Whether the current branch is expanded. -/
  active : Bool
  /-- Whether a branch has been chosen, the current one included. -/
  chosen : Bool
  /-- Whether the current branch is the last one. -/
  inElse : Bool
  /-- Where the block was opened. -/
  loc : Option Location
  deriving DecidableEq, Repr

/-- The open blocks, the innermost first. -/
abbrev Frames := List Frame

namespace Frames

/-- Whether what follows is expanded. -/
def isActive : Frames → Bool
  | [] => true
  | frame :: _ => frame.active

/-- Opens a block whose first condition is `condition`. -/
def openBlock (frames : Frames) (condition : Bool) (loc : Option Location) : Frames :=
  let active := frames.isActive && condition
  ⟨frames.isActive, active, active, false, loc⟩ :: frames

/-- Whether the condition of a further branch decides anything. -/
def isPending : Frames → Except Error Bool
  | [] => .error (.directiveOrder "'#elif' without '#if'")
  | frame :: _ =>
    if frame.inElse then .error (.directiveOrder "'#elif' after '#else'")
    else .ok (frame.outerActive && !frame.chosen)

/-- Starts a further branch with the condition `condition`. -/
def nextBranch (condition : Bool) : Frames → Frames
  | [] => []
  | frame :: frames =>
    let active := frame.outerActive && !frame.chosen && condition
    { frame with active, chosen := frame.chosen || active } :: frames

/-- Starts the branch that is left if no other was chosen. -/
def lastBranch : Frames → Except Error Frames
  | [] => .error (.directiveOrder "'#else' without '#if'")
  | frame :: frames =>
    if frame.inElse then .error (.directiveOrder "duplicate '#else'")
    else
      .ok ({ frame with active := frame.outerActive && !frame.chosen, chosen := true,
                        inElse := true } :: frames)

/-- Closes the innermost block. -/
def closeBlock : Frames → Except Error Frames
  | [] => .error (.directiveOrder "'#endif' without '#if'")
  | _ :: frames => .ok frames

end Frames

end StackAsm.Expansion
