import StackAsm.Proofs.Expansion.LineWise

/-!
# Conditional blocks as trees

The lines of a source whose conditional blocks are properly nested form a tree: a section is made
of lines and blocks, and a block of branches, each with a section of its own. An interpreter of
trees executes of every block it reaches the branch whose condition is the first to hold, or the
last one if there is none, and passes over the other branches. Expansion keeps no tree but a stack
of open blocks; here it is shown to do what the interpreter does, and to fail if there is no tree.
-/

namespace StackAsm.Expansion

/-! ### Trees -/

/-- The part that a directive has in a conditional block. -/
inductive Role where
  /-- It opens a block with a first condition. -/
  | opening
  /-- It starts a branch with a condition. -/
  | further
  /-- It starts the branch without one. -/
  | otherwise
  /-- It closes the block. -/
  | closing
  /-- None. -/
  | plain
  deriving DecidableEq, Repr

/-- The part that a directive has, by its name. -/
def DirectiveLine.role (line : DirectiveLine) : Role :=
  match line.name with
  | "if" | "ifdef" | "ifndef" => .opening
  | "elif" => .further
  | "else" => .otherwise
  | "endif" => .closing
  | _ => .plain

mutual

/-- Lines and blocks, one after the other. -/
inductive Section where
  | nil
  | content (tokens : List (Located Token)) (rest : Section)
  | directive (line : DirectiveLine) (hline : line.role = .plain) (rest : Section)
  | block (line : DirectiveLine) (hline : line.role = .opening) (body : Section)
      (branches : Branches) (rest : Section)

/-- What follows the first branch of a block, up to its end. Nothing but the end follows the
branch without a condition. -/
inductive Branches where
  | closing (line : DirectiveLine) (hline : line.role = .closing)
  | otherwise (line : DirectiveLine) (hline : line.role = .otherwise) (body : Section)
      (last : DirectiveLine) (hlast : last.role = .closing)
  | further (line : DirectiveLine) (hline : line.role = .further) (body : Section)
      (branches : Branches)

end

mutual

/-- The lines of a section. -/
def Section.lines : Section → List Line
  | .nil => []
  | .content tokens rest => .content tokens :: rest.lines
  | .directive line _ rest => .directive line :: rest.lines
  | .block line _ body branches rest =>
    .directive line :: body.lines ++ (branches.lines ++ rest.lines)

/-- The lines of branches, from the one that starts them to the end of the block. -/
def Branches.lines : Branches → List Line
  | .closing line _ => [.directive line]
  | .otherwise line _ body last _ => .directive line :: body.lines ++ [.directive last]
  | .further line _ body branches => .directive line :: body.lines ++ branches.lines

end

/-! ### The interpreter -/

namespace DirectiveLine

/-- Reports that the directive is reached. -/
def announce (line : DirectiveLine) : Expand Unit := report (.preDirective line.name line.loc)

/-- Whether the condition of a branch holds, with the constants of this moment. -/
def holds (line : DirectiveLine) : Expand Bool :=
  match line.name with
  | "ifdef" => line.isDefined "#ifdef"
  | "ifndef" => do return !(← line.isDefined "#ifndef")
  | _ => line.condition

/-- Whether the condition of a branch holds; it is not looked at if nothing depends on it. -/
def holdsIf (line : DirectiveLine) (needed : Bool) : Expand Bool :=
  if needed then line.holds else pure false

@[simp] theorem holdsIf_true (line : DirectiveLine) : line.holdsIf true = line.holds := rfl

@[simp] theorem holdsIf_false (line : DirectiveLine) : line.holdsIf false = pure false := rfl

/-- Starts the branch without a condition; nothing may follow on the line. -/
def startLast (line : DirectiveLine) : Expand Unit := do
  line.announce
  expectEnd "expected end of line after '#else'" line.arguments

/-- Ends a block; nothing may follow on the line. -/
def endBlock (line : DirectiveLine) : Expand Unit := do
  line.announce
  expectEnd "expected end of line after '#endif'" line.arguments

end DirectiveLine

mutual

/-- Passes over a section: no directive is executed, no condition looked at and nothing
emitted. -/
def Section.pass : Section → Expand Unit
  | .nil => return
  | .content tokens rest => do
    skipTokens tokens
    rest.pass
  | .directive line _ rest => do
    line.announce
    rest.pass
  | .block line _ body branches rest => do
    line.announce
    body.pass
    branches.pass
    rest.pass

/-- Passes over branches. -/
def Branches.pass : Branches → Expand Unit
  | .closing line _ => line.endBlock
  | .otherwise line _ body last _ => do
    line.startLast
    body.pass
    last.endBlock
  | .further line _ body branches => do
    line.announce
    body.pass
    branches.pass

end

mutual

/-- Executes a section. -/
def Section.execute (splice : Option Location → String → Expand Unit) : Section → Expand Unit
  | .nil => return
  | .content tokens rest => do
    emitTokens tokens
    rest.execute splice
  | .directive line _ rest => do
    line.announce
    line.execute splice
    rest.execute splice
  | .block line _ body branches rest => do
    line.announce
    if ← line.holds then
      body.execute splice
      branches.pass
    else
      body.pass
      branches.choose splice
    rest.execute splice

/-- Executes the first of the branches that is to be, if no branch before them was. -/
def Branches.choose (splice : Option Location → String → Expand Unit) : Branches → Expand Unit
  | .closing line _ => line.endBlock
  | .otherwise line _ body last _ => do
    line.startLast
    body.execute splice
    last.endBlock
  | .further line _ body branches => do
    line.announce
    if ← line.holds then
      body.execute splice
      branches.pass
    else
      body.pass
      branches.choose splice

end

/-! ### Directives by their part -/

variable {splice : Option Location → String → Expand Unit} {line : DirectiveLine} {frame : Frame}
  {frames : Frames}

/-- What a directive does, by its part. -/
theorem DirectiveLine.run_eq (line : DirectiveLine) (frames : Frames) :
    line.run splice frames = (do
      line.announce
      match line.role with
      | .opening =>
        let holds ← line.holdsIf frames.isActive
        return frames.openBlock holds line.loc
      | .further =>
        let pending ← line.blocks frames.isPending
        let holds ← line.holdsIf pending
        return frames.nextBranch holds
      | .otherwise =>
        let frames ← line.blocks frames.lastBranch
        expectEnd "expected end of line after '#else'" line.arguments
        return frames
      | .closing =>
        let frames ← line.blocks frames.closeBlock
        expectEnd "expected end of line after '#endif'" line.arguments
        return frames
      | .plain =>
        if frames.isActive then line.execute splice
        return frames) := by
  obtain ⟨loc, name, arguments⟩ := line
  unfold DirectiveLine.run
  refine bind_congr fun _ => ?_
  simp only [DirectiveLine.role]
  -- one case a name; where the condition is looked at depends on the surroundings
  split
  · cases frames.isActive <;> rfl
  · cases frames.isActive <;> rfl
  · cases frames.isActive <;> rfl
  · refine bind_congr fun pending => ?_
    cases pending <;> rfl
  · rfl
  · rfl
  · simp only [*]

/-! ### The stack of open blocks follows the tree -/

theorem expandLines_append (lines more : List Line) :
    expandLines splice frames (lines ++ more) =
      expandLines splice frames lines >>= (expandLines splice · more) := by
  induction lines generalizing frames with
  | nil => simp [expandLines]
  | cons line lines ih => simp [expandLines, ih]

theorem expandLines_append_eq {before between after : Frames} {lines more : List Line}
    {x y : Expand Unit}
    (hx : expandLines splice before lines = (do
      x
      return between))
    (hy : expandLines splice between more = (do
      y
      return after)) :
    expandLines splice before (lines ++ more) = (do
      x
      y
      return after) := by
  rw [expandLines_append, hx]
  simp [hy]

/-- Whether a branch of the block is still to be executed. -/
def Frame.isPending (frame : Frame) : Bool := frame.outerActive && !frame.chosen

/-- The block after a branch with a condition is started. -/
def Frame.next (frame : Frame) (holds : Bool) : Frame :=
  { frame with active := frame.isPending && holds
               chosen := frame.chosen || frame.isPending && holds }

/-- The block after the branch without a condition is started. -/
def Frame.last (frame : Frame) : Frame :=
  { frame with active := frame.isPending, chosen := true, inElse := true }

/-- The block after its first condition, in surroundings that are expanded or not. -/
def Frame.first (outerActive holds : Bool) (loc : Option Location) : Frame :=
  ⟨outerActive, outerActive && holds, outerActive && holds, false, loc⟩

theorem Frame.isPending_next (frame : Frame) (holds : Bool) :
    (frame.next holds).isPending = (frame.isPending && !holds) := by
  obtain ⟨outer, active, chosen, inElse, loc⟩ := frame
  cases outer <;> cases chosen <;> cases holds <;> rfl

theorem expandLine_opening (h : line.role = .opening) :
    expandLine splice frames (.directive line) = (do
      line.announce
      let holds ← line.holdsIf frames.isActive
      return Frame.first frames.isActive holds line.loc :: frames) := by
  rw [expandLine, line.run_eq, h]
  rfl

theorem expandLine_further (h : line.role = .further) (helse : frame.inElse = false) :
    expandLine splice (frame :: frames) (.directive line) = (do
      line.announce
      let holds ← line.holdsIf frame.isPending
      return frame.next holds :: frames) := by
  have hpending : Frames.isPending (frame :: frames) = .ok frame.isPending := by
    simp [Frames.isPending, helse, Frame.isPending]
  rw [expandLine, line.run_eq, h, hpending]
  simp [DirectiveLine.blocks, Frames.nextBranch, Frame.next, Frame.isPending]

theorem expandLine_otherwise (h : line.role = .otherwise) (helse : frame.inElse = false) :
    expandLine splice (frame :: frames) (.directive line) = (do
      line.startLast
      return frame.last :: frames) := by
  have hlast : Frames.lastBranch (frame :: frames) = .ok (frame.last :: frames) := by
    simp [Frames.lastBranch, helse, Frame.last, Frame.isPending]
  rw [expandLine, line.run_eq, h, hlast]
  simp [DirectiveLine.blocks, DirectiveLine.startLast]

theorem expandLine_closing (h : line.role = .closing) :
    expandLine splice (frame :: frames) (.directive line) = (do
      line.endBlock
      return frames) := by
  rw [expandLine, line.run_eq, h]
  simp [DirectiveLine.blocks, Frames.closeBlock, DirectiveLine.endBlock]

theorem expandLine_plain (h : line.role = .plain) :
    expandLine splice frames (.directive line) = (do
      line.announce
      if frames.isActive then line.execute splice
      return frames) := by
  rw [expandLine, line.run_eq, h]

mutual

/-- Where nothing is expanded, a section is passed over. -/
theorem expandLines_pass (frames : Frames) (h : frames.isActive = false) (tree : Section) :
    expandLines splice frames tree.lines = (do
      tree.pass
      return frames) := by
  cases tree with
  | nil => simp [Section.lines, Section.pass, expandLines]
  | content tokens rest =>
    have hrest := expandLines_pass frames h rest
    simp [Section.lines, Section.pass, expandLines, expandLine, h, hrest]
  | directive line hline rest =>
    have hrest := expandLines_pass frames h rest
    simp [Section.lines, Section.pass, expandLines, expandLine_plain hline, h, hrest]
  | block line hline body branches rest =>
    have hbody := expandLines_pass (Frame.first false false line.loc :: frames) rfl body
    have hbranches := expandLines_passBranches (Frame.first false false line.loc) frames rfl rfl
      branches
    have hrest := expandLines_pass frames h rest
    simp [Section.lines, Section.pass, expandLines, expandLine_opening hline, h,
      expandLines_append, hbody, hbranches, hrest]

/-- Where no branch is to be executed any more, the branches are passed over. -/
theorem expandLines_passBranches (frame : Frame) (frames : Frames) (helse : frame.inElse = false)
    (h : frame.isPending = false) (branches : Branches) :
    expandLines splice (frame :: frames) branches.lines = (do
      branches.pass
      return frames) := by
  cases branches with
  | closing line hline =>
    simp [Branches.lines, Branches.pass, expandLines, expandLine_closing hline]
  | otherwise line hline body last hlast =>
    have hbody := expandLines_pass (frame.last :: frames) h body
    simp [Branches.lines, Branches.pass, expandLines, expandLine_otherwise hline helse,
      expandLines_append, hbody, expandLine_closing hlast]
  | further line hline body branches =>
    have hbody := expandLines_pass (frame.next false :: frames) (Bool.and_false _) body
    have hpending : (frame.next false).isPending = false := by rw [Frame.isPending_next, h]; rfl
    have hbranches := expandLines_passBranches (frame.next false) frames helse hpending branches
    simp [Branches.lines, Branches.pass, expandLines, expandLine_further hline helse, h,
      expandLines_append, hbody, hbranches]

end

mutual

/-- Where lines are expanded, a section is executed. -/
theorem expandLines_execute (frames : Frames) (h : frames.isActive = true) (tree : Section) :
    expandLines splice frames tree.lines = (do
      tree.execute splice
      return frames) := by
  cases tree with
  | nil => simp [Section.lines, Section.execute, expandLines]
  | content tokens rest =>
    have hrest := expandLines_execute frames h rest
    simp [Section.lines, Section.execute, expandLines, expandLine, h, hrest]
  | directive line hline rest =>
    have hrest := expandLines_execute frames h rest
    simp [Section.lines, Section.execute, expandLines, expandLine_plain hline, h, hrest]
  | block line hline body branches rest =>
    have hrest := expandLines_execute frames h rest
    have htaken := expandLines_append_eq
      (expandLines_execute (Frame.first true true line.loc :: frames) rfl body)
      (expandLines_passBranches _ frames rfl rfl branches)
    have hpassed := expandLines_append_eq
      (expandLines_pass (Frame.first true false line.loc :: frames) rfl body)
      (expandLines_choose _ frames rfl rfl branches)
    simp only [Section.lines, Section.execute, List.cons_append, ← List.append_assoc, expandLines,
      expandLine_opening hline, h, DirectiveLine.holdsIf_true, expandLines_append _ rest.lines,
      bind_assoc, pure_bind]
    refine bind_congr fun _ => bind_congr fun holds => ?_
    cases holds with
    | true => simp [htaken, hrest]
    | false => simp [hpassed, hrest]

/-- While a branch is to be executed, the first of the branches that is one is. -/
theorem expandLines_choose (frame : Frame) (frames : Frames) (helse : frame.inElse = false)
    (h : frame.isPending = true) (branches : Branches) :
    expandLines splice (frame :: frames) branches.lines = (do
      branches.choose splice
      return frames) := by
  cases branches with
  | closing line hline =>
    simp [Branches.lines, Branches.choose, expandLines, expandLine_closing hline]
  | otherwise line hline body last hlast =>
    have hbody := expandLines_execute (frame.last :: frames) h body
    simp [Branches.lines, Branches.choose, expandLines, expandLine_otherwise hline helse,
      expandLines_append, hbody, expandLine_closing hlast]
  | further line hline body branches =>
    have hactive : ∀ holds, (frame.next holds).active = holds := by simp [Frame.next, h]
    have hpending : ∀ holds, (frame.next holds).isPending = !holds := by
      simp [Frame.isPending_next, h]
    have htaken := expandLines_append_eq
      (expandLines_execute (frame.next true :: frames) (hactive true) body)
      (expandLines_passBranches (frame.next true) frames helse (hpending true) branches)
    have hpassed := expandLines_append_eq
      (expandLines_pass (frame.next false :: frames) (hactive false) body)
      (expandLines_choose (frame.next false) frames helse (hpending false) branches)
    simp only [Branches.lines, Branches.choose, List.cons_append, expandLines,
      expandLine_further hline helse, h, DirectiveLine.holdsIf_true, bind_assoc, pure_bind]
    refine bind_congr fun _ => bind_congr fun holds => ?_
    cases holds with
    | true => simp [htaken]
    | false => simp [hpassed]

end

end StackAsm.Expansion
