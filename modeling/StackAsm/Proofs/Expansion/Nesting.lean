import StackAsm.Proofs.Expansion.Blocks

/-!
# Conditional blocks are block-structured

The tree of a source exists exactly if its conditional directives are properly nested: every line
that is expanded turns the stack of open blocks in one of six ways (`Turns`), and lines that leave
no block open complete those that were (`Completes`). So expansion either does what the
interpreter of trees does or fails.
-/

namespace StackAsm.Expansion

variable {splice : Option Location → String → Expand Unit} {line : DirectiveLine} {frames : Frames}

/-! ### Lines that form no tree -/

/-- The lines complete the open blocks, of which it is known whether they are in the branch
without a condition. -/
def Completes : List Bool → List Line → Prop
  | [], lines => ∃ tree : Section, lines = tree.lines
  | false :: blocks, lines => ∃ (body : Section) (branches : Branches) (more : List Line),
    lines = body.lines ++ (branches.lines ++ more) ∧ Completes blocks more
  | true :: blocks, lines => ∃ (body : Section) (last : DirectiveLine) (more : List Line),
    last.role = .closing ∧ lines = body.lines ++ .directive last :: more ∧ Completes blocks more

/-- What goes in front of every section goes in front of completing lines. -/
theorem Completes.cons_of_section {blocks : List Bool} {lines : List Line} (first : List Line)
    (h : Completes blocks lines) (f : Section → Section)
    (hf : ∀ tree, (f tree).lines = first ++ tree.lines) : Completes blocks (first ++ lines) := by
  rcases blocks with _ | ⟨_ | _, blocks⟩
  · obtain ⟨tree, rfl⟩ := h
    exact ⟨f tree, (hf tree).symm⟩
  · obtain ⟨body, branches, more, rfl, hmore⟩ := h
    exact ⟨f body, branches, more, by rw [hf, List.append_assoc], hmore⟩
  · obtain ⟨body, last, more, hlast, rfl, hmore⟩ := h
    exact ⟨f body, last, more, hlast, by rw [hf, List.append_assoc], hmore⟩

/-- What a line that is expanded does to the open blocks. -/
inductive Turns : Line → List Bool → List Bool → Prop where
  | content (tokens : List (Located Token)) (blocks : List Bool) :
      Turns (.content tokens) blocks blocks
  | plain {line : DirectiveLine} (blocks : List Bool) :
      line.role = .plain → Turns (.directive line) blocks blocks
  | opening {line : DirectiveLine} (blocks : List Bool) :
      line.role = .opening → Turns (.directive line) blocks (false :: blocks)
  | further {line : DirectiveLine} (blocks : List Bool) :
      line.role = .further → Turns (.directive line) (false :: blocks) (false :: blocks)
  | otherwise {line : DirectiveLine} (blocks : List Bool) :
      line.role = .otherwise → Turns (.directive line) (false :: blocks) (true :: blocks)
  | closing {line : DirectiveLine} (inElse : Bool) (blocks : List Bool) :
      line.role = .closing → Turns (.directive line) (inElse :: blocks) blocks

theorem Turns.completes {line : Line} {blocks blocks' : List Bool} {lines : List Line}
    (h : Turns line blocks blocks') (hlines : Completes blocks' lines) :
    Completes blocks (line :: lines) := by
  cases h with
  | content tokens => exact hlines.cons_of_section [.content tokens] (.content tokens) fun _ => rfl
  | @plain line _ hline =>
    exact hlines.cons_of_section [.directive line] (.directive line hline) fun _ => rfl
  | @opening line _ hline =>
    obtain ⟨body, branches, more, rfl, hmore⟩ := hlines
    have hblock := hmore.cons_of_section (.directive line :: body.lines ++ branches.lines)
      (.block line hline body branches) fun tree => by simp [Section.lines]
    simpa using hblock
  | further blocks hline =>
    obtain ⟨body, branches, more, rfl, hmore⟩ := hlines
    exact ⟨.nil, .further _ hline body branches, more, by simp [Section.lines, Branches.lines],
      hmore⟩
  | otherwise blocks hline =>
    obtain ⟨body, last, more, hlast, rfl, hmore⟩ := hlines
    exact ⟨.nil, .otherwise _ hline body last hlast, more,
      by simp [Section.lines, Branches.lines], hmore⟩
  | closing inElse _ hline =>
    cases inElse with
    | false => exact ⟨.nil, .closing _ hline, lines, rfl, hlines⟩
    | true => exact ⟨.nil, _, lines, hline, rfl, hlines⟩

/-- Which of the open blocks are in the branch without a condition. -/
def Frames.inElse (frames : Frames) : List Bool := frames.map (·.inElse)

theorem blocks_eq_ok {α : Type} {outcome : Except Error α} {a : α} {s s' : State}
    (h : line.blocks outcome s = .ok a s') : outcome = .ok a := by
  cases outcome with
  | error e => cases h
  | ok b =>
    cases h
    rfl

theorem turns_of_run {s s' : State} {frames' : Frames}
    (h : line.run splice frames s = .ok frames' s') :
    Turns (.directive line) frames.inElse frames'.inElse := by
  rw [line.run_eq] at h
  obtain ⟨_, s₁, -, h⟩ := estate_bind_eq_ok.mp h
  cases hrole : line.role with
  | opening =>
    rw [hrole] at h
    obtain ⟨holds, s₂, -, h⟩ := estate_bind_eq_ok.mp h
    cases h
    exact .opening _ hrole
  | further =>
    rw [hrole] at h
    obtain ⟨pending, s₂, hpending, h⟩ := estate_bind_eq_ok.mp h
    obtain ⟨holds, s₃, -, h⟩ := estate_bind_eq_ok.mp h
    cases h
    rcases frames with _ | ⟨⟨outer, active, chosen, inElse, loc⟩, frames⟩
    · cases blocks_eq_ok hpending
    · cases inElse with
      | true => cases blocks_eq_ok hpending
      | false => exact .further _ hrole
  | otherwise =>
    rw [hrole] at h
    obtain ⟨after, s₂, hlast, h⟩ := estate_bind_eq_ok.mp h
    obtain ⟨_, s₃, -, h⟩ := estate_bind_eq_ok.mp h
    cases h
    rcases frames with _ | ⟨⟨outer, active, chosen, inElse, loc⟩, frames⟩
    · cases blocks_eq_ok hlast
    · cases inElse with
      | true => cases blocks_eq_ok hlast
      | false =>
        cases blocks_eq_ok hlast
        exact .otherwise _ hrole
  | closing =>
    rw [hrole] at h
    obtain ⟨after, s₂, hclose, h⟩ := estate_bind_eq_ok.mp h
    obtain ⟨_, s₃, -, h⟩ := estate_bind_eq_ok.mp h
    cases h
    cases frames with
    | nil => cases blocks_eq_ok hclose
    | cons frame frames =>
      cases blocks_eq_ok hclose
      exact .closing _ _ hrole
  | plain =>
    simp only [hrole] at h
    obtain rfl : frames' = frames := by
      split at h
      · obtain ⟨_, s₂, -, h⟩ := estate_bind_eq_ok.mp h
        cases h
        rfl
      · cases h
        rfl
    exact .plain _ hrole

theorem turns_of_expandLine {line : Line} {s s' : State} {frames' : Frames}
    (h : expandLine splice frames line s = .ok frames' s') :
    Turns line frames.inElse frames'.inElse := by
  cases line with
  | directive line => exact turns_of_run h
  | content tokens =>
    obtain rfl : frames' = frames := by
      rw [expandLine] at h
      split at h
      all_goals
        obtain ⟨_, s₁, -, h⟩ := estate_bind_eq_ok.mp h
        cases h
        rfl
    exact .content _ _

/-- Lines that are expanded and leave no block open complete the blocks that were. -/
theorem completes_of_expandLines {lines : List Line} {s s' : State}
    (h : expandLines splice frames lines s = .ok [] s') : Completes frames.inElse lines := by
  induction lines generalizing frames s with
  | nil =>
    cases h
    exact ⟨.nil, rfl⟩
  | cons line lines ih =>
    obtain ⟨frames', s₁, hline, h⟩ := estate_bind_eq_ok.mp h
    exact (turns_of_expandLine hline).completes (ih h)

/-! ### Sections that are passed over -/

/-- What a source is expanded for. -/
def State.output (s : State) : Table Constant × List String × Array (Located Item) :=
  (s.constants, s.files, s.items)

/-- Nothing is defined, loaded or emitted, whether the step fails or not. -/
def Idle {α : Type} (x : Expand α) : Prop := ∀ s, MovesFrom State.output Eq s x

theorem Idle.bind {α β : Type} {x : Expand α} {f : α → Expand β} (hx : Idle x)
    (hf : ∀ a, Idle (f a)) : Idle (x >>= f) :=
  fun s => (hx s).bind fun a s' _ => hf a s'

theorem Idle.output_eq {α : Type} {x : Expand α} (h : Idle x) (s : State) :
    (stateAfter (x s)).output = s.output :=
  keeps_of_reflTransGen (P := (· = s.output)) (h s) (fun _ _ h ht => h ▸ ht) rfl

theorem idle_announce : Idle line.announce := fun _ => .modify_hidden rfl

theorem idle_expectEnd (reason : String) (tokens : List (Located Token)) :
    Idle (expectEnd reason tokens) := by
  intro s
  cases tokens with
  | nil => exact .pure _
  | cons => exact .throw _

theorem idle_skipTokens (tokens : List (Located Token)) : Idle (skipTokens tokens) := by
  intro s
  induction tokens with
  | nil => exact .pure _
  | cons token tokens ih =>
    rw [skipTokens]
    split
    · exact .throw _
    · exact ih

theorem idle_startLast : Idle line.startLast := idle_announce.bind fun _ => idle_expectEnd _ _

theorem idle_endBlock : Idle line.endBlock := idle_announce.bind fun _ => idle_expectEnd _ _

mutual

theorem Section.idle_pass (tree : Section) : Idle tree.pass := by
  cases tree with
  | nil => exact fun _ => .pure _
  | content tokens rest => exact (idle_skipTokens tokens).bind fun _ => rest.idle_pass
  | directive line _ rest => exact idle_announce.bind fun _ => rest.idle_pass
  | block line _ body branches rest =>
    refine idle_announce.bind fun _ => body.idle_pass.bind fun _ => ?_
    exact branches.idle_pass.bind fun _ => rest.idle_pass

theorem Branches.idle_pass (branches : Branches) : Idle branches.pass := by
  cases branches with
  | closing line _ => exact idle_endBlock
  | otherwise line _ body last _ =>
    exact idle_startLast.bind fun _ => body.idle_pass.bind fun _ => idle_endBlock
  | further line _ body branches =>
    exact idle_announce.bind fun _ => body.idle_pass.bind fun _ => branches.idle_pass

end

/-! ### Expansion as block structure -/

/-- **Conditional blocks are block-structured**: if the lines of the tokens form a tree, expansion
does from every state what the interpreter does with the tree; if they form none, it fails. Of a
section that is passed over nothing is defined, loaded or emitted. -/
theorem expandTokens_eq_execute (splice : Option Location → String → Expand Unit)
    (tokens : List (Located Token)) :
    Splits tokens (tokenLines tokens) ∧
    (∀ tree : Section, sourceLines tokens = tree.lines →
      expandTokens splice tokens = tree.execute splice) ∧
    ((¬∃ tree : Section, sourceLines tokens = tree.lines) →
      ∀ s, ∃ e s', expandTokens splice tokens s = .error e s') ∧
    ∀ (tree : Section) (s : State), (stateAfter (tree.pass s)).output = s.output := by
  refine ⟨splits_tokenLines tokens, fun tree htree => ?_, fun hno s => ?_,
    fun tree s => tree.idle_pass.output_eq s⟩
  · rw [expandTokens_eq, htree, expandLines_execute [] rfl tree]
    simp [expectClosed]
  · cases hrun : expandTokens splice tokens s with
    | error e s' => exact ⟨e, s', rfl⟩
    | ok a s' =>
      rw [expandTokens_eq] at hrun
      obtain ⟨frames, s₁, hlines, h⟩ := estate_bind_eq_ok.mp hrun
      cases frames with
      | nil => exact absurd (completes_of_expandLines hlines) hno
      | cons frame frames => cases h

/-- A block inside the first of three branches, and a line after it:
```
#ifndef A
#define A 1
#IfDef A ; which now has a value
x
#else
y
#endif
#elif A
#include "never"
#else
#undef A
#endif
z A
```
-/
def sampleTokens : List (Located Token) :=
  [[.preDirective "ifndef", .word "A", .lineEnd],
    [.preDirective "define", .word "A", .number "1", .lineEnd],
    [.preDirective "IfDef", .word "A", .comment " which now has a value", .lineEnd],
    [.word "x", .lineEnd],
    [.preDirective "else", .lineEnd],
    [.word "y", .lineEnd],
    [.preDirective "endif", .lineEnd],
    [.preDirective "elif", .word "A", .lineEnd],
    [.preDirective "include", .text "never", .lineEnd],
    [.preDirective "else", .lineEnd],
    [.preDirective "undef", .word "A", .lineEnd],
    [.preDirective "endif", .lineEnd],
    [.word "z", .word "A"]].flatten.map .nowhere

/-- The tree of the inner block. -/
def innerTree : Section :=
  .block ⟨none, "ifdef", [.nowhere (.word "A")]⟩ (by decide)
    (.content [.nowhere (.word "x"), .nowhere .lineEnd] .nil)
    (.otherwise ⟨none, "else", []⟩ (by decide)
      (.content [.nowhere (.word "y"), .nowhere .lineEnd] .nil)
      ⟨none, "endif", []⟩ (by decide))
    .nil

/-- The tree of all of them. -/
def sampleTree : Section :=
  .block ⟨none, "ifndef", [.nowhere (.word "A")]⟩ (by decide)
    (.directive ⟨none, "define", [.nowhere (.word "A"), .nowhere (.number "1")]⟩ (by decide)
      innerTree)
    (.further ⟨none, "elif", [.nowhere (.word "A")]⟩ (by decide)
      (.directive ⟨none, "include", [.nowhere (.text "never")]⟩ (by decide) .nil)
      (.otherwise ⟨none, "else", []⟩ (by decide)
        (.directive ⟨none, "undef", [.nowhere (.word "A")]⟩ (by decide) .nil)
        ⟨none, "endif", []⟩ (by decide)))
    (.content [.nowhere (.word "z"), .nowhere (.word "A")] .nil)

/-- What includes a file where there are none. -/
def refuseFile (loc : Option Location) (name : String) : Expand Unit :=
  throw ⟨loc, .inclusion name "there are no files"⟩

/-- The end of a block that was not opened. -/
def unopenedTokens : List (Located Token) := [.nowhere (.preDirective "endif")]

theorem unopenedTokens_ne_lines (tree : Section) : sourceLines unopenedTokens ≠ tree.lines := by
  intro h
  have hlines : sourceLines unopenedTokens = [.directive ⟨none, "endif", []⟩] := by decide +kernel
  have hhead := congrArg List.head? (hlines.symm.trans h)
  cases tree with
  | nil => cases hhead
  | content tokens rest => cases hhead
  | directive line hline rest =>
    cases hhead
    exact absurd hline (by decide)
  | block line hline body branches rest =>
    cases hhead
    exact absurd hline (by decide)

/-- The inner block is decided by what the outer has just defined, and of the branches that are
passed over nothing is left. -/
theorem expandTokens_eq_execute_sample :
    sourceLines sampleTokens = sampleTree.lines ∧
    expandTokens refuseFile sampleTokens = sampleTree.execute refuseFile ∧
    (∃ s, sampleTree.execute refuseFile {} = .ok () s ∧
      s.items.toList.map (·.value) = [.word "x", .lineEnd, .word "z", .number 1] ∧
      s.constants = ⟨[("A", .number 1)]⟩) ∧
    ∃ e s, expandTokens refuseFile unopenedTokens {} = .error e s := by
  have hlines : sourceLines sampleTokens = sampleTree.lines := by decide +kernel
  have hsample := (expandTokens_eq_execute refuseFile sampleTokens).2.1 sampleTree hlines
  have houtput : (match expandTokens refuseFile sampleTokens {} with
      | .ok _ s => some (s.items.toList.map (·.value), s.constants)
      | .error _ _ => none) =
      some ([.word "x", .lineEnd, .word "z", .number 1], ⟨[("A", .number 1)]⟩) := by
    decide +kernel
  refine ⟨hlines, hsample, ?_, (expandTokens_eq_execute _ _).2.2.1
    (not_exists.mpr unopenedTokens_ne_lines) _⟩
  cases hrun : expandTokens refuseFile sampleTokens {} with
  | error e s =>
    rw [hrun] at houtput
    cases houtput
  | ok _ s =>
    simp only [hrun, Option.some.injEq, Prod.mk.injEq] at houtput
    exact ⟨s, by rw [← hsample, hrun], houtput⟩

end StackAsm.Expansion
