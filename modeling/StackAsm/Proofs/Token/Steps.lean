import StackAsm.Token.Lexer
import Mathlib.Data.List.Basic

/-!
# The lexer from character to character

While a token is being read, the next character does one of two things: it becomes a part of the
token, or it ends the token. Which of them, and what the token then is, depends on the kind of the
token and on the characters collected of it, and not on the place. The end of a line does what the
end of the text does: no token takes it in, so nothing is being read behind it. The two characters
that end a line do the same.
-/

namespace StackAsm.Token

theorem isLineEnd_iff {c : Char} : isLineEnd c = true ↔ c = '\n' ∨ c = '\r' := by
  simp [isLineEnd]

theorem doubleOperator?_lineEnd (first : Char) {c : Char} (h : isLineEnd c = true) :
    doubleOperator? first c = none := by
  rcases isLineEnd_iff.mp h with rfl | rfl
  all_goals
    unfold doubleOperator?
    split
    all_goals simp_all

namespace Lexer

variable {l l' : Lexer} {next : Option Char} {c : Char}

/-! ### Until a character is taken in -/

theorem feed_of_taken (h : l.step next = (l', true)) : l.feed next = l' := by
  rw [feed]
  split <;> simp_all

theorem feed_of_refused (h : l.step next = (l', false)) : l.feed next = l'.feed next := by
  rw [feed]
  split <;> simp_all

theorem feed_of_idle (h : l.mode = .idle) (next : Option Char) :
    l.feed next = next.elim l l.begin := by
  apply feed_of_taken
  rw [step, h]

/-! ### What a step does to the token that is being read -/

/-- What the next character does to a token. -/
inductive Turn where
  /-- It belongs to the token, which may go on. -/
  | more (mode : Mode) (buffer : String)
  /-- The token ends, and the character belongs to it or not. -/
  | last (token : Token) (taken : Bool)

/-- The lexer after it. -/
def turn (l : Lexer) : Turn → Lexer × Bool
  | .more mode buffer => ({ l with mode, buffer }, true)
  | .last token taken => (l.finish token, taken)

/-- What is done to a token depends on its kind and on the characters collected of it alone. -/
def Turns (mode : Mode) (buffer : String) (f : Lexer → Lexer × Bool) : Prop :=
  ∃ t, ∀ l : Lexer, l.mode = mode → l.buffer = buffer → f l = l.turn t

variable {mode : Mode} {buffer : String} {f g : Lexer → Lexer × Bool}

theorem Turns.congr (h : Turns mode buffer f) (heq : ∀ l : Lexer, l.mode = mode → g l = f l) :
    Turns mode buffer g := by
  obtain ⟨t, ht⟩ := h
  exact ⟨t, fun l hmode hbuffer => (heq l hmode).trans (ht l hmode hbuffer)⟩

/-- It is enough to look at the characters that are taken in, and at the token where none is. -/
theorem turns_orFinish {α : Type} {taken : Option α} {take : Lexer → α → Lexer}
    (make : String → Token) (h : ∀ a, Turns mode buffer fun l => (take l a, true)) :
    Turns mode buffer fun l => l.orFinish (taken.map (take l)) (make l.buffer) := by
  cases taken with
  | none =>
    refine ⟨.last (make buffer) false, ?_⟩
    rintro l - rfl
    rfl
  | some a =>
    obtain ⟨t, ht⟩ := h a
    exact ⟨t, ht⟩

theorem turns_collectWhile (mode : Mode) (buffer : String) (belongs : Char → Bool)
    (make : String → Token) (next : Option Char) :
    Turns mode buffer fun l => l.collectWhile belongs make next := by
  refine turns_orFinish make fun c => ⟨.more mode (buffer.push c), ?_⟩
  rintro l rfl rfl
  rfl

theorem turns_inText (mode : Mode) (buffer : String) (afterBackslash : Bool)
    (next : Option Char) : Turns mode buffer fun l => l.inText afterBackslash next := by
  refine turns_orFinish (fun raw => .malformed ("\"" ++ raw)) fun c => ?_
  by_cases hquote : c = '"' ∧ afterBackslash = false
  · refine ⟨.last (.text (String.ofList (unescaped buffer.toList))) true, ?_⟩
    rintro l - rfl
    simp only [textChar, if_pos hquote]
    rfl
  · refine ⟨.more (.text (!afterBackslash && c == '\\')) (buffer.push c), ?_⟩
    rintro l - rfl
    simp only [textChar, if_neg hquote]
    rfl

theorem turns_afterMark (mode : Mode) (buffer mark : String) (make : Char → Token)
    (next : Option Char) : Turns mode buffer fun l => l.afterMark mark make next :=
  turns_orFinish (fun _ => .malformed mark) fun c => ⟨.last (make c) true, fun _ _ _ => rfl⟩

theorem turns_afterSign (mode : Mode) (buffer : String) (sign : Char) (next : Option Char) :
    Turns mode buffer fun l => l.afterSign sign next := by
  refine turns_orFinish (fun _ => .operator (ofSign sign)) fun c =>
    ⟨.more .number ((buffer.push sign).push c), ?_⟩
  rintro l - rfl
  rfl

theorem turns_afterOperator (mode : Mode) (buffer : String) (first : Char) (next : Option Char) :
    Turns mode buffer fun l => l.afterOperator first next :=
  turns_orFinish (fun _ => ofSingle first) fun op => ⟨.last (.operator op) true, fun _ _ _ => rfl⟩

/-- **A step does not depend on the place.** -/
theorem exists_turn (h : mode ≠ .idle) (buffer : String) (next : Option Char) :
    ∃ t, ∀ l : Lexer, l.mode = mode → l.buffer = buffer → l.step next = l.turn t := by
  show Turns mode buffer fun l => l.step next
  cases mode with
  | idle => exact absurd rfl h
  | text => exact (turns_inText _ _ _ _).congr fun l hmode => by rw [step, hmode]
  | char => exact (turns_afterMark _ _ _ _ _).congr fun l hmode => by rw [step, hmode]
  | escape => exact (turns_afterMark _ _ _ _ _).congr fun l hmode => by rw [step, hmode]
  | sign => exact (turns_afterSign _ _ _ _).congr fun l hmode => by rw [step, hmode]
  | operator => exact (turns_afterOperator _ _ _ _).congr fun l hmode => by rw [step, hmode]
  | _ => exact (turns_collectWhile _ _ _ _ _).congr fun l hmode => by rw [step, hmode]

/-! ### Places -/

theorem here_begin (l : Lexer) (c : Char) : (l.begin c).here = l.here := by
  unfold begin
  repeat' split
  all_goals rfl

theorem here_step (l : Lexer) (next : Option Char) : (l.step next).1.here = l.here := by
  by_cases h : l.mode = .idle
  · rw [step, h]
    cases next with
    | none => rfl
    | some c => exact l.here_begin c
  · obtain ⟨t, ht⟩ := exists_turn h l.buffer next
    rw [ht l rfl rfl]
    cases t with
    | more => rfl
    | last => rfl

/-- The place changes between characters only. -/
theorem here_feed (l : Lexer) (next : Option Char) : (l.feed next).here = l.here := by
  fun_induction feed l next with
  | case1 l l' hstep => rw [← l.here_step next, hstep]
  | case2 l l' hstep ih => rw [ih, ← l.here_step next, hstep]

/-! ### The end of a line -/

theorem step_none (h : l.mode ≠ .idle) : ∃ token, l.step none = (l.finish token, false) := by
  unfold step
  split
  · contradiction
  all_goals exact ⟨_, rfl⟩

/-- **No token takes in the end of a line**: it does what the end of the text does. -/
theorem step_lineEnd (h : l.mode ≠ .idle) (hc : isLineEnd c = true) :
    l.step (some c) = l.step none := by
  cases hmode : l.mode with
  | idle => exact absurd hmode h
  | operator first =>
    have hdouble : (some c).bind (doubleOperator? first) = none := doubleOperator?_lineEnd first hc
    simp only [step, hmode, afterOperator, hdouble, Option.bind_none]
  | _ =>
    simp only [step, hmode]
    rcases isLineEnd_iff.mp hc with rfl | rfl
    · rfl
    · rfl

/-- Behind the end of a text nothing is being read. -/
theorem mode_feed_none (l : Lexer) : (l.feed none).mode = .idle := by
  by_cases h : l.mode = .idle
  · rw [feed_of_idle h]
    exact h
  · obtain ⟨token, htoken⟩ := step_none h
    rw [feed_of_refused htoken, feed_of_idle rfl]
    rfl

/-- **The end of a line ends the text before it**, whatever is being read there, and adds itself. -/
theorem feed_lineEnd (l : Lexer) (hc : isLineEnd c = true) :
    l.feed (some c) = (l.feed none).emit .lineEnd := by
  have hidle : ∀ m : Lexer, m.mode = .idle → m.feed (some c) = (m.feed none).emit .lineEnd := by
    intro m hm
    rw [feed_of_idle hm, feed_of_idle hm, Option.elim_some, Option.elim_none, begin, if_pos hc]
  by_cases h : l.mode = .idle
  · exact hidle l h
  · obtain ⟨token, htoken⟩ := step_none h
    rw [feed_of_refused htoken, feed_of_refused ((step_lineEnd h hc).trans htoken)]
    exact hidle _ rfl

/-! ### Reading a character -/

/-- The lexer behind a character, which is no line feed after a carriage return. -/
def after (l : Lexer) (c : Char) : Lexer := (l.feed (some c)).pass c

theorem read_eq {afterReturn : Bool} (h : afterReturn = true → c ≠ '\n') (l : Lexer) :
    read (l, afterReturn) c = (l.after c, c == '\r') := by
  refine if_neg ?_
  simpa using h

theorem file_after (l : Lexer) (c : Char) : (l.after c).file = l.file := by
  have hfile : (l.feed (some c)).file = l.file := congrArg (·.file) (l.here_feed (some c))
  rw [after, pass]
  split
  · exact hfile
  · exact hfile

theorem line_after (l : Lexer) (c : Char) :
    (l.after c).line = l.line + if isLineEnd c then 1 else 0 := by
  have hline : (l.feed (some c)).line = l.line := congrArg (·.line) (l.here_feed (some c))
  rw [after, pass]
  split
  · exact congrArg (· + 1) hline
  · exact hline

/-- **A carriage return does what a line feed does**, whatever is being read. -/
theorem after_return (l : Lexer) : l.after '\r' = l.after '\n' := by
  rw [after, after, l.feed_lineEnd (by decide), l.feed_lineEnd (by decide)]
  rfl

end Lexer

end StackAsm.Token
