import StackAsm.Proofs.Token.LineEndings

/-!
# Line by line

Whatever is open at the end of a line ends there, and the lexer reads on as at the start of a text:
only its place is further down, and there are tokens before. From then on it follows the lexer of
the second text step by step (`Lexer.Follows`). So a text can be split at any of its line feeds, and
the tokens of the two parts are the tokens of the text, the second part being counted from the line
where the first ends.

One carriage return needs care. At the end of the first part it is a line end by itself, and
together with the line feed behind it, it is one line end and not two.
-/

namespace StackAsm

/-- The place `count` lines further down. -/
def Location.below (loc : Location) (count : Nat) : Location :=
  { loc with line := loc.line + count }

/-- The value at a place `count` lines further down. -/
def Located.below {α : Type} (x : Located α) (count : Nat) : Located α :=
  ⟨x.loc.map (·.below count), x.value⟩

namespace Token

namespace Lexer

/-! ### Where reading ends -/

theorem file_foldl_read (cs : List Char) (p : Lexer × Bool) :
    (cs.foldl read p).1.file = p.1.file := by
  induction cs generalizing p with
  | nil => rfl
  | cons c cs ih =>
    rw [List.foldl_cons, ih]
    obtain ⟨l, afterReturn⟩ := p
    rw [read]
    split
    · rfl
    · exact l.file_after c

/-- Where line feeds alone end lines, they are counted. -/
theorem line_foldl_after {cs : List Char} (h : '\r' ∉ cs) (l : Lexer) :
    (cs.foldl after l).line = l.line + cs.count '\n' := by
  induction cs generalizing l with
  | nil => rfl
  | cons c cs ih =>
    obtain ⟨hc, hcs⟩ := not_or.mp (mt List.mem_cons.mpr h)
    have hend : isLineEnd c = (c == '\n') := by simp [isLineEnd, Ne.symm hc]
    rw [List.foldl_cons, ih hcs, line_after, hend, List.count_cons]
    omega

/-- A carriage return is remembered only just behind it. -/
theorem getLast?_of_afterReturn {cs : List Char} {l : Lexer}
    (h : (cs.foldl read (l, false)).2 = true) : cs.getLast? = some '\r' := by
  obtain rfl | ⟨cs, c, rfl⟩ := cs.eq_nil_or_concat
  · cases h
  · rw [List.concat_eq_append] at h ⊢
    rw [List.foldl_append, List.foldl_cons, List.foldl_nil] at h
    rw [List.getLast?_concat]
    obtain ⟨m, afterReturn⟩ := cs.foldl read (l, false)
    rw [read] at h
    split at h
    · cases h
    · exact congrArg some (beq_iff_eq.mp h)

/-! ### A lexer further down -/

/-- The lexer `m` reads what `l` reads, `count` lines further down and with `before` done. What was
read before does not matter while nothing is being read. -/
structure Follows (before : List (Located Token)) (count : Nat) (l m : Lexer) : Prop where
  here : m.here = l.here.below count
  mode : m.mode = l.mode
  busy : l.mode ≠ .idle → m.buffer = l.buffer ∧ m.start = l.start.below count
  done : m.done.toList = before ++ l.done.toList.map (·.below count)

namespace Follows

variable {before : List (Located Token)} {count : Nat} {l m : Lexer}

theorem emit (h : Follows before count l m) (token : Token) :
    Follows before count (l.emit token) (m.emit token) where
  here := h.here
  mode := h.mode
  busy := h.busy
  done := by simp [Lexer.emit, h.done, h.here, Located.below, Located.here]

theorem enter (h : Follows before count l m) (mode : Mode) :
    Follows before count (l.enter mode) (m.enter mode) where
  here := h.here
  mode := rfl
  busy _ := ⟨rfl, h.here⟩
  done := h.done

theorem collect (h : Follows before count l m) (hbusy : l.mode ≠ .idle) (c : Char) :
    Follows before count (l.collect c) (m.collect c) where
  here := h.here
  mode := h.mode
  busy _ := ⟨congrArg (·.push c) (h.busy hbusy).1, (h.busy hbusy).2⟩
  done := h.done

theorem finish (h : Follows before count l m) (hbusy : l.mode ≠ .idle) (token : Token) :
    Follows before count (l.finish token) (m.finish token) where
  here := h.here
  mode := rfl
  busy hne := absurd rfl hne
  done := by simp [Lexer.finish, h.done, (h.busy hbusy).2, Located.below, Located.here]

theorem pass (h : Follows before count l m) (c : Char) :
    Follows before count (l.pass c) (m.pass c) := by
  obtain ⟨hfile, hline, hcolumn⟩ :
      m.file = l.file ∧ m.line = l.line + count ∧ m.column = l.column := Location.mk.inj h.here
  unfold Lexer.pass
  split
  · refine ⟨?_, h.mode, h.busy, h.done⟩
    simp only [Lexer.here, Location.below, Location.mk.injEq]
    exact ⟨hfile, by omega, trivial⟩
  · refine ⟨?_, h.mode, h.busy, h.done⟩
    simp only [Lexer.here, Location.below, Location.mk.injEq]
    exact ⟨hfile, hline, by omega⟩

theorem begin (h : Follows before count l m) (c : Char) :
    Follows before count (l.begin c) (m.begin c) := by
  unfold Lexer.begin
  split
  · exact h.emit _
  · split
    · exact h
    · split
      · exact h.enter _
      · split
        · exact h.emit _
        · split
          · exact (h.enter _).collect (by simp [Lexer.enter]) c
          · split
            · exact (h.enter _).collect (by simp [Lexer.enter]) c
            · exact h.emit _

/-- Both take the next character in, or none of them. -/
theorem step (h : Follows before count l m) (next : Option Char) :
    Follows before count (l.step next).1 (m.step next).1 ∧
      (m.step next).2 = (l.step next).2 := by
  by_cases hmode : l.mode = .idle
  · have hmode' : m.mode = .idle := h.mode.trans hmode
    rw [Lexer.step, Lexer.step, hmode, hmode']
    cases next with
    | none => exact ⟨h, rfl⟩
    | some c => exact ⟨h.begin c, rfl⟩
  · obtain ⟨t, ht⟩ := exists_turn hmode l.buffer next
    obtain ⟨hbuffer, hstart⟩ := h.busy hmode
    rw [ht l rfl rfl, ht m h.mode hbuffer]
    cases t with
    | more mode buffer => exact ⟨⟨h.here, rfl, fun _ => ⟨rfl, hstart⟩, h.done⟩, rfl⟩
    | last token taken => exact ⟨h.finish hmode token, rfl⟩

theorem feed (h : Follows before count l m) (next : Option Char) :
    Follows before count (l.feed next) (m.feed next) := by
  fun_induction Lexer.feed l next generalizing m with
  | case1 l l' hstep =>
    obtain ⟨hnext, htaken⟩ := h.step next
    rw [hstep] at hnext htaken
    rw [feed_of_taken (Prod.ext rfl htaken)]
    exact hnext
  | case2 l l' hstep ih =>
    obtain ⟨hnext, htaken⟩ := h.step next
    rw [hstep] at hnext htaken
    rw [feed_of_refused (Prod.ext rfl htaken)]
    exact ih hnext

theorem foldl_read (h : Follows before count l m) (cs : List Char) (afterReturn : Bool) :
    Follows before count (cs.foldl read (l, afterReturn)).1 (cs.foldl read (m, afterReturn)).1 := by
  induction cs generalizing l m afterReturn with
  | nil => exact h
  | cons c cs ih =>
    rw [List.foldl_cons, List.foldl_cons, read, read]
    split
    · exact ih h false
    · exact ih ((h.feed (some c)).pass c) (c == '\r')

/-- So its tokens are those before and the same ones, further down. -/
theorem tokens (h : Follows before count l m) :
    m.tokens = before ++ l.tokens.map (·.below count) :=
  ((h.feed none).emit .lineEnd).done

end Follows

/-! ### The start of a line -/

/-- **At the start of a line the lexer is as at the start of a text**, whatever it was reading at
the end of the line before. -/
theorem follows_after_feed (l : Lexer) :
    Follows l.tokens l.line (.ofFile l.file) (l.after '\n') := by
  obtain ⟨hfile, hline, -⟩ : (l.feed none).file = l.file ∧ (l.feed none).line = l.line ∧ _ :=
    Location.mk.inj (l.here_feed none)
  have hafter : l.after '\n' = ((l.feed none).emit .lineEnd).pass '\n' := by
    rw [after, l.feed_lineEnd (by decide)]
  rw [hafter]
  refine ⟨?_, ?_, ?_, ?_⟩
  · show Location.mk (l.feed none).file ((l.feed none).line + 1) 1 = ⟨l.file, 1 + l.line, 1⟩
    rw [hfile, hline, Nat.add_comm]
  · exact l.mode_feed_none
  · exact fun hne => absurd rfl hne
  · exact (List.append_nil _).symm

end Lexer

/-! ### Splitting a text -/

/-- The number of lines of a text, one more than the number of line ends. -/
def lineCount (source : String) : Nat := (unifyLineEnds source).toList.count '\n' + 1

/-- It is the line where the text ends. -/
theorem line_eq_lineCount (file : Nat) (source : String) :
    (source.toList.foldl Lexer.read (.ofFile file, false)).1.line = lineCount source := by
  rw [Lexer.foldl_read_eq_unified, Lexer.line_foldl_after (not_mem_unified _), lineCount,
    unifyLineEnds, String.toList_ofList]
  exact Nat.add_comm 1 _

/-- **Lexing goes line by line**: the tokens of two texts with a line feed between them are those of
the first and, as many lines further down as the first has, those of the second. -/
theorem tokenize_append_feed (file : Nat) (a b : String) (h : a.toList.getLast? ≠ some '\r') :
    tokenize file (a ++ "\n" ++ b) =
      tokenize file a ++ (tokenize file b).map (·.below (lineCount a)) := by
  have hchars : (a ++ "\n" ++ b).toList = a.toList ++ '\n' :: b.toList := by simp
  have hline := line_eq_lineCount file a
  have hfile := Lexer.file_foldl_read a.toList (.ofFile file, false)
  have hreturn := fun hafter => h (Lexer.getLast?_of_afterReturn (l := .ofFile file) hafter)
  rw [tokenize, tokenize, hchars, List.foldl_append, List.foldl_cons]
  generalize a.toList.foldl Lexer.read (.ofFile file, false) = p at hline hfile hreturn ⊢
  obtain ⟨l, afterReturn⟩ := p
  obtain rfl : afterReturn = false := Bool.eq_false_iff.mpr hreturn
  have hstart := l.follows_after_feed
  rw [hfile, hline] at hstart
  rw [Lexer.read_eq (by simp) l]
  exact (hstart.foldl_read b.toList false).tokens

/-- A quote that is never closed, after a line with a line end of two characters: what was read of
the text is not carried over to the next line, and the quote there opens another. -/
theorem tokenize_append_feed_quote :
    "nop\r\n\"a ".toList.getLast? ≠ some '\r' ∧ lineCount "nop\r\n\"a " = 2 ∧
    tokenize 0 ("nop\r\n\"a " ++ "\n" ++ "b\"") =
      tokenize 0 "nop\r\n\"a " ++ (tokenize 0 "b\"").map (·.below 2) ∧
    tokenize 0 "nop\r\n\"a " =
      [.here ⟨0, 1, 1⟩ (.word "nop"), .here ⟨0, 1, 4⟩ .lineEnd,
        .here ⟨0, 2, 1⟩ (.malformed "\"a "), .here ⟨0, 2, 4⟩ .lineEnd] ∧
    (tokenize 0 "b\"").map (·.below 2) =
      [.here ⟨0, 3, 1⟩ (.word "b"), .here ⟨0, 3, 2⟩ (.malformed "\""),
        .here ⟨0, 3, 3⟩ .lineEnd] := by
  have hlast : "nop\r\n\"a ".toList.getLast? ≠ some '\r' := by decide
  have hcount : lineCount "nop\r\n\"a " = 2 := by decide
  have h := tokenize_append_feed 0 "nop\r\n\"a " "b\"" hlast
  rw [hcount] at h
  exact ⟨hlast, hcount, h, by decide +kernel, by decide +kernel⟩

end Token

end StackAsm
