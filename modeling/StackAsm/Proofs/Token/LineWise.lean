import StackAsm.Proofs.Token.LineEndings
import StackAsm.Proofs.Token.Lines

/-!
# The lexer line by line

The lexer gives the tokens of the lines of a text, read one by one. In a line, a token that is
opened takes in the characters that belong to it and refuses the next, or meets the end of the line;
either way the lexer goes on behind the token as if it had just come there (`Lexer.Completes`).
Between two lines the lexer is at the start of a line.
-/

namespace StackAsm.Token

namespace Lexer

variable {l t : Lexer} {c : Char} {rest : List Char} {token : Token}

/-! ### To the end of a line -/

/-- The lexer at the end of a line, after what is left of it. -/
def atEnd (l : Lexer) (rest : List Char) : Lexer := (rest.foldl after l).feed none

theorem atEnd_of_taken (h : l.step (some c) = (t, true)) (rest : List Char) :
    l.atEnd (c :: rest) = (t.pass c).atEnd rest := by
  rw [atEnd, List.foldl_cons, after, feed_of_taken h]
  rfl

/-- A character that is refused is looked at again, and so is the end of the line. -/
theorem atEnd_of_refused (h : l.step rest.head? = (t, false)) : l.atEnd rest = t.atEnd rest := by
  cases rest with
  | nil => exact feed_of_refused h
  | cons c rest =>
    have hfeed : l.feed (some c) = t.feed (some c) := feed_of_refused h
    rw [atEnd, atEnd, List.foldl_cons, List.foldl_cons, after, after, hfeed]

theorem pass_inLine (hc : isInLine c = true) (l : Lexer) :
    l.pass c = { l with column := l.column + 1 } := by
  have hend : isLineEnd c = false := by simpa [isInLine] using hc
  rw [pass, hend]
  rfl

/-- The token that is being read is complete after a number of further characters of the line, and
the lexer goes on behind them. -/
def Completes (l : Lexer) (rest : List Char) (read : Token × Nat) : Prop :=
  ∃ t : Lexer, t.mode = .idle ∧ t.here = { l.here with column := l.column + read.2 } ∧
    t.done = l.done.push (.here l.start read.1) ∧ l.atEnd rest = t.atEnd (rest.drop read.2)

theorem completes_of_refused (h : l.step rest.head? = (l.finish token, false)) :
    l.Completes rest (token, 0) :=
  ⟨l.finish token, rfl, rfl, rfl, atEnd_of_refused h⟩

theorem completes_of_last (hc : isInLine c = true) (h : l.step (some c) = (l.finish token, true))
    (rest : List Char) : l.Completes (c :: rest) (token, 1) := by
  refine ⟨(l.finish token).pass c, ?_⟩
  rw [atEnd_of_taken h, pass_inLine hc]
  exact ⟨rfl, rfl, rfl, rfl⟩

theorem completes_of_more {mode : Mode} {buffer : String} {n : Nat} (hc : isInLine c = true)
    (h : l.step (some c) = ({ l with mode, buffer }, true))
    (hrest : Completes { l with mode, buffer, column := l.column + 1 } rest (token, n)) :
    l.Completes (c :: rest) (token, n + 1) := by
  obtain ⟨t, hmode, hhere, hdone, hend⟩ := hrest
  refine ⟨t, hmode, ?_, hdone, ?_⟩
  · rw [hhere, here, here, Nat.add_assoc, Nat.add_comm 1]
  · rw [atEnd_of_taken h, pass_inLine hc, hend, List.drop_succ_cons]

/-! ### Tokens that collect characters of a kind -/

theorem push_append (buffer : String) (c : Char) (cs : List Char) :
    buffer.push c ++ String.ofList cs = buffer ++ String.ofList (c :: cs) := by
  apply String.toList_injective
  simp

/-- The lexer is in a mode that collects characters. -/
def Collects (mode : Mode) (belongs : Char → Bool) (make : String → Token) : Prop :=
  ∀ l : Lexer, l.mode = mode → ∀ next, l.step next = l.collectWhile belongs make next

theorem completes_collectWhile {belongs : Char → Bool} {make : String → Token}
    (hmode : Collects l.mode belongs make) (hrest : InLine rest) :
    l.Completes rest (taking belongs (fun s => make (l.buffer ++ s)) rest) := by
  induction rest generalizing l with
  | nil =>
    have hend : l.step none = (l.finish (make (l.buffer ++ "")), false) := by
      rw [hmode l rfl, String.append_empty]
      rfl
    exact completes_of_refused hend
  | cons c rest ih =>
    obtain ⟨hc, hrest⟩ := List.forall_mem_cons.mp hrest
    cases hbelongs : belongs c with
    | false =>
      have hrefused : l.step (some c) = (l.finish (make (l.buffer ++ "")), false) := by
        rw [hmode l rfl, String.append_empty]
        simp [collectWhile, Option.filter, hbelongs, orFinish]
      rw [taking, List.takeWhile_cons_of_neg (by simp [hbelongs])]
      exact completes_of_refused hrefused
    | true =>
      have htaken : l.step (some c) = ({ l with buffer := l.buffer.push c }, true) := by
        rw [hmode l rfl]
        simp [collectWhile, Option.filter, hbelongs, orFinish, collect]
      have hnext :=
        ih (l := { l with buffer := l.buffer.push c, column := l.column + 1 }) hmode hrest
      rw [taking, push_append] at hnext
      rw [taking, List.takeWhile_cons_of_pos hbelongs]
      exact completes_of_more hc htaken hnext

/-- Where nothing is collected yet. -/
theorem completes_taking {belongs : Char → Bool} {make : String → Token}
    (hmode : Collects l.mode belongs make) (hbuffer : l.buffer = "") (hrest : InLine rest) :
    l.Completes rest (taking belongs make rest) := by
  have h := completes_collectWhile hmode hrest
  rw [hbuffer] at h
  simpa only [taking, String.empty_append] using h

theorem collects_number : Collects .number Char.isDigit .number := fun l hmode next => by
  rw [step, hmode]

theorem collects_word : Collects .word isWordChar .word := fun l hmode next => by
  rw [step, hmode]

/-! ### Texts between quotes -/

theorem step_text {afterBackslash : Bool} (hmode : l.mode = .text afterBackslash)
    (hc : isInLine c = true) : l.step (some c) = (l.textChar afterBackslash c, true) := by
  rw [step, hmode]
  simp [inText, Option.filter, hc, orFinish]

/-- A character that does not close the text is collected. -/
theorem step_text_more {afterBackslash : Bool} (hmode : l.mode = .text afterBackslash)
    (hc : isInLine c = true) (hquote : ¬(c = '"' ∧ afterBackslash = false)) :
    l.step (some c) = ({ l with mode := .text (!afterBackslash && c == '\\'),
                                buffer := l.buffer.push c }, true) := by
  rw [step_text hmode hc, textChar, if_neg hquote]
  rfl

/-- A text is closed by the first quote that no backslash takes along. -/
theorem completes_closed {body : List Char} (hbody : QuotedBody body)
    (hmode : l.mode = .text false) (hrest : InLine (body ++ '"' :: rest)) :
    l.Completes (body ++ '"' :: rest)
      (.text (String.ofList (unescaped (l.buffer.toList ++ body))), body.length + 1) := by
  induction hbody generalizing l with
  | nil =>
    obtain ⟨hc, -⟩ := List.forall_mem_cons.mp hrest
    refine completes_of_last hc ?_ rest
    rw [step_text hmode hc, textChar, if_pos ⟨rfl, rfl⟩, List.append_nil]
  | @plain c body hquote hslash _ ih =>
    obtain ⟨hc, hrest⟩ := List.forall_mem_cons.mp hrest
    refine completes_of_more hc (step_text_more hmode hc (by simp [hquote])) ?_
    rw [List.append_cons, ← String.toList_push]
    exact ih (by simp [hslash]) hrest
  | @escape c body _ ih =>
    obtain ⟨hslash, hc, hrest⟩ := List.forall_mem_cons.mp hrest |>.imp_right List.forall_mem_cons.mp
    refine completes_of_more hslash (step_text_more hmode hslash (by simp)) ?_
    refine completes_of_more hc (step_text_more rfl hc (by simp)) ?_
    rw [List.append_cons, List.append_cons, ← String.toList_push, ← String.toList_push]
    exact ih (by simp) hrest

/-- A text that is not closed takes the rest of the line. -/
theorem completes_unclosed {afterBackslash : Bool} {n : Nat} (hmode : l.mode = .text afterBackslash)
    (hrest : InLine rest) (hnone : closingQuote? afterBackslash n rest = none) :
    l.Completes rest (.malformed ("\"" ++ (l.buffer ++ String.ofList rest)), rest.length) := by
  induction rest generalizing l afterBackslash n with
  | nil =>
    have hend : l.step none = (l.finish (.malformed ("\"" ++ (l.buffer ++ ""))), false) := by
      rw [step, hmode, String.append_empty]
      rfl
    exact completes_of_refused hend
  | cons c rest ih =>
    obtain ⟨hc, hrest⟩ := List.forall_mem_cons.mp hrest
    have hquote : ¬(c = '"' ∧ afterBackslash = false) := by
      intro hquote
      rw [closingQuote?, if_pos hquote] at hnone
      cases hnone
    rw [closingQuote?, if_neg hquote] at hnone
    refine completes_of_more hc (step_text_more hmode hc hquote) ?_
    rw [← push_append]
    exact ih rfl hrest hnone

theorem completes_quotedText (hmode : l.mode = .text false) (hbuffer : l.buffer = "")
    (hrest : InLine rest) : l.Completes rest (quotedText rest) := by
  unfold quotedText
  split
  · next n hclose =>
    obtain ⟨body, after, rfl, hbody, rfl⟩ := quotedBody_of_closingQuote? hclose
    have h := completes_closed hbody hmode hrest
    rw [hbuffer] at h
    simpa using h
  · next hnone =>
    have h := completes_unclosed hmode hrest hnone
    rw [hbuffer] at h
    simpa [String.ofList_cons] using h

/-! ### Other tokens -/

theorem completes_markedChar {mark : String} {make : Char → Token}
    (hstep : ∀ next, l.step next = l.afterMark mark make next) (hrest : InLine rest) :
    l.Completes rest (markedChar mark make rest) := by
  cases rest with
  | nil => exact completes_of_refused (hstep none)
  | cons c rest =>
    obtain ⟨hc, -⟩ := List.forall_mem_cons.mp hrest
    refine completes_of_last hc ?_ rest
    rw [hstep]
    simp [afterMark, Option.filter, hc, orFinish]

theorem completes_operatorFrom {first : Char} (hmode : l.mode = .operator first)
    (hrest : InLine rest) : l.Completes rest (operatorFrom first rest) := by
  unfold operatorFrom
  split
  · next op hop =>
    cases rest with
    | nil => cases hop
    | cons c rest =>
      obtain ⟨hc, -⟩ := List.forall_mem_cons.mp hrest
      refine completes_of_last hc ?_ rest
      have hdouble : (some c).bind (doubleOperator? first) = some op := hop
      simp only [step, hmode, afterOperator, hdouble]
      rfl
  · next hnone =>
    refine completes_of_refused ?_
    simp only [step, hmode, afterOperator, hnone]
    rfl

theorem completes_signed {sign : Char} (hmode : l.mode = .sign sign) (hbuffer : l.buffer = "")
    (hrest : InLine rest) : l.Completes rest (signed sign rest) := by
  cases rest with
  | nil =>
    refine completes_of_refused ?_
    simp only [step, hmode]
    rfl
  | cons c rest =>
    obtain ⟨hc, hrest⟩ := List.forall_mem_cons.mp hrest
    cases hdigit : c.isDigit with
    | false =>
      have hnone : (c :: rest).takeWhile Char.isDigit = [] :=
        List.takeWhile_cons_of_neg (by simp [hdigit])
      rw [signed, hnone]
      refine completes_of_refused ?_
      simp [step, hmode, afterSign, Option.filter, hdigit, orFinish]
    | true =>
      have htaken : l.step (some c) =
          ({ l with mode := .number, buffer := (l.buffer.push sign).push c }, true) := by
        simp [step, hmode, afterSign, Option.filter, hdigit, orFinish, collect]
      have hform : signed sign (c :: rest) =
          (.number ((l.buffer.push sign).push c ++ String.ofList (rest.takeWhile Char.isDigit)),
            (rest.takeWhile Char.isDigit).length + 1) := by
        rw [push_append, push_append, hbuffer, String.empty_append]
        simp [signed, hdigit]
      rw [hform]
      exact completes_of_more hc htaken (completes_collectWhile collects_number hrest)

/-! ### From one token to the next -/

theorem completes_opened {mode : Mode} (hopen : openers.lookup c = some mode)
    (hmode : l.mode = mode) (hbuffer : l.buffer = "") (hrest : InLine rest) :
    l.Completes rest (mode.lexeme rest) := by
  have hmem := mem_of_lookup hopen
  cases mode with
  | comment =>
    have hcollects : Collects l.mode isInLine .comment := fun m hm next => by rw [step, hm, hmode]
    have h := completes_taking hcollects hbuffer hrest
    rwa [taking, List.takeWhile_eq_self_iff.mpr hrest] at h
  | text afterBackslash =>
    obtain ⟨-, rfl⟩ : c = '"' ∧ afterBackslash = false := by simpa [openers] using hmem
    exact completes_quotedText hmode hbuffer hrest
  | char => exact completes_markedChar (fun next => by rw [step, hmode]) hrest
  | escape => exact completes_markedChar (fun next => by rw [step, hmode]) hrest
  | hex => exact completes_taking (fun m hm next => by rw [step, hm, hmode]) hbuffer hrest
  | directive => exact completes_taking (fun m hm next => by rw [step, hm, hmode]) hbuffer hrest
  | preDirective => exact completes_taking (fun m hm next => by rw [step, hm, hmode]) hbuffer hrest
  | sign sign => exact completes_signed hmode hbuffer hrest
  | operator first => exact completes_operatorFrom hmode hrest
  | idle => simp [openers] at hmem
  | word => simp [openers] at hmem
  | number => simp [openers] at hmem

/-- The three ways in which a character starts a token: it opens one, it is one, or it is the first
of the characters that the token collects. -/
theorem begin_cases (hblank : Text.isBlank c = false) (hc : isInLine c = true) (l : Lexer) :
    (∃ mode, openers.lookup c = some mode ∧ l.begin c = l.enter mode ∧ lexeme c = mode.lexeme) ∨
    (∃ token, l.begin c = l.emit token ∧ lexeme c = fun _ => (token, 0)) ∨
    ∃ mode belongs make, Collects mode belongs make ∧ l.begin c = (l.enter mode).collect c ∧
      lexeme c = taking belongs fun s => make ("".push c ++ s) := by
  have hend : isLineEnd c = false := by simpa [isInLine] using hc
  have hbegin : l.begin c = _ := (if_neg (by simp [hend])).trans (if_neg (by simp [hblank]))
  rw [hbegin]
  show _ ∨ (∃ token, _ ∧ (fun rest => lexeme c rest) = _) ∨ _
  unfold lexeme
  cases hopen : openers.lookup c with
  | some mode => exact .inl ⟨mode, rfl, rfl, rfl⟩
  | none =>
    refine .inr ?_
    cases hsingle : singles.lookup c with
    | some token => exact .inl ⟨token, rfl, rfl⟩
    | none =>
      by_cases hdigit : c.isDigit
      · simp only [hdigit, if_true]
        exact .inr ⟨_, _, _, collects_number, rfl, rfl⟩
      · by_cases hword : isWordStart c
        · simp only [hdigit, Bool.false_eq_true, if_false, hword, if_true]
          exact .inr ⟨_, _, _, collects_word, rfl, rfl⟩
        · simp only [hdigit, hword, Bool.false_eq_true, if_false]
          exact .inl ⟨_, rfl, rfl⟩

/-- **A character starts the token that it starts on its line**, and the lexer goes on behind it. -/
theorem exists_atEnd_token (hidle : l.mode = .idle) (hblank : Text.isBlank c = false)
    (hc : isInLine c = true) (hrest : InLine rest) :
    ∃ t : Lexer, t.mode = .idle ∧
      t.here = { l.here with column := l.column + 1 + (lexeme c rest).2 } ∧
      t.done = l.done.push (.here l.here (lexeme c rest).1) ∧
      l.atEnd (c :: rest) = t.atEnd (rest.drop (lexeme c rest).2) := by
  have hstep : l.step (some c) = (l.begin c, true) := by rw [step, hidle]; rfl
  rw [atEnd_of_taken hstep, pass_inLine hc]
  obtain ⟨mode, hopen, hbegin, hlexeme⟩ | ⟨token, hbegin, hlexeme⟩ |
    ⟨mode, belongs, make, hcollects, hbegin, hlexeme⟩ := begin_cases hblank hc l
  · rw [hbegin, hlexeme]
    exact completes_opened (l := { l.enter mode with column := l.column + 1 }) hopen rfl rfl hrest
  · rw [hbegin, hlexeme]
    exact ⟨{ l.emit token with column := l.column + 1 }, hidle, rfl, rfl, rfl⟩
  · rw [hbegin, hlexeme]
    exact completes_collectWhile (l := { (l.enter mode).collect c with column := l.column + 1 })
      hcollects hrest

theorem atEnd_blank (hidle : l.mode = .idle) (hblank : Text.isBlank c = true)
    (hc : isInLine c = true) (rest : List Char) :
    l.atEnd (c :: rest) = atEnd { l with column := l.column + 1 } rest := by
  have hend : isLineEnd c = false := by simpa [isInLine] using hc
  have hstep : l.step (some c) = (l, true) := by
    simp [step, hidle, begin, hend, hblank]
  rw [atEnd_of_taken hstep, pass_inLine hc]

/-- **The tokens of a line** are those that its characters start one after the other. -/
theorem emit_atEnd {cs : List Char} (hidle : l.mode = .idle) (hcs : InLine cs) :
    ((l.atEnd cs).emit .lineEnd).done.toList = l.done.toList ++ scan l.here cs := by
  induction cs using lineInduction generalizing l with
  | nil =>
    have hend : l.atEnd [] = l := feed_of_idle hidle none
    rw [hend, scan_nil]
    simp [emit]
  | blank c rest hblank ih =>
    obtain ⟨hc, hrest⟩ := List.forall_mem_cons.mp hcs
    rw [atEnd_blank hidle hblank hc, scan_blank _ hblank]
    exact ih hidle hrest
  | token c rest hblank ih =>
    obtain ⟨hc, hrest⟩ := List.forall_mem_cons.mp hcs
    obtain ⟨t, hmode, hhere, hdone, hend⟩ := exists_atEnd_token hidle hblank hc hrest
    rw [hend, ih hmode fun d hd => hrest d (List.mem_of_mem_drop hd), hhere, hdone,
      scan_token _ hblank, Array.toList_push, List.append_assoc]
    rfl

/-! ### From one line to the next -/

theorem foldl_after_inLine {line : List Char} (h : InLine line) (l : Lexer) :
    (line.foldl after l).file = l.file ∧ (line.foldl after l).line = l.line := by
  induction line generalizing l with
  | nil => exact ⟨rfl, rfl⟩
  | cons c line ih =>
    obtain ⟨hc, hline⟩ := List.forall_mem_cons.mp h
    have hend : isLineEnd c = false := by simpa [isInLine] using hc
    obtain ⟨hfile, hnumber⟩ := ih hline (l.after c)
    rw [List.foldl_cons, hfile, hnumber, file_after, line_after, hend]
    exact ⟨rfl, rfl⟩

/-- The lexer is at the start of a line, with `done` before. -/
structure AtStart (l : Lexer) (file line : Nat) (done : List (Located Token)) : Prop where
  mode : l.mode = .idle
  here : l.here = ⟨file, line, 1⟩
  done : l.done.toList = done

namespace AtStart

variable {file number : Nat} {done : List (Located Token)} {line : List Char}

/-- If the line is the last, its tokens are. -/
theorem tokens (h : AtStart l file number done) (hline : InLine line) :
    (line.foldl after l).tokens = done ++ lineTokens file number line := by
  have hend : ((l.atEnd line).emit .lineEnd).done.toList = _ := emit_atEnd h.mode hline
  rwa [h.done, h.here] at hend

/-- A line feed takes the lexer to the start of the next line. -/
theorem next (h : AtStart l file number done) (hline : InLine line) :
    AtStart ((line.foldl after l).after '\n') file (number + 1)
      (done ++ lineTokens file number line) := by
  obtain ⟨hfile, hnumber⟩ := foldl_after_inLine hline l
  obtain ⟨hfile', hnumber', -⟩ := Location.mk.inj h.here
  have hlast : (line.foldl after l).after '\n' = ((l.atEnd line).emit .lineEnd).pass '\n' := by
    rw [after, feed_lineEnd _ (by decide)]
    rfl
  refine ⟨?_, ?_, ?_⟩
  · rw [hlast]
    exact mode_feed_none _
  · have hcolumn : ((line.foldl after l).after '\n').column = 1 := by
      rw [hlast]
      rfl
    rw [Lexer.here, hcolumn, file_after, line_after, hfile, hnumber, hfile', hnumber']
    rfl
  · rw [hlast]
    exact h.tokens hline

/-- **Lines with a line feed between them are read one after the other.** -/
theorem tokens_intercalate {k : Nat} {ls : List (List Char)} (h : AtStart l file (k + 1) done)
    (hne : ls ≠ []) (hls : ∀ line ∈ ls, InLine line) :
    ((List.intercalate ['\n'] ls).foldl after l).tokens =
      done ++ (ls.zipIdx k).flatMap fun p => lineTokens file (p.2 + 1) p.1 := by
  induction ls generalizing l done k with
  | nil => exact absurd rfl hne
  | cons line ls ih =>
    obtain ⟨hline, hls⟩ := List.forall_mem_cons.mp hls
    cases ls with
    | nil =>
      rw [List.intercalate_singleton, h.tokens hline]
      simp
    | cons line' ls =>
      rw [List.intercalate_cons_cons, List.foldl_append, List.foldl_append, List.foldl_cons,
        List.foldl_nil, ih (h.next hline) (by simp) hls, List.append_assoc]
      rfl

end AtStart

end Lexer

/-! ### The lines of a text -/

theorem unified_append {line : List Char} (h : InLine line) (rest : List Char) :
    unified (line ++ rest) = line ++ unified rest := by
  induction line with
  | nil => rfl
  | cons c line ih =>
    obtain ⟨hc, hline⟩ := List.forall_mem_cons.mp h
    have hne : c ≠ '\r' := by
      rintro rfl
      exact absurd hc (by decide)
    rw [List.cons_append, unified_cons fun _ hreturn => absurd hreturn hne, if_neg hne, ih hline]
    rfl

/-- Of a line end in any form a line feed is left. -/
theorem LineEnding.unified {ending rest : List Char} (h : LineEnding ending rest) :
    unified (ending ++ rest) = '\n' :: unified rest := by
  cases h with
  | feed => exact unified_cons fun _ hreturn => absurd hreturn (by decide)
  | both => rfl
  | carriage hrest =>
    refine unified_cons ?_
    rintro after - rfl
    exact hrest rfl

/-- Unified, a text is its lines with a line feed between each two. -/
theorem unified_eq_intercalate (cs : List Char) :
    unified cs = List.intercalate ['\n'] (lines cs) := by
  have hlines := linesOf_lines cs
  generalize lines cs = ls at hlines
  induction hlines with
  | last hline =>
    have hself := unified_append hline []
    rw [List.append_nil] at hself
    rw [hself, List.intercalate_singleton]
    exact List.append_nil _
  | @cons line ending rest ls hline hending hrest ih =>
    rw [unified_append hline, hending.unified, ih]
    cases hrest with
    | last => rfl
    | cons => rfl

/-- **The lexer gives the tokens of the lines of a text**, one line after the other. -/
theorem tokenize_eq (file : Nat) (source : String) :
    tokenize file source =
      (lines source.toList).zipIdx.flatMap fun p => lineTokens file (p.2 + 1) p.1 := by
  have hstart : Lexer.AtStart (.ofFile file) file (0 + 1) [] := ⟨rfl, rfl, rfl⟩
  rw [tokenize, Lexer.foldl_read_eq_unified, unified_eq_intercalate,
    hstart.tokens_intercalate (lines_ne_nil _) fun _ => inLine_of_mem_lines]
  rfl

/-- What a text is read as: line after line, the tokens of the line and its end. -/
theorem map_value_tokenize (file : Nat) (source : String) :
    (tokenize file source).map (·.value) =
      (lines source.toList).flatMap fun line => lexemes line ++ [.lineEnd] := by
  have hline (p : List Char × Nat) : (lineTokens file (p.2 + 1) p.1).map (·.value) =
      lexemes p.1 ++ [.lineEnd] := map_value_scan _ _
  rw [tokenize_eq, List.map_flatMap]
  simp only [hline]
  have hfst := List.flatMap_map Prod.fst (fun line => lexemes line ++ [Token.lineEnd])
    (lines source.toList).zipIdx
  rw [← hfst, List.zipIdx_map_fst]


end StackAsm.Token
