import StackAsm.Proofs.Token.Spelling
import Mathlib.Data.List.Basic

/-!
# Lines of a text and their tokens

The lines of a text are the pieces between its line ends, of which there are three forms. There is
one way only to cut a text like that (`LinesOf`). A line is gone through from left to right: a blank
is passed over, and anything else starts a token, behind which the line goes on.
-/

namespace StackAsm.Token

/-! ### Cutting a text into lines -/

/-- No character ends a line. -/
def InLine (cs : List Char) : Prop := ∀ c ∈ cs, isInLine c

instance (cs : List Char) : Decidable (InLine cs) :=
  List.decidableBAll (fun c => isInLine c = true) cs

/-- The characters are one line end in front of `rest`. A carriage return is none by itself where a
line feed follows. -/
inductive LineEnding : List Char → List Char → Prop where
  | feed (rest : List Char) : LineEnding ['\n'] rest
  | both (rest : List Char) : LineEnding ['\r', '\n'] rest
  | carriage {rest : List Char} : rest.head? ≠ some '\n' → LineEnding ['\r'] rest

/-- The pieces of a text between its line ends. -/
inductive LinesOf : List Char → List (List Char) → Prop where
  | last {line : List Char} : InLine line → LinesOf line [line]
  | cons {line ending rest : List Char} {ls : List (List Char)} : InLine line →
      LineEnding ending rest → LinesOf rest ls → LinesOf (line ++ (ending ++ rest)) (line :: ls)

theorem LineEnding.afterLineEnd {ending rest : List Char} (h : LineEnding ending rest) :
    afterLineEnd (ending ++ rest) = rest := by
  cases h with
  | feed => rfl
  | both => rfl
  | carriage hrest =>
    cases rest with
    | nil => rfl
    | cons c rest =>
      have hc : c ≠ '\n' := fun hc => hrest (by rw [hc]; rfl)
      simp [Token.afterLineEnd, hc]

/-- A line end starts with a character that does not stand in lines. -/
theorem LineEnding.exists_cons {ending rest : List Char} (h : LineEnding ending rest) :
    ∃ c more, ending = c :: more ∧ isInLine c = false := by
  cases h with
  | feed => exact ⟨_, _, rfl, by decide⟩
  | both => exact ⟨_, _, rfl, by decide⟩
  | carriage => exact ⟨_, _, rfl, by decide⟩

/-- One or more line ends. -/
structure LineEnds (cs : List Char) : Prop where
  ne_nil : cs ≠ []
  not_inLine : ∀ c ∈ cs, isInLine c = false

theorem LineEnding.lineEnds {ending rest : List Char} (h : LineEnding ending rest) :
    LineEnds ending := by
  cases h with
  | feed => exact ⟨by simp, by simp [isInLine, isLineEnd]⟩
  | both => exact ⟨by simp, by simp [isInLine, isLineEnd]⟩
  | carriage => exact ⟨by simp, by simp [isInLine, isLineEnd]⟩

/-- Where a line stops, a line end stands. -/
theorem exists_lineEnding {c : Char} (hc : isInLine c = false) (cs : List Char) :
    ∃ ending, c :: cs = ending ++ afterLineEnd (c :: cs) ∧
      LineEnding ending (afterLineEnd (c :: cs)) := by
  have hcases : c = '\n' ∨ c = '\r' := by
    simp only [isInLine, isLineEnd, Bool.not_eq_false', Bool.or_eq_true, beq_iff_eq] at hc
    exact hc
  rcases hcases with rfl | rfl
  · exact ⟨['\n'], rfl, .feed _⟩
  · cases cs with
    | nil => exact ⟨['\r'], rfl, .carriage (by simp [afterLineEnd])⟩
    | cons d cs =>
      by_cases hd : d = '\n'
      · subst hd
        exact ⟨['\r', '\n'], rfl, .both _⟩
      · have hafter : afterLineEnd ('\r' :: d :: cs) = d :: cs := by simp [afterLineEnd, hd]
        rw [hafter]
        exact ⟨['\r'], rfl, .carriage (by simpa using hd)⟩

theorem lines_of_inLine {line : List Char} (h : InLine line) : lines line = [line] := by
  rw [lines]
  have hdrop : line.dropWhile isInLine = [] := List.dropWhile_eq_nil_iff.mpr h
  have htake : line.takeWhile isInLine = line := List.takeWhile_eq_self_iff.mpr h
  simp [hdrop, htake]

theorem lines_append_ending {line ending rest : List Char} (h : InLine line)
    (hending : LineEnding ending rest) : lines (line ++ (ending ++ rest)) = line :: lines rest := by
  obtain ⟨c, more, rfl, hc⟩ := hending.exists_cons
  have hdrop : (line ++ (c :: more ++ rest)).dropWhile isInLine = c :: more ++ rest := by
    rw [List.dropWhile_append_of_pos h]
    simp [hc]
  have htake : (line ++ (c :: more ++ rest)).takeWhile isInLine = line := by
    rw [List.takeWhile_append_of_pos h]
    simp [hc]
  rw [lines]
  simp only [hdrop, htake]
  rw [dif_neg (by simp), hending.afterLineEnd]

/-- There is one way only to cut a text into lines. -/
theorem LinesOf.eq_lines {cs : List Char} {ls : List (List Char)} (h : LinesOf cs ls) :
    ls = lines cs := by
  induction h with
  | last hline => exact (lines_of_inLine hline).symm
  | cons hline hending _ ih => rw [lines_append_ending hline hending, ih]

/-- The lines of a text are the pieces between its line ends. -/
theorem linesOf_lines (cs : List Char) : LinesOf cs (lines cs) := by
  induction cs using lines.induct with
  | case1 cs rest hrest =>
    have hline : InLine cs := List.dropWhile_eq_nil_iff.mp hrest
    rw [lines_of_inLine hline]
    exact .last hline
  | case2 cs rest hrest _ ih =>
    obtain ⟨c, more, hmore⟩ := List.exists_cons_of_ne_nil hrest
    have hc : isInLine c = false := by
      have hhead := List.head?_dropWhile_not isInLine cs
      rw [show cs.dropWhile isInLine = c :: more from hmore] at hhead
      exact hhead
    obtain ⟨ending, heq, hending⟩ := exists_lineEnding hc more
    have hsplit : cs = cs.takeWhile isInLine ++ (ending ++ afterLineEnd rest) := by
      rw [hmore, ← heq, ← hmore]
      exact List.takeWhile_append_dropWhile.symm
    have hline : InLine (cs.takeWhile isInLine) := fun d hd => List.mem_takeWhile_imp hd
    rw [← hmore] at hending
    have hlines := lines_append_ending hline hending
    rw [← hsplit] at hlines
    rw [hlines]
    nth_rewrite 1 [hsplit]
    exact .cons hline hending ih

theorem inLine_of_mem_lines {cs line : List Char} (h : line ∈ lines cs) : InLine line := by
  have hlines := linesOf_lines cs
  generalize lines cs = ls at h hlines
  induction hlines with
  | last hline => rwa [List.mem_singleton.mp h]
  | cons hline _ _ ih =>
    rcases List.mem_cons.mp h with rfl | hmem
    · exact hline
    · exact ih hmem

theorem lines_ne_nil (cs : List Char) : lines cs ≠ [] := by
  have hlines := linesOf_lines cs
  generalize lines cs = ls at hlines
  cases hlines with
  | last => simp
  | cons => simp

/-- Lines with a line feed between them are found again. -/
theorem lines_intercalate {ls : List (List Char)} (hne : ls ≠ []) (h : ∀ line ∈ ls, InLine line) :
    lines (List.intercalate ['\n'] ls) = ls := by
  induction ls with
  | nil => exact absurd rfl hne
  | cons line ls ih =>
    have hline := h line List.mem_cons_self
    cases ls with
    | nil =>
      rw [List.intercalate_singleton]
      exact lines_of_inLine hline
    | cons next ls =>
      have hrest := ih (by simp) fun l hl => h l (List.mem_cons_of_mem _ hl)
      rw [List.intercalate_cons_cons, List.append_assoc, lines_append_ending hline (.feed _), hrest]

/-! ### Lines that are not empty -/

/-- The lines of a text that are not empty. -/
def filled (cs : List Char) : List (List Char) := (lines cs).filter (· ≠ [])

theorem filled_of_inLine {line : List Char} (h : InLine line) :
    filled line = [line].filter (· ≠ []) := by
  rw [filled, lines_of_inLine h]

theorem filled_nil : filled [] = [] := by
  rw [filled_of_inLine (by simp [InLine])]
  rfl

theorem filled_afterLineEnd {line : List Char} (h : InLine line) {c : Char}
    (hc : isInLine c = false) (rest : List Char) :
    filled (line ++ c :: rest) = filled line ++ filled (afterLineEnd (c :: rest)) := by
  obtain ⟨ending, heq, hending⟩ := exists_lineEnding hc rest
  have hlines := lines_append_ending h hending
  rw [← heq] at hlines
  rw [filled, hlines, filled_of_inLine h, ← List.singleton_append, List.filter_append]
  rfl

/-- A line end in front of a text makes no difference to its lines that are not empty. -/
theorem filled_cons {c : Char} (hc : isInLine c = false) (cs : List Char) :
    filled (c :: cs) = filled cs := by
  have hdrop : ∀ (d : Char) (rest : List Char), isInLine d = false →
      filled (d :: rest) = filled (afterLineEnd (d :: rest)) := by
    intro d rest hd
    have h : filled ([] ++ d :: rest) = filled [] ++ filled (afterLineEnd (d :: rest)) :=
      filled_afterLineEnd (by simp [InLine]) hd rest
    rwa [filled_nil] at h
  have hcases : c = '\n' ∨ c = '\r' := by
    simpa only [isInLine, isLineEnd, Bool.not_eq_false', Bool.or_eq_true, beq_iff_eq] using hc
  rw [hdrop c cs hc]
  rcases hcases with rfl | rfl
  · rfl
  · cases cs with
    | nil => rfl
    | cons d cs =>
      by_cases hd : d = '\n'
      · subst hd
        -- the two characters are one line end, or two with nothing between them
        exact (hdrop '\n' cs (by decide)).symm
      · rw [show afterLineEnd ('\r' :: d :: cs) = d :: cs by simp [afterLineEnd, hd]]

/-- A text falls apart at any of its line ends. -/
theorem filled_append_cons (front : List Char) {c : Char} (hc : isInLine c = false)
    (cs : List Char) : filled (front ++ c :: cs) = filled front ++ filled cs := by
  have hline : ∀ line rest : List Char, InLine line → ∀ d : Char, isInLine d = false →
      filled (line ++ d :: rest) = filled line ++ filled rest := by
    intro line rest h d hd
    have hnone : filled ([] ++ d :: rest) = filled [] ++ filled (afterLineEnd (d :: rest)) :=
      filled_afterLineEnd (by simp [InLine]) hd rest
    rw [List.nil_append, filled_nil, List.nil_append, filled_cons hd] at hnone
    rw [filled_afterLineEnd h hd, ← hnone]
  have hlines := linesOf_lines front
  generalize lines front = ls at hlines
  induction hlines with
  | last h => exact hline _ _ h c hc
  | @cons line ending rest ls h hending _ ih =>
    obtain ⟨d, more, rfl, hd⟩ := hending.exists_cons
    have hmore : ∀ after : List Char, filled (more ++ after) = filled after := by
      intro after
      cases hending with
      | feed => rfl
      | both => exact filled_cons (by decide) after
      | carriage => rfl
    have hleft :
        line ++ (d :: more ++ rest) ++ c :: cs = line ++ d :: (more ++ (rest ++ c :: cs)) := by
      simp
    rw [hleft, hline _ _ h d hd, hmore, ih, List.cons_append, hline _ _ h d hd, hmore,
      List.append_assoc]

/-- However many line ends there are between two texts, the lines of both are found. -/
theorem filled_append_ends (front : List Char) {ends : List Char} (h : LineEnds ends)
    (cs : List Char) : filled (front ++ (ends ++ cs)) = filled front ++ filled cs := by
  obtain ⟨hne, hends⟩ := h
  obtain ⟨c, more, rfl⟩ := List.exists_cons_of_ne_nil hne
  obtain ⟨hc, hmore⟩ := List.forall_mem_cons.mp hends
  rw [List.cons_append, filled_append_cons front hc]
  congr 1
  clear hends hne
  induction more with
  | nil => rfl
  | cons d more ih =>
    obtain ⟨hd, hmore⟩ := List.forall_mem_cons.mp hmore
    rw [List.cons_append, filled_cons hd, ih hmore]

/-! ### Going through a line -/

/-- A line is gone through token by token, and character by character where it is blank. -/
theorem lineInduction {P : List Char → Prop} (nil : P [])
    (blank : ∀ c rest, Text.isBlank c = true → P rest → P (c :: rest))
    (token : ∀ c rest, Text.isBlank c = false → P (rest.drop (lexeme c rest).2) → P (c :: rest))
    (cs : List Char) : P cs := by
  induction hlength : cs.length using Nat.strong_induction_on generalizing cs with
  | _ length ih =>
    cases cs with
    | nil => exact nil
    | cons c rest =>
      rw [List.length_cons] at hlength
      cases hblank : Text.isBlank c with
      | true => exact blank c rest hblank (ih rest.length (by omega) rest rfl)
      | false =>
        refine token c rest hblank (ih _ ?_ _ rfl)
        rw [List.length_drop]
        omega

theorem scan_nil (loc : Location) : scan loc [] = [.here loc .lineEnd] := by rw [scan]

theorem scan_blank (loc : Location) {c : Char} (h : Text.isBlank c = true) (rest : List Char) :
    scan loc (c :: rest) = scan { loc with column := loc.column + 1 } rest := by
  rw [scan, if_pos h]

theorem scan_token (loc : Location) {c : Char} (h : Text.isBlank c = false) (rest : List Char) :
    scan loc (c :: rest) = .here loc (lexeme c rest).1 ::
      scan { loc with column := loc.column + 1 + (lexeme c rest).2 }
        (rest.drop (lexeme c rest).2) := by
  rw [scan, if_neg (by simp [h])]

/-! ### The tokens of a line by themselves -/

/-- The tokens of a line, wherever they stand and without its end. -/
def lexemes (cs : List Char) : List Token :=
  match cs with
  | [] => []
  | c :: rest =>
    if Text.isBlank c then lexemes rest
    else (lexeme c rest).1 :: lexemes (rest.drop (lexeme c rest).2)
termination_by cs.length
decreasing_by all_goals simp; try omega

theorem lexemes_nil : lexemes [] = [] := by rw [lexemes]

theorem lexemes_blank {c : Char} (h : Text.isBlank c = true) (rest : List Char) :
    lexemes (c :: rest) = lexemes rest := by
  rw [lexemes, if_pos h]

theorem lexemes_token {c : Char} (h : Text.isBlank c = false) (rest : List Char) :
    lexemes (c :: rest) = (lexeme c rest).1 :: lexemes (rest.drop (lexeme c rest).2) := by
  rw [lexemes, if_neg (by simp [h])]

theorem map_value_scan (loc : Location) (cs : List Char) :
    (scan loc cs).map (·.value) = lexemes cs ++ [.lineEnd] := by
  induction cs using lineInduction generalizing loc with
  | nil => simp [scan_nil, lexemes_nil, Located.here]
  | blank c rest hblank ih => rw [scan_blank _ hblank, lexemes_blank hblank, ih]
  | token c rest hblank ih =>
    rw [scan_token _ hblank, lexemes_token hblank, List.map_cons, ih]
    rfl

/-- What holds of every token that is read holds of the tokens of a line. -/
theorem forall_mem_lexemes {P : Token → Prop} (h : ∀ c rest, P (lexeme c rest).1)
    (cs : List Char) : ∀ token ∈ lexemes cs, P token := by
  induction cs using lineInduction with
  | nil => simp [lexemes_nil]
  | blank c rest hblank ih => rwa [lexemes_blank hblank]
  | token c rest hblank ih =>
    rw [lexemes_token hblank]
    exact List.forall_mem_cons.mpr ⟨h c rest, ih⟩

theorem ne_lineEnd_of_mem_lexemes {token : Token} {cs : List Char} (h : token ∈ lexemes cs) :
    token ≠ .lineEnd :=
  forall_mem_lexemes (P := (· ≠ .lineEnd)) (fun c => (scans_lexeme c).ne_lineEnd) cs token h

end StackAsm.Token
