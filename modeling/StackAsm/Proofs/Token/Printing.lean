import StackAsm.Proofs.Token.LineWise

/-!
# Printing tokens

Tokens are printed by their sources one after the other, with a blank between two tokens of a line.
Reading what was printed gives the tokens again, also where they stand for something that is no
token: what ended one token ends it again, and a text, however it was written, is printed in one
of the ways that stand for it.
-/

namespace StackAsm.Token

/-- What is printed between two tokens. -/
def gap (before after : Token) : List Char :=
  if before = .lineEnd ∨ after = .lineEnd then [] else [' ']

/-- The sources of tokens one after the other, with a blank between two tokens of a line. -/
def printed : List Token → List Char
  | [] => []
  | [token] => token.source.toList
  | token :: next :: rest => token.source.toList ++ gap token next ++ printed (next :: rest)

/-- The text of tokens. -/
def print (tokens : List Token) : String := String.ofList (printed tokens)

/-! ### One token -/

/-- A token that was read is read again from its source, in front of a blank or of nothing. -/
theorem lexeme_source {c : Char} {rest tail : List Char}
    (h : Separates (rest.drop (lexeme c rest).2) tail) :
    ∃ more, (lexeme c rest).1.source.toList = c :: more ∧
      lexeme c (more ++ tail) = ((lexeme c rest).1, more.length) := by
  have hspells := (scans_lexeme c).spells rest
  have hagain := (scans_lexeme c).again h
  have hlength : (rest.take (lexeme c rest).2).length = (lexeme c rest).2 := by
    rw [List.length_take]
    exact Nat.min_eq_left ((scans_lexeme c).bound rest)
  cases htoken : (lexeme c rest).1 with
  | text content =>
    -- the source need not be what was read, but it stands for the same contents
    rw [htoken] at hspells
    obtain ⟨body, hbody, -, -⟩ := hspells
    obtain rfl : c = '"' := (List.cons.inj hbody).1
    refine ⟨escaped content.toList ++ ['"'], by simp [source], ?_⟩
    rw [List.append_assoc, List.singleton_append, lexeme_source_text]
    simp
  | _ =>
    rw [htoken] at hspells
    refine ⟨rest.take (lexeme c rest).2, hspells.symm, ?_⟩
    rw [hagain, hlength, ← htoken]

theorem inLine_escaped (cs : List Char) : InLine (escaped cs) := by
  intro c hc
  obtain ⟨d, -, hd⟩ := List.mem_flatMap.mp hc
  have hnone : ∀ e, e ≠ '\n' → e ≠ '\r' → isInLine e = true := by
    intro e hfeed hreturn
    simp [isInLine, isLineEnd, hfeed, hreturn]
  rcases escapeChar_cases d with ⟨hplain, -, -, hfeed, hreturn⟩ | ⟨e, hescape, -, hfeed, hreturn⟩
  · rw [hplain, List.mem_singleton] at hd
    rw [hd]
    exact hnone d hfeed hreturn
  · rw [hescape] at hd
    simp only [List.mem_cons, List.not_mem_nil, or_false] at hd
    rcases hd with rfl | rfl
    · decide
    · exact hnone c hfeed hreturn

/-- The source of a token of a line stands on a line. -/
theorem inLine_source {token : Token} {cs : List Char} (hcs : InLine cs)
    (h : token ∈ lexemes cs) : InLine token.source.toList := by
  induction cs using lineInduction with
  | nil => simp [lexemes_nil] at h
  | blank c rest hblank ih =>
    rw [lexemes_blank hblank] at h
    exact ih (fun d hd => hcs d (List.mem_cons_of_mem _ hd)) h
  | token c rest hblank ih =>
    rw [lexemes_token hblank] at h
    rcases List.mem_cons.mp h with rfl | hmem
    · have hspells := (scans_lexeme c).spells rest
      cases htoken : (lexeme c rest).1 with
      | text content =>
        intro d hd
        simp only [source, String.toList_append, String.toList_ofList, List.mem_append] at hd
        rcases hd with (hd | hd) | hd
        · obtain rfl : d = '"' := by simpa using hd
          decide
        · exact inLine_escaped _ d hd
        · obtain rfl : d = '"' := by simpa using hd
          decide
      | _ =>
        rw [htoken] at hspells
        rw [← show c :: rest.take (lexeme c rest).2 = _ from hspells]
        intro d hd
        rcases List.mem_cons.mp hd with rfl | hd
        · exact hcs d List.mem_cons_self
        · exact hcs d (List.mem_cons_of_mem _ (List.mem_of_mem_take hd))
    · exact ih (fun d hd => hcs d (List.mem_cons_of_mem _ (List.mem_of_mem_drop hd))) hmem

/-! ### One line -/

/-- Tokens of a line are printed one after the other with a blank between them. -/
theorem printed_cons {token : Token} {tokens : List Token}
    (h : ∀ t ∈ token :: tokens, t ≠ .lineEnd) :
    printed (token :: tokens) =
      token.source.toList ++ if tokens = [] then [] else ' ' :: printed tokens := by
  cases tokens with
  | nil => simp [printed]
  | cons next rest =>
    have hgap : gap token next = [' '] := by
      rw [gap, if_neg]
      rintro (hend | hend)
      · exact h token (by simp) hend
      · exact h next (by simp) hend
    simp [printed, hgap]

theorem inLine_printed {tokens : List Token} (hend : ∀ t ∈ tokens, t ≠ .lineEnd)
    (h : ∀ t ∈ tokens, InLine t.source.toList) : InLine (printed tokens) := by
  induction tokens with
  | nil => simp [printed, InLine]
  | cons token tokens ih =>
    rw [printed_cons hend]
    have hrest := ih (fun t ht => hend t (List.mem_cons_of_mem _ ht))
      fun t ht => h t (List.mem_cons_of_mem _ ht)
    intro c hc
    rcases List.mem_append.mp hc with hc | hc
    · exact h token List.mem_cons_self c hc
    · split at hc
      · simp at hc
      · rcases List.mem_cons.mp hc with rfl | hc
        · decide
        · exact hrest c hc

/-- A token that is read from its source is the first one of a line that starts with it. -/
theorem lexemes_source_append {token : Token} {c : Char} {more tail : List Char}
    (hsource : token.source.toList = c :: more) (hblank : Text.isBlank c = false)
    (hlexeme : lexeme c (more ++ tail) = (token, more.length)) :
    lexemes (token.source.toList ++ tail) = token :: lexemes tail := by
  rw [hsource, List.cons_append, lexemes_token hblank, hlexeme]
  simp

/-- What is printed of a line is read as the tokens of the line. -/
theorem lexemes_printed (cs : List Char) : lexemes (printed (lexemes cs)) = lexemes cs := by
  induction cs using lineInduction with
  | nil => simp [lexemes_nil, printed]
  | blank c rest hblank ih => rw [lexemes_blank hblank, ih]
  | token c rest hblank ih =>
    have hend : ∀ t ∈ lexemes (c :: rest), t ≠ .lineEnd := fun t => ne_lineEnd_of_mem_lexemes
    rw [lexemes_token hblank] at hend ⊢
    rw [printed_cons hend]
    generalize htail : (if lexemes (rest.drop (lexeme c rest).2) = [] then []
      else ' ' :: printed (lexemes (rest.drop (lexeme c rest).2))) = tail
    have hseparates : Separates (rest.drop (lexeme c rest).2) tail := by
      constructor
      · intro d hd
        subst htail
        split at hd
        · simp at hd
        · simpa using hd.symm
      · intro hnil
        rw [← htail, hnil, lexemes_nil, if_pos rfl]
    obtain ⟨more, hmore, hlexeme⟩ := lexeme_source hseparates
    rw [lexemes_source_append hmore hblank hlexeme, ← htail]
    congr 1
    split
    · next hnil => rw [lexemes_nil, hnil]
    · rw [lexemes_blank (by decide), ih]

/-! ### Texts -/

/-- A line end is printed without blanks around it. -/
theorem printed_append_lineEnd {tokens : List Token} (rest : List Token)
    (h : ∀ t ∈ tokens, t ≠ .lineEnd) :
    printed (tokens ++ .lineEnd :: rest) = printed tokens ++ '\n' :: printed rest := by
  have hend : printed (.lineEnd :: rest) = '\n' :: printed rest := by
    cases rest with
    | nil => simp [printed, source]
    | cons next rest => simp [printed, source, gap]
  induction tokens with
  | nil => simpa [printed] using hend
  | cons token tokens ih =>
    have hrest := ih fun t ht => h t (List.mem_cons_of_mem _ ht)
    cases tokens with
    | nil =>
      simp only [List.cons_append, List.nil_append, printed, hend]
      simp [gap]
    | cons next tokens =>
      simp only [List.cons_append] at hrest ⊢
      rw [printed, hrest, printed]
      simp

/-- The tokens of a text are printed line by line. -/
theorem printed_lines {ls : List (List Char)} (hne : ls ≠ []) :
    ∃ tokens, (ls.flatMap fun line => lexemes line ++ [.lineEnd]) = tokens ++ [.lineEnd] ∧
      printed tokens = List.intercalate ['\n'] (ls.map fun line => printed (lexemes line)) := by
  induction ls with
  | nil => exact absurd rfl hne
  | cons line ls ih =>
    cases ls with
    | nil => exact ⟨lexemes line, by simp, by simp⟩
    | cons next ls =>
      obtain ⟨tokens, htokens, hprinted⟩ := ih (by simp)
      refine ⟨lexemes line ++ .lineEnd :: tokens, ?_, ?_⟩
      · rw [List.flatMap_cons, htokens]
        simp
      · rw [printed_append_lineEnd tokens fun t => ne_lineEnd_of_mem_lexemes, hprinted]
        simp [List.intercalate_cons_cons]

/-- **Reading what was printed gives the tokens again.** A text is read as some tokens and a last
line end; these tokens, printed with a blank between any two of a line, are read as the same
tokens and a last line end, whatever they are. -/
theorem tokenize_print (file file' : Nat) (source : String) :
    ∃ tokens, (tokenize file source).map (·.value) = tokens ++ [.lineEnd] ∧
      (tokenize file' (print tokens)).map (·.value) = tokens ++ [.lineEnd] := by
  obtain ⟨tokens, htokens, hprinted⟩ := printed_lines (lines_ne_nil source.toList)
  refine ⟨tokens, by rw [map_value_tokenize, htokens], ?_⟩
  have hinLine : ∀ line ∈ (lines source.toList).map fun line => printed (lexemes line),
      InLine line := by
    intro line hline
    obtain ⟨original, hmem, rfl⟩ := List.mem_map.mp hline
    exact inLine_printed (fun t => ne_lineEnd_of_mem_lexemes)
      fun t => inLine_source (inLine_of_mem_lines hmem)
  have hlines : lines (print tokens).toList =
      (lines source.toList).map fun line => printed (lexemes line) := by
    rw [print, String.toList_ofList, hprinted]
    exact lines_intercalate (by simpa using lines_ne_nil source.toList) hinLine
  rw [map_value_tokenize, hlines, List.flatMap_map, ← htokens]
  simp only [lexemes_printed]

end StackAsm.Token
