import StackAsm.Proofs.Token.LineWise

/-!
# Where tokens stand

A token carries the place of its first character. The characters from there on spell it, no two
tokens share a character, and whatever belongs to none is blank; so nothing of a line is lost, read
twice or put in the wrong place. The end of a line stands just past its last character.
-/

namespace StackAsm.Token

/-- The token stands on the line `cs`, from the character `start` up to, but not including, the
character `stop`, both counted from zero. -/
structure Occupies (cs : List Char) (token : Located Token) (start stop : Nat) : Prop where
  column : token.loc.map (·.column) = some (start + 1)
  start_lt : start < stop
  stop_le : stop ≤ cs.length
  spells : Spells ((cs.drop start).take (stop - start)) token.value

/-- The tokens are those of the line `cs`, which has the number `line` in the file. -/
structure Covers (file line : Nat) (cs : List Char) (tokens : List (Located Token)) : Prop where
  /-- Every token knows the file and the line. -/
  located : ∀ token ∈ tokens, ∃ column, token.loc = some ⟨file, line, column⟩
  /-- The last token, and no other, is the end of the line, just past its characters. -/
  ended : ∃ words, tokens = words ++ [.here ⟨file, line, cs.length + 1⟩ .lineEnd] ∧
    ∀ token ∈ words, token.value ≠ .lineEnd
  /-- The tokens stand from left to right. -/
  increasing : tokens.Pairwise fun token next =>
    ∀ loc ∈ token.loc, ∀ loc' ∈ next.loc, loc.column < loc'.column
  /-- Every other token is spelled by the characters at its place. -/
  spelled : ∀ token ∈ tokens, token.value ≠ .lineEnd → ∃ start stop, Occupies cs token start stop
  /-- No two tokens share a character. -/
  disjoint : tokens.Pairwise fun token next => ∀ start stop start' stop',
    Occupies cs token start stop → Occupies cs next start' stop' → stop ≤ start'
  /-- What belongs to no token is blank. -/
  blank : ∀ i c, cs[i]? = some c → (∀ token ∈ tokens, ∀ start stop,
    Occupies cs token start stop → ¬(start ≤ i ∧ i < stop)) → Text.isBlank c = true

/-! ### How far a token reaches -/

/-- Characters at one place spell a token in one way only. -/
theorem Spells.length_unique {token : Token} {span span' rest rest' : List Char}
    (h : Spells span token) (h' : Spells span' token) (heq : span ++ rest = span' ++ rest') :
    span.length = span'.length := by
  cases token with
  | text content =>
    obtain ⟨body, rfl, hbody, -⟩ := h
    obtain ⟨body', rfl, hbody', -⟩ := h'
    have hquote : body ++ '"' :: rest = body' ++ '"' :: rest' := by simpa using heq
    simpa using hbody.length_unique hbody' hquote
  | _ => exact congrArg List.length (h.trans h'.symm)

theorem Occupies.length_span {cs : List Char} {token : Located Token} {start stop : Nat}
    (h : Occupies cs token start stop) :
    ((cs.drop start).take (stop - start)).length = stop - start := by
  have hstop := h.stop_le
  rw [List.length_take, List.length_drop]
  omega

theorem Occupies.unique {cs : List Char} {token : Located Token} {start stop start' stop' : Nat}
    (h : Occupies cs token start stop) (h' : Occupies cs token start' stop') :
    start = start' ∧ stop = stop' := by
  have hstart : start = start' := by
    have hcolumn := h.column.symm.trans h'.column
    simpa using hcolumn
  subst hstart
  have hsame : (cs.drop start).take (stop - start) ++ (cs.drop start).drop (stop - start) =
      (cs.drop start).take (stop' - start) ++ (cs.drop start).drop (stop' - start) := by
    rw [List.take_append_drop, List.take_append_drop]
  have hlength := h.spells.length_unique h'.spells hsame
  rw [h.length_span, h'.length_span] at hlength
  have := h.start_lt
  have := h'.start_lt
  exact ⟨rfl, by omega⟩

/-! ### One line

The statements are about the rest of a line, behind the characters `before`. -/

theorem located_scan {loc : Location} {cs : List Char} {token : Located Token}
    (h : token ∈ scan loc cs) :
    ∃ column, loc.column ≤ column ∧ token.loc = some ⟨loc.file, loc.line, column⟩ := by
  induction cs using lineInduction generalizing loc with
  | nil =>
    rw [scan_nil, List.mem_singleton] at h
    rw [h]
    exact ⟨loc.column, Nat.le_refl _, rfl⟩
  | blank c rest hblank ih =>
    rw [scan_blank _ hblank] at h
    obtain ⟨column, hle, hloc⟩ := ih h
    exact ⟨column, by simp only at hle; omega, hloc⟩
  | token c rest hblank ih =>
    rw [scan_token _ hblank] at h
    rcases List.mem_cons.mp h with rfl | hmem
    · exact ⟨loc.column, Nat.le_refl _, rfl⟩
    · obtain ⟨column, hle, hloc⟩ := ih hmem
      exact ⟨column, by simp only at hle; omega, hloc⟩

theorem ended_scan (loc : Location) (cs : List Char) :
    ∃ words, scan loc cs =
        words ++ [.here { loc with column := loc.column + cs.length } .lineEnd] ∧
      ∀ token ∈ words, token.value ≠ .lineEnd := by
  induction cs using lineInduction generalizing loc with
  | nil => exact ⟨[], by simp [scan_nil], by simp⟩
  | blank c rest hblank ih =>
    obtain ⟨words, hwords, hend⟩ := ih { loc with column := loc.column + 1 }
    refine ⟨words, ?_, hend⟩
    rw [scan_blank _ hblank, hwords]
    simp only [List.length_cons]
    rw [show loc.column + 1 + rest.length = loc.column + (rest.length + 1) by omega]
  | token c rest hblank ih =>
    obtain ⟨words, hwords, hend⟩ :=
      ih { loc with column := loc.column + 1 + (lexeme c rest).2 }
    have hbound := (scans_lexeme c).bound rest
    refine ⟨.here loc (lexeme c rest).1 :: words, ?_, ?_⟩
    · rw [scan_token _ hblank, hwords]
      simp only [List.length_cons, List.length_drop, List.cons_append]
      rw [show loc.column + 1 + (lexeme c rest).2 + (rest.length - (lexeme c rest).2) =
        loc.column + (rest.length + 1) by omega]
    · intro token htoken
      rcases List.mem_cons.mp htoken with rfl | hmem
      · exact (scans_lexeme c).ne_lineEnd rest
      · exact hend token hmem

theorem increasing_scan (loc : Location) (cs : List Char) :
    (scan loc cs).Pairwise fun token next =>
      ∀ at₁ ∈ token.loc, ∀ at₂ ∈ next.loc, at₁.column < at₂.column := by
  induction cs using lineInduction generalizing loc with
  | nil => simp [scan_nil]
  | blank c rest hblank ih =>
    rw [scan_blank _ hblank]
    exact ih _
  | token c rest hblank ih =>
    rw [scan_token _ hblank]
    refine List.pairwise_cons.mpr ⟨?_, ih _⟩
    intro next hnext at₁ h₁ at₂ h₂
    obtain ⟨column, hle, hloc⟩ := located_scan hnext
    obtain rfl : loc = at₁ := by simpa [Located.here] using h₁
    rw [hloc] at h₂
    obtain rfl := Option.mem_some_iff.mp h₂
    simp only at hle ⊢
    omega

/-- The token that starts behind `before` occupies the characters that were taken for it. -/
theorem occupies_lexeme (file line : Nat) (before : List Char) (c : Char) (rest : List Char) :
    Occupies (before ++ c :: rest) (.here ⟨file, line, before.length + 1⟩ (lexeme c rest).1)
      before.length (before.length + 1 + (lexeme c rest).2) where
  column := rfl
  start_lt := by omega
  stop_le := by
    have hbound := (scans_lexeme c).bound rest
    simp only [List.length_append, List.length_cons]
    omega
  spells := by
    have hlength : before.length + 1 + (lexeme c rest).2 - before.length =
        (lexeme c rest).2 + 1 := by omega
    rw [List.drop_left, hlength, List.take_succ_cons]
    exact (scans_lexeme c).spells rest

/-- Going on behind a token is going on behind all of its characters. -/
theorem before_token (before : List Char) (c : Char) (rest : List Char) :
    (before ++ c :: rest.take (lexeme c rest).2).length =
        before.length + 1 + (lexeme c rest).2 ∧
      before ++ c :: rest.take (lexeme c rest).2 ++ rest.drop (lexeme c rest).2 =
        before ++ c :: rest := by
  have hbound := (scans_lexeme c).bound rest
  refine ⟨?_, by simp⟩
  rw [List.length_append, List.length_cons, List.length_take]
  omega

section

variable (file line : Nat)

theorem spelled_scan (before cs : List Char) :
    ∀ token ∈ scan ⟨file, line, before.length + 1⟩ cs, token.value ≠ .lineEnd →
      ∃ start stop, Occupies (before ++ cs) token start stop := by
  induction cs using lineInduction generalizing before with
  | nil =>
    intro token htoken hend
    rw [scan_nil, List.mem_singleton] at htoken
    rw [htoken] at hend
    exact absurd rfl hend
  | blank c rest hblank ih =>
    rw [scan_blank _ hblank]
    simpa using ih (before ++ [c])
  | token c rest hblank ih =>
    obtain ⟨hlength, hsame⟩ := before_token before c rest
    have hrest := ih (before ++ c :: rest.take (lexeme c rest).2)
    rw [hlength, hsame] at hrest
    rw [scan_token _ hblank]
    intro token htoken hend
    rcases List.mem_cons.mp htoken with rfl | hmem
    · exact ⟨_, _, occupies_lexeme file line before c rest⟩
    · refine hrest token ?_ hend
      rwa [Nat.add_right_comm] at hmem

theorem disjoint_scan (before cs : List Char) :
    (scan ⟨file, line, before.length + 1⟩ cs).Pairwise fun token next =>
      ∀ start stop start' stop', Occupies (before ++ cs) token start stop →
        Occupies (before ++ cs) next start' stop' → stop ≤ start' := by
  induction cs using lineInduction generalizing before with
  | nil => simp [scan_nil]
  | blank c rest hblank ih =>
    rw [scan_blank _ hblank]
    simpa using ih (before ++ [c])
  | token c rest hblank ih =>
    obtain ⟨hlength, hsame⟩ := before_token before c rest
    have hrest := ih (before ++ c :: rest.take (lexeme c rest).2)
    rw [hlength, hsame, Nat.add_right_comm] at hrest
    rw [scan_token _ hblank]
    refine List.pairwise_cons.mpr ⟨?_, hrest⟩
    intro next hnext start stop start' stop' hstart hstart'
    obtain ⟨-, rfl⟩ := hstart.unique (occupies_lexeme file line before c rest)
    -- what follows stands behind the characters of the token
    obtain ⟨column, hle, hloc⟩ := located_scan hnext
    have hcolumn := hstart'.column
    rw [hloc] at hcolumn
    simp only [Option.map_some, Option.some.injEq] at hcolumn hle
    omega

theorem blank_scan (before cs : List Char) {i : Nat} {c : Char} (hi : before.length ≤ i)
    (hc : (before ++ cs)[i]? = some c)
    (hfree : ∀ token ∈ scan ⟨file, line, before.length + 1⟩ cs, ∀ start stop,
      Occupies (before ++ cs) token start stop → ¬(start ≤ i ∧ i < stop)) :
    Text.isBlank c = true := by
  induction cs using lineInduction generalizing before with
  | nil =>
    rw [List.append_nil, List.getElem?_eq_none hi] at hc
    cases hc
  | blank d rest hblank ih =>
    by_cases hfirst : i = before.length
    · subst hfirst
      obtain rfl : d = c := by simpa using hc
      exact hblank
    · rw [scan_blank _ hblank] at hfree
      refine ih (before ++ [d]) ?_ ?_ ?_
      · simp only [List.length_append, List.length_singleton]
        omega
      · simpa using hc
      · simpa using hfree
  | token d rest hblank ih =>
    rw [scan_token _ hblank] at hfree
    have hfirst := hfree _ List.mem_cons_self _ _ (occupies_lexeme file line before d rest)
    obtain ⟨hlength, hsame⟩ := before_token before d rest
    refine ih (before ++ d :: rest.take (lexeme d rest).2) ?_ ?_ ?_
    · rw [hlength]
      omega
    · rw [hsame]
      exact hc
    · rw [hlength, hsame, Nat.add_right_comm]
      exact fun token htoken => hfree token (List.mem_cons_of_mem _ htoken)

/-- The tokens of a line are where the line has them. -/
theorem covers_lineTokens (cs : List Char) : Covers file line cs (lineTokens file line cs) where
  located token htoken := by
    obtain ⟨column, -, hloc⟩ := located_scan htoken
    exact ⟨column, hloc⟩
  ended := by
    obtain ⟨words, hwords, hend⟩ := ended_scan ⟨file, line, 1⟩ cs
    exact ⟨words, by rw [Nat.add_comm cs.length 1]; exact hwords, hend⟩
  increasing := increasing_scan ⟨file, line, 1⟩ cs
  spelled := spelled_scan file line [] cs
  disjoint := disjoint_scan file line [] cs
  blank _ _ hc := blank_scan file line [] cs (Nat.zero_le _) hc

end

/-! ### All lines -/

/-- Whether a token stands on the line with the number. -/
def isOnLine (line : Nat) (token : Located Token) : Bool := token.loc.any (·.line == line)

theorem isOnLine_of_mem_lineTokens {file line : Nat} {cs : List Char} {token : Located Token}
    (h : token ∈ lineTokens file line cs) (number : Nat) :
    isOnLine number token = (line == number) := by
  obtain ⟨column, hloc⟩ := (covers_lineTokens file line cs).located token h
  simp [isOnLine, hloc]

theorem filter_lineTokens (file line number : Nat) (cs : List Char) :
    (lineTokens file line cs).filter (isOnLine number) =
      if line = number then lineTokens file line cs else [] := by
  split
  · next h =>
    refine List.filter_eq_self.mpr fun token htoken => ?_
    rw [isOnLine_of_mem_lineTokens htoken]
    exact beq_iff_eq.mpr h
  · next h =>
    refine List.filter_eq_nil_iff.mpr fun token htoken => ?_
    rw [isOnLine_of_mem_lineTokens htoken]
    simpa using h

theorem filter_flatMap_of_le (file : Nat) (ls : List (List Char)) {first number : Nat}
    (h : number ≤ first) :
    ((ls.zipIdx first).flatMap fun p => lineTokens file (p.2 + 1) p.1).filter
      (isOnLine number) = [] := by
  refine List.filter_eq_nil_iff.mpr fun token htoken => ?_
  obtain ⟨p, hp, hmem⟩ := List.mem_flatMap.mp htoken
  have hfirst := List.le_snd_of_mem_zipIdx hp
  rw [isOnLine_of_mem_lineTokens hmem, beq_iff_eq]
  omega

/-- Of lines that are numbered from `first` on, the tokens on one line are those of that line. -/
theorem filter_flatMap_lineTokens (file first : Nat) {ls : List (List Char)} {k : Nat}
    {line : List Char} (h : ls[k]? = some line) :
    ((ls.zipIdx first).flatMap fun p => lineTokens file (p.2 + 1) p.1).filter
      (isOnLine (first + k + 1)) = lineTokens file (first + k + 1) line := by
  induction ls generalizing first k with
  | nil => simp at h
  | cons l ls ih =>
    rw [List.zipIdx_cons, List.flatMap_cons, List.filter_append, filter_lineTokens]
    cases k with
    | zero =>
      obtain rfl : l = line := by simpa using h
      rw [if_pos (by omega), filter_flatMap_of_le file ls (by omega), List.append_nil]
    | succ k =>
      have hrest := ih (first + 1) (by simpa using h)
      rw [if_neg (by simp only; omega), List.nil_append]
      rw [show first + (k + 1) + 1 = first + 1 + k + 1 by omega]
      exact hrest

/-- **Tokens are where they stand.** There is one way to cut a text into lines. The tokens of the
text are those of its lines, one line after the other; those of a line are the ones that carry its
number, and they cover the line. -/
theorem tokenize_covers (file : Nat) (source : String) :
    ∃ (ls : List (List Char)) (groups : List (List (Located Token))),
      LinesOf source.toList ls ∧ (∀ ls', LinesOf source.toList ls' → ls' = ls) ∧
      tokenize file source = groups.flatten ∧ groups.length = ls.length ∧
      ∀ (k : Nat) (line : List Char) (group : List (Located Token)),
        ls[k]? = some line → groups[k]? = some group →
          group = (tokenize file source).filter (isOnLine (k + 1)) ∧
          Covers file (k + 1) line group := by
  refine ⟨lines source.toList,
    (lines source.toList).zipIdx.map fun p => lineTokens file (p.2 + 1) p.1,
    linesOf_lines _, fun ls' h => h.eq_lines, ?_, by simp, ?_⟩
  · rw [tokenize_eq, List.flatMap_def]
  · intro k line group hline hgroup
    have hzip : (lines source.toList).zipIdx[k]? = some (line, k) := by simp [hline]
    obtain rfl : lineTokens file (k + 1) line = group := by
      rw [List.getElem?_map, hzip] at hgroup
      simpa using hgroup
    refine ⟨?_, covers_lineTokens file (k + 1) line⟩
    have hfilter := filter_flatMap_lineTokens file 0 hline
    rw [Nat.zero_add] at hfilter
    rw [tokenize_eq]
    exact hfilter.symm

end StackAsm.Token
