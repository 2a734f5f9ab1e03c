import StackAsm.Proofs.Text
import StackAsm.Proofs.Token.Printing

/-!
# Tokens that are read back

A token can be made up that no text holds, such as a word with a blank in it. Here it is said what
the names of tokens look like that were read (`Shaped`), and which tokens are read from their source
wherever a blank or nothing follows it (`Reads`). Lines of such tokens, printed one after the other,
are found again.
-/

namespace StackAsm.Token

/-! ### Characters of names and numerals -/

/-- An ASCII character that is neither a control nor a blank. -/
def IsVisible (c : Char) : Prop := 0x20 < c.toNat ∧ c.toNat < 0x7F

instance (c : Char) : Decidable (IsVisible c) :=
  inferInstanceAs (Decidable (0x20 < c.toNat ∧ c.toNat < 0x7F))

theorem IsVisible.not_blank {c : Char} (h : IsVisible c) : Text.isBlank c = false := by
  obtain ⟨hlow, hhigh⟩ := h
  simp only [Text.isBlank, Text.Ranges.contains, Text.blankRanges, List.any_cons, List.any_nil,
    Bool.or_false, Bool.or_eq_false_iff, Bool.and_eq_false_iff, decide_eq_false_iff_not]
  omega

theorem inLine_of_visible {cs : List Char} (h : ∀ c ∈ cs, IsVisible c) : InLine cs := by
  intro c hc
  obtain ⟨hlow, -⟩ := h c hc
  have hfeed : c ≠ '\n' := by
    rintro rfl
    exact absurd hlow (by decide)
  have hreturn : c ≠ '\r' := by
    rintro rfl
    exact absurd hlow (by decide)
  simp [isInLine, isLineEnd, hfeed, hreturn]

theorem isVisible_of_isDigit {c : Char} (h : c.isDigit = true) : IsVisible c := by
  have hrange : 48 ≤ c.toNat ∧ c.toNat ≤ 57 := Char.isDigit_iff_toNat.mp h
  exact ⟨by omega, by omega⟩

theorem isWordChar_iff (c : Char) : isWordChar c = true ↔
    65 ≤ c.toNat ∧ c.toNat ≤ 90 ∨ 97 ≤ c.toNat ∧ c.toNat ≤ 122 ∨ 48 ≤ c.toNat ∧ c.toNat ≤ 57 ∨
      c.toNat = 95 := by
  have hunderscore : c = '_' ↔ c.toNat = 95 := Char.toNat_inj.symm
  delta isWordChar Char.isAlphanum Char.isAlpha Char.isUpper Char.isLower Char.isDigit
  simp only [Bool.or_eq_true, Bool.and_eq_true, decide_eq_true_eq, beq_iff_eq, hunderscore,
    UInt32.le_iff_toNat_le, or_assoc]
  exact Iff.rfl

theorem isVisible_of_isWordChar {c : Char} (h : isWordChar c = true) : IsVisible c := by
  have hrange := (isWordChar_iff c).mp h
  exact ⟨by omega, by omega⟩

theorem isWordStart_iff (c : Char) : isWordStart c = true ↔
    65 ≤ c.toNat ∧ c.toNat ≤ 90 ∨ 97 ≤ c.toNat ∧ c.toNat ≤ 122 ∨ c.toNat = 95 := by
  have hunderscore : c = '_' ↔ c.toNat = 95 := Char.toNat_inj.symm
  delta isWordStart Char.isAlpha Char.isUpper Char.isLower
  simp only [Bool.or_eq_true, Bool.and_eq_true, decide_eq_true_eq, beq_iff_eq, hunderscore,
    UInt32.le_iff_toNat_le, or_assoc]
  exact Iff.rfl

theorem isWordChar_of_isWordStart {c : Char} (h : isWordStart c = true) : isWordChar c = true := by
  rw [isWordStart_iff] at h
  rw [isWordChar_iff]
  omega

theorem isWordChar_toLower {c : Char} (h : isWordChar c = true) : isWordChar c.toLower = true := by
  rw [isWordChar_iff] at h ⊢
  rw [Text.toNat_toLower]
  split
  · omega
  · exact h

/-! ### Names that a text can hold -/

/-- A letter or an underscore, followed by letters, digits and underscores. -/
def IsWord (name : String) : Prop :=
  ∃ c more, name.toList = c :: more ∧ isWordStart c = true ∧ ∀ d ∈ more, isWordChar d = true

/-- Letters, digits and underscores, at least one. -/
structure IsMarkedName (name : String) : Prop where
  ne_nil : name.toList ≠ []
  wordChar : ∀ c ∈ name.toList, isWordChar c = true

theorem IsMarkedName.ascii {name : String} (h : IsMarkedName name) :
    ∀ c ∈ name.toList, c.toNat < 0x80 := by
  intro c hc
  have hlt := (isVisible_of_isWordChar (h.wordChar c hc)).2
  omega

theorem IsMarkedName.lowercase {name : String} (h : IsMarkedName name) :
    IsMarkedName (Text.lowercase name) := by
  have hlist := Text.toList_lowercase h.ascii
  constructor
  · rw [hlist]
    simpa using h.ne_nil
  · rw [hlist]
    intro c hc
    obtain ⟨d, hd, rfl⟩ := List.mem_map.mp hc
    exact isWordChar_toLower (h.wordChar d hd)

/-- What is known of the names and separators of tokens that were read. -/
def Shaped : Token → Prop
  | word name => IsWord name
  | directive name => IsMarkedName name
  | separator c => c = ',' ∨ c = ':'
  | _ => True

theorem shaped_quotedText (rest : List Char) : Shaped (quotedText rest).1 := by
  unfold quotedText
  split
  · trivial
  · trivial

theorem shaped_markedChar (mark : String) (make : Char → Token) (hmake : ∀ c, Shaped (make c))
    (rest : List Char) : Shaped (markedChar mark make rest).1 := by
  cases rest with
  | nil => trivial
  | cons c rest => exact hmake c

theorem shaped_hex (rest : List Char) : Shaped (taking isHexDigit ofHexDigits rest).1 := by
  simp only [taking, ofHexDigits]
  split
  · trivial
  · trivial

theorem shaped_markedName (mark : String) (make : String → Token)
    (hmake : ∀ name, IsMarkedName name → Shaped (make name)) (rest : List Char) :
    Shaped (taking isWordChar (ofMarkedName mark make) rest).1 := by
  simp only [taking, ofMarkedName]
  split
  · trivial
  · next hne =>
    refine hmake _ ⟨?_, ?_⟩
    · simpa using hne
    · rw [String.toList_ofList]
      exact fun c hc => List.mem_takeWhile_imp hc

theorem shaped_signed (sign : Char) (rest : List Char) : Shaped (signed sign rest).1 := by
  simp only [signed]
  split
  · trivial
  · trivial

theorem shaped_operatorFrom (c : Char) (rest : List Char) : Shaped (operatorFrom c rest).1 := by
  unfold operatorFrom
  split
  · trivial
  · rcases ofSingle_cases c with ⟨op, -, hsingle⟩ | hsingle
    · rw [hsingle]
      trivial
    · rw [hsingle]
      trivial

theorem Mode.shaped_lexeme (mode : Mode) (rest : List Char) : Shaped (mode.lexeme rest).1 := by
  cases mode with
  | text => exact shaped_quotedText rest
  | char => exact shaped_markedChar "%" .char (fun _ => trivial) rest
  | escape => exact shaped_markedChar "\\" .escape (fun _ => trivial) rest
  | hex => exact shaped_hex rest
  | directive => exact shaped_markedName "." .directive (fun _ h => h) rest
  | preDirective => exact shaped_markedName "#" .preDirective (fun _ _ => trivial) rest
  | sign c => exact shaped_signed c rest
  | operator first => exact shaped_operatorFrom first rest
  | _ => trivial

/-- Whatever is read has a name of the right shape. -/
theorem shaped_lexeme (c : Char) (rest : List Char) : Shaped (lexeme c rest).1 := by
  unfold lexeme
  split
  · next mode _ => exact mode.shaped_lexeme rest
  · split
    · next token hsingle =>
      have hshaped : ∀ p ∈ singles, Shaped p.2 := by simp [singles, Shaped]
      exact hshaped (c, token) (mem_of_lookup hsingle)
    · split
      · trivial
      · split
        · next hword =>
          refine ⟨c, rest.takeWhile isWordChar, ?_, hword, ?_⟩
          · simp
          · exact fun d hd => List.mem_takeWhile_imp hd
        · trivial

/-! ### Tokens that are read from their source -/

/-- The token is read from its source, in front of a blank or of nothing. -/
def Reads (token : Token) : Prop :=
  ∃ c more, token.source.toList = c :: more ∧ Text.isBlank c = false ∧ InLine (c :: more) ∧
    ∀ tail : List Char, (∀ d ∈ tail.head?, d = ' ') →
      lexeme c (more ++ tail) = (token, more.length)

theorem Reads.ne_lineEnd {token : Token} (h : Reads token) : token ≠ .lineEnd := by
  rintro rfl
  obtain ⟨c, more, hsource, -, hline, -⟩ := h
  obtain ⟨rfl, rfl⟩ : '\n' = c ∧ [] = more := List.cons.inj hsource
  exact absurd (hline '\n' List.mem_cons_self) (by decide)

theorem Reads.inLine {token : Token} (h : Reads token) : InLine token.source.toList := by
  obtain ⟨c, more, hsource, -, hline, -⟩ := h
  rwa [hsource]

/-- A token whose characters can all be seen. -/
theorem reads_of_visible {token : Token} (c : Char) (more : List Char)
    (hsource : token.source.toList = c :: more) (hvisible : ∀ d ∈ c :: more, IsVisible d)
    (hread : ∀ tail : List Char, (∀ d ∈ tail.head?, d = ' ') →
      lexeme c (more ++ tail) = (token, more.length)) : Reads token :=
  ⟨c, more, hsource, (hvisible c List.mem_cons_self).not_blank, inLine_of_visible hvisible, hread⟩

theorem lookup_eq_none_of_all {α : Type} {table : List (Char × α)} {p : Char → Bool}
    (h : table.all (fun entry => !p entry.1) = true) {c : Char} (hc : p c = true) :
    table.lookup c = none := by
  refine List.lookup_eq_none_iff.mpr fun entry hentry => bne_iff_ne.mpr ?_
  rintro rfl
  have hnot := List.all_eq_true.mp h entry hentry
  rw [hc] at hnot
  cases hnot

/-- A character of a name or a numeral opens nothing and is no token by itself. -/
theorem lexeme_of_isWordChar {c : Char} (h : isWordChar c = true) (rest : List Char) :
    lexeme c rest =
      if c.isDigit then
        taking Char.isDigit (fun digits => .number (String.singleton c ++ digits)) rest
      else if isWordStart c then
        taking isWordChar (fun name => .word (String.singleton c ++ name)) rest
      else (.stray c, 0) := by
  have hopen : openers.lookup c = none := lookup_eq_none_of_all (by rfl) h
  have hsingle : singles.lookup c = none := lookup_eq_none_of_all (by rfl) h
  simp only [lexeme, hopen, hsingle]

theorem lexeme_of_isDigit {c : Char} (h : c.isDigit = true) (rest : List Char) :
    lexeme c rest = (.number (String.ofList (c :: rest.takeWhile Char.isDigit)),
      (rest.takeWhile Char.isDigit).length) := by
  have hword : isWordChar c = true := by simp [isWordChar, Char.isAlphanum, h]
  rw [lexeme_of_isWordChar hword, if_pos h, taking, String.ofList_cons]

theorem lexeme_of_isWordStart {c : Char} (h : isWordStart c = true) (rest : List Char) :
    lexeme c rest = (.word (String.ofList (c :: rest.takeWhile isWordChar)),
      (rest.takeWhile isWordChar).length) := by
  have hdigit : ¬c.isDigit = true := by
    intro hc
    have hrange : 48 ≤ c.toNat ∧ c.toNat ≤ 57 := Char.isDigit_iff_toNat.mp hc
    rw [isWordStart_iff] at h
    omega
  rw [lexeme_of_isWordChar (isWordChar_of_isWordStart h), if_neg hdigit, if_pos h, taking,
    String.ofList_cons]

theorem reads_word {name : String} (h : IsWord name) : Reads (.word name) := by
  obtain ⟨c, more, hname, hc, hmore⟩ := h
  refine reads_of_visible c more hname ?_ fun tail htail => ?_
  · refine List.forall_mem_cons.mpr ⟨?_, fun d hd => isVisible_of_isWordChar (hmore d hd)⟩
    exact isVisible_of_isWordChar (isWordChar_of_isWordStart hc)
  · rw [lexeme_of_isWordStart hc, takeWhile_append_of_head (by decide) hmore htail, ← hname,
      String.ofList_toList]

theorem reads_directive {name : String} (h : IsMarkedName name) : Reads (.directive name) := by
  refine reads_of_visible '.' name.toList ?_ ?_ fun tail htail => ?_
  · simp [source]
  · refine List.forall_mem_cons.mpr ⟨by decide, ?_⟩
    exact fun d hd => isVisible_of_isWordChar (h.wordChar d hd)
  · have hne : name ≠ "" := fun hname => h.ne_nil (by simp [hname])
    show taking isWordChar (ofMarkedName "." .directive) (name.toList ++ tail) = _
    rw [taking, takeWhile_append_of_head (by decide) h.wordChar htail, String.ofList_toList,
      ofMarkedName, if_neg hne]

/-- A numeral is read with its sign. -/
theorem reads_decimal (n : Int64) : Reads (.number (Text.decimal n)) := by
  obtain ⟨m, hcases⟩ := Text.decimal_cases n
  obtain ⟨c, cs, hdigits, hc, hcs⟩ := Text.exists_toDigits m
  rw [hdigits] at hcases
  have hvisible : ∀ d ∈ c :: cs, IsVisible d :=
    List.forall_mem_cons.mpr ⟨isVisible_of_isDigit hc, fun d hd => isVisible_of_isDigit (hcs d hd)⟩
  rcases hcases with ⟨htext, -⟩ | ⟨htext, -⟩
  · refine reads_of_visible c cs htext hvisible fun tail htail => ?_
    rw [lexeme_of_isDigit hc, takeWhile_append_of_head (by decide) hcs htail, ← htext,
      String.ofList_toList]
  · refine reads_of_visible '-' (c :: cs) htext ?_ fun tail htail => ?_
    · exact List.forall_mem_cons.mpr ⟨by decide, hvisible⟩
    · show signed '-' (c :: cs ++ tail) = _
      have hall : ∀ d ∈ c :: cs, d.isDigit = true := List.forall_mem_cons.mpr ⟨hc, hcs⟩
      simp only [signed, takeWhile_append_of_head (by decide) hall htail, ← htext,
        String.ofList_toList]
      rfl

theorem reads_text (content : String) : Reads (.text content) := by
  refine ⟨'"', escaped content.toList ++ ['"'], by simp [source], by decide, ?_, fun tail _ => ?_⟩
  · intro c hc
    rcases List.mem_cons.mp hc with rfl | hc
    · decide
    · rcases List.mem_append.mp hc with hc | hc
      · exact inLine_escaped _ c hc
      · obtain rfl : c = '"' := by simpa using hc
        decide
  · rw [List.append_assoc, List.singleton_append, lexeme_source_text]
    simp

/-- A token of one character. -/
theorem reads_single {token : Token} (c : Char) (hsource : token.source.toList = [c])
    (hvisible : IsVisible c)
    (hread : ∀ tail : List Char, (∀ d ∈ tail.head?, d = ' ') → lexeme c tail = (token, 0)) :
    Reads token :=
  reads_of_visible c [] hsource (by simpa using hvisible) hread

theorem reads_separator {c : Char} (h : c = ',' ∨ c = ':') : Reads (.separator c) := by
  rcases h with rfl | rfl
  · exact reads_single ',' rfl (by decide) fun _ _ => rfl
  · exact reads_single ':' rfl (by decide) fun _ _ => rfl

theorem reads_bracketOpen : Reads .bracketOpen := reads_single '[' rfl (by decide) fun _ _ => rfl

theorem reads_bracketClose : Reads .bracketClose := reads_single ']' rfl (by decide) fun _ _ => rfl

/-- A sign is an operator where no digit follows. -/
theorem signed_of_blank (sign : Char) {tail : List Char} (h : ∀ d ∈ tail.head?, d = ' ') :
    signed sign tail = (.operator (ofSign sign), 0) := by
  have hnone : ([] ++ tail).takeWhile Char.isDigit = [] :=
    takeWhile_append_of_head (by decide) (by simp) h
  rw [List.nil_append] at hnone
  simp [signed, hnone]

theorem reads_singleOperator {op : Operator} (c : Char) (hop : singleOperator? c = some op)
    (hvisible : IsVisible c) (hlexeme : ∀ rest, lexeme c rest = operatorFrom c rest) :
    Reads (.operator op) := by
  refine reads_single c (text_of_singleOperator? hop) hvisible fun tail htail => ?_
  have hnone : tail.head?.bind (doubleOperator? c) = none := by
    cases tail with
    | nil => rfl
    | cons d tail =>
      obtain rfl : d = ' ' := htail d rfl
      exact doubleOperator?_blank c
  rw [hlexeme]
  simp only [operatorFrom, hnone, ofSingle, hop]

theorem reads_doubleOperator {op : Operator} (c d : Char) (hop : doubleOperator? c d = some op)
    (hc : IsVisible c) (hd : IsVisible d)
    (hlexeme : ∀ rest, lexeme c rest = operatorFrom c rest) : Reads (.operator op) := by
  refine reads_of_visible c [d] (text_of_doubleOperator? hop) (by simp [hc, hd]) fun tail _ => ?_
  have hsome : (d :: tail).head?.bind (doubleOperator? c) = some op := hop
  rw [hlexeme, List.singleton_append]
  simp only [operatorFrom, hsome]
  rfl

theorem reads_operator (op : Operator) : Reads (.operator op) := by
  cases op with
  | plus => exact reads_single '+' rfl (by decide) fun _ h => signed_of_blank '+' h
  | minus => exact reads_single '-' rfl (by decide) fun _ h => signed_of_blank '-' h
  | complement => exact reads_single '~' rfl (by decide) fun _ _ => rfl
  | times => exact reads_singleOperator '*' rfl (by decide) fun _ => rfl
  | divide => exact reads_singleOperator '/' rfl (by decide) fun _ => rfl
  | bitAnd => exact reads_singleOperator '&' rfl (by decide) fun _ => rfl
  | bitOr => exact reads_singleOperator '|' rfl (by decide) fun _ => rfl
  | bitXor => exact reads_singleOperator '^' rfl (by decide) fun _ => rfl
  | negation => exact reads_singleOperator '!' rfl (by decide) fun _ => rfl
  | less => exact reads_singleOperator '<' rfl (by decide) fun _ => rfl
  | greater => exact reads_singleOperator '>' rfl (by decide) fun _ => rfl
  | modulo => exact reads_doubleOperator '/' '/' rfl (by decide) (by decide) fun _ => rfl
  | lessEq => exact reads_doubleOperator '<' '=' rfl (by decide) (by decide) fun _ => rfl
  | greaterEq => exact reads_doubleOperator '>' '=' rfl (by decide) (by decide) fun _ => rfl
  | shiftLeft => exact reads_doubleOperator '<' '<' rfl (by decide) (by decide) fun _ => rfl
  | shiftRight => exact reads_doubleOperator '>' '>' rfl (by decide) (by decide) fun _ => rfl
  | logicalAnd => exact reads_doubleOperator '&' '&' rfl (by decide) (by decide) fun _ => rfl
  | logicalOr => exact reads_doubleOperator '|' '|' rfl (by decide) (by decide) fun _ => rfl
  | equal => exact reads_doubleOperator '=' '=' rfl (by decide) (by decide) fun _ => rfl
  | notEqual => exact reads_doubleOperator '!' '=' rfl (by decide) (by decide) fun _ => rfl

/-! ### Lines that are printed and read -/

theorem lexemes_printed_of_reads {tokens : List Token} (h : ∀ t ∈ tokens, Reads t) :
    lexemes (printed tokens) = tokens := by
  induction tokens with
  | nil => rw [printed, lexemes_nil]
  | cons token tokens ih =>
    obtain ⟨⟨c, more, hsource, hblank, -, hread⟩, htokens⟩ := List.forall_mem_cons.mp h
    rw [printed_cons fun t ht => (h t ht).ne_lineEnd]
    have hread' := hread (if tokens = [] then [] else ' ' :: printed tokens) ?_
    · rw [lexemes_source_append hsource hblank hread']
      congr 1
      split
      · next hnil => rw [lexemes_nil, hnil]
      · rw [lexemes_blank (by decide), ih htokens]
    · split
      · simp
      · simp

/-- Lines are printed one after the other, each with its end, and nothing is left after the last. -/
theorem lines_printed {ls : List (List Token)} (h : ∀ line ∈ ls, ∀ t ∈ line, Reads t) :
    lines (printed (ls.flatMap (· ++ [.lineEnd]))) = ls.map printed ++ [[]] := by
  induction ls with
  | nil => exact lines_of_inLine (by simp [InLine, printed])
  | cons line ls ih =>
    obtain ⟨hline, hls⟩ := List.forall_mem_cons.mp h
    have hend : ∀ t ∈ line, t ≠ .lineEnd := fun t ht => (hline t ht).ne_lineEnd
    have hinLine := inLine_printed hend fun t ht => (hline t ht).inLine
    rw [List.flatMap_cons, List.append_assoc, List.singleton_append, printed_append_lineEnd _ hend,
      ← List.singleton_append, lines_append_ending hinLine (.feed _), ih hls]
    rfl

/-- **Lines of tokens that can be read are read from their text**, and after them the end of a line
with nothing on it. -/
theorem map_value_tokenize_print (file : Nat) {ls : List (List Token)}
    (h : ∀ line ∈ ls, ∀ t ∈ line, Reads t) :
    (tokenize file (print (ls.flatMap (· ++ [.lineEnd])))).map (·.value) =
      ls.flatMap (· ++ [.lineEnd]) ++ [.lineEnd] := by
  rw [map_value_tokenize, print, String.toList_ofList, lines_printed h, List.flatMap_append,
    List.flatMap_map]
  congr 1
  · refine List.flatMap_congr fun line hline => ?_
    rw [lexemes_printed_of_reads (h line hline)]
  · simp [lexemes_nil]

end StackAsm.Token
