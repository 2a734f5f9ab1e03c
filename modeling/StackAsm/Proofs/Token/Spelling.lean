import StackAsm.Proofs.Token.Lexeme
import Mathlib.Data.List.TakeWhile

/-!
# How tokens are spelled

The characters that the lexer takes for a token spell it: they are the source of the token, except
that a text between quotes can be written in several ways, of which its source is one. Where a
token ends does not depend on what stands far behind it: the same characters in front of a blank
or of nothing are the same token again.
-/

namespace StackAsm.Token

/-! ### Texts between quotes -/

/-- The characters between two quotes. A backslash takes the next character along, and a quote
stands only after a backslash. -/
inductive QuotedBody : List Char → Prop where
  | nil : QuotedBody []
  | plain {c : Char} {cs : List Char} :
      c ≠ '"' → c ≠ '\\' → QuotedBody cs → QuotedBody (c :: cs)
  | escape (c : Char) {cs : List Char} : QuotedBody cs → QuotedBody ('\\' :: c :: cs)

theorem closingQuote?_quote (n : Nat) (cs : List Char) :
    closingQuote? false n ('"' :: cs) = some n := by
  simp [closingQuote?]

theorem closingQuote?_plain {c : Char} (hquote : c ≠ '"') (hslash : c ≠ '\\') (n : Nat)
    (cs : List Char) : closingQuote? false n (c :: cs) = closingQuote? false (n + 1) cs := by
  have hne : (c == '\\') = false := by simp [hslash]
  simp [closingQuote?, hquote, hne]

theorem closingQuote?_escape (c : Char) (n : Nat) (cs : List Char) :
    closingQuote? false n ('\\' :: c :: cs) = closingQuote? false (n + 2) cs := by
  simp [closingQuote?]

/-- What stands between two quotes is passed over up to the second one. -/
theorem QuotedBody.closingQuote? {body : List Char} (h : QuotedBody body) (n : Nat)
    (rest : List Char) :
    closingQuote? false n (body ++ '"' :: rest) = some (n + body.length) := by
  induction h generalizing n with
  | nil => exact closingQuote?_quote n rest
  | plain hquote hslash _ ih =>
    rw [List.cons_append, closingQuote?_plain hquote hslash, ih, List.length_cons]
    congr 1
    omega
  | escape c _ ih =>
    rw [List.cons_append, List.cons_append, closingQuote?_escape, ih, List.length_cons,
      List.length_cons]
    congr 1
    omega

/-- The quote that closes a text is the first one that no backslash takes along. -/
theorem quotedBody_of_closingQuote? {cs : List Char} {n m : Nat}
    (h : closingQuote? false n cs = some m) :
    ∃ body rest, cs = body ++ '"' :: rest ∧ QuotedBody body ∧ m = n + body.length := by
  -- two characters at a time after a backslash, so by the length and not by the list
  induction hlength : cs.length using Nat.strong_induction_on generalizing cs n with
  | _ length ih =>
    cases cs with
    | nil => simp [Token.closingQuote?] at h
    | cons c cs =>
      by_cases hquote : c = '"'
      · subst hquote
        rw [closingQuote?_quote] at h
        exact ⟨[], cs, rfl, .nil, by simpa using h.symm⟩
      · by_cases hslash : c = '\\'
        · subst hslash
          cases cs with
          | nil => simp [Token.closingQuote?] at h
          | cons d cs =>
            rw [closingQuote?_escape] at h
            obtain ⟨body, rest, rfl, hbody, rfl⟩ :=
              ih cs.length (by simp only [List.length_cons] at hlength; omega) h rfl
            exact ⟨'\\' :: d :: body, rest, rfl, .escape d hbody, by
              simp only [List.length_cons]; omega⟩
        · rw [closingQuote?_plain hquote hslash] at h
          obtain ⟨body, rest, rfl, hbody, rfl⟩ :=
            ih cs.length (by simp only [List.length_cons] at hlength; omega) h rfl
          exact ⟨c :: body, rest, rfl, .plain hquote hslash hbody, by
            simp only [List.length_cons]; omega⟩

/-- Only one quote closes a text. -/
theorem QuotedBody.length_unique {body body' rest rest' : List Char} (h : QuotedBody body)
    (h' : QuotedBody body') (heq : body ++ '"' :: rest = body' ++ '"' :: rest') :
    body.length = body'.length := by
  have hclose := h.closingQuote? 0 rest
  rw [heq, h'.closingQuote? 0 rest'] at hclose
  simpa using hclose.symm

theorem unescapeInto_eq (done cs : List Char) :
    unescapeInto done cs = done.reverse ++ unescaped cs := by
  -- the characters done so far change along the way, so the statement is for all of them at once
  refine unescapeInto.induct (fun _ cs => ∀ done, unescapeInto done cs = done.reverse ++ unescaped cs)
    ?_ ?_ ?_ ?_ [] cs done
  · intro _ done
    simp [unescapeInto, unescaped]
  · intro _ done
    simp [unescapeInto, unescaped]
  · intro _ c cs ih done
    rw [unescaped, unescapeInto, unescapeInto, ih, ih]
    simp
  · intro _ c cs h1 h2 ih done
    rw [unescaped, unescapeInto, unescapeInto, ih, ih]
    · simp
    · exact h1
    · exact h2
    · exact h1
    · exact h2

@[simp] theorem unescaped_nil : unescaped [] = [] := rfl

@[simp] theorem unescaped_escape (c : Char) (cs : List Char) :
    unescaped ('\\' :: c :: cs) = unescapeChar c :: unescaped cs := by
  rw [unescaped, unescapeInto, unescapeInto_eq]
  rfl

theorem unescaped_plain {c : Char} (h : c ≠ '\\') (cs : List Char) :
    unescaped (c :: cs) = c :: unescaped cs := by
  rw [unescaped, unescapeInto, unescapeInto_eq]
  · rfl
  · intro hc
    exact absurd hc h
  · intro d ds hc
    exact absurd hc h

/-- A character of a text is written as itself or as a backslash with another character. -/
theorem escapeChar_cases (c : Char) :
    (escapeChar c = [c] ∧ c ≠ '"' ∧ c ≠ '\\' ∧ c ≠ '\n' ∧ c ≠ '\r') ∨
      ∃ d, escapeChar c = ['\\', d] ∧ unescapeChar d = c ∧ d ≠ '\n' ∧ d ≠ '\r' := by
  unfold escapeChar
  split
  · exact .inr ⟨'"', rfl, rfl, by decide, by decide⟩
  · exact .inr ⟨'\\', rfl, rfl, by decide, by decide⟩
  · exact .inr ⟨'n', rfl, rfl, by decide, by decide⟩
  · exact .inr ⟨'r', rfl, rfl, by decide, by decide⟩
  · exact .inr ⟨'t', rfl, rfl, by decide, by decide⟩
  · exact .inr ⟨'0', rfl, rfl, by decide, by decide⟩
  · exact .inl ⟨rfl, by assumption, by assumption, by assumption, by assumption⟩

/-- Reading an escaped text gives the text. -/
theorem unescaped_escaped (cs : List Char) : unescaped (escaped cs) = cs := by
  induction cs with
  | nil => rfl
  | cons c cs ih =>
    have hcons : escaped (c :: cs) = escapeChar c ++ escaped cs := rfl
    rcases escapeChar_cases c with ⟨hplain, -, hslash, -⟩ | ⟨d, hescape, hd, -⟩
    · rw [hcons, hplain, List.singleton_append, unescaped_plain hslash, ih]
    · rw [hcons, hescape]
      simp [hd, ih]

/-- An escaped text can stand between quotes. -/
theorem quotedBody_escaped (cs : List Char) : QuotedBody (escaped cs) := by
  induction cs with
  | nil => exact .nil
  | cons c cs ih =>
    have hcons : escaped (c :: cs) = escapeChar c ++ escaped cs := rfl
    rcases escapeChar_cases c with ⟨hplain, hquote, hslash, -⟩ | ⟨d, hescape, -⟩
    · rw [hcons, hplain]
      exact .plain hquote hslash ih
    · rw [hcons, hescape]
      exact .escape d ih

/-! ### The characters of a token -/

/-- The characters spell the token. Of a text only the contents are known, which can be written in
several ways; any other token is spelled like its source. -/
def Spells (cs : List Char) : Token → Prop
  | text content =>
    ∃ body, cs = '"' :: (body ++ ['"']) ∧ QuotedBody body ∧ unescaped body = content.toList
  | token => cs = token.source.toList

/-- What may stand behind a token instead of `rest`, without becoming part of it: a blank, or
nothing; and nothing where nothing was. -/
structure Separates (rest tail : List Char) : Prop where
  head : ∀ c ∈ tail.head?, c = ' '
  empty : rest = [] → tail = []

/-- What is asked of a reader of the tokens that start with `c`: it does not read past the line,
the characters it takes spell the token, and it takes the same characters again where they are
followed by a blank or by nothing. -/
structure Scans (c : Char) (read : List Char → Token × Nat) : Prop where
  bound (rest : List Char) : (read rest).2 ≤ rest.length
  spells (rest : List Char) : Spells (c :: rest.take (read rest).2) (read rest).1
  ne_lineEnd (rest : List Char) : (read rest).1 ≠ .lineEnd
  again {rest tail : List Char} (h : Separates (rest.drop (read rest).2) tail) :
    read (rest.take (read rest).2 ++ tail) = read rest

theorem take_length_takeWhile (p : Char → Bool) (rest : List Char) :
    rest.take (rest.takeWhile p).length = rest.takeWhile p :=
  (List.prefix_iff_eq_take.mp (List.takeWhile_prefix p)).symm

/-- As many characters as possible are taken, also in front of a blank that is none of them. -/
theorem takeWhile_append_of_head {p : Char → Bool} (hblank : p ' ' = false) {cs tail : List Char}
    (hcs : ∀ c ∈ cs, p c) (htail : ∀ c ∈ tail.head?, c = ' ') :
    (cs ++ tail).takeWhile p = cs := by
  rw [List.takeWhile_append_of_pos hcs]
  cases tail with
  | nil => simp
  | cons c tail =>
    obtain rfl : c = ' ' := htail c rfl
    simp [hblank]

/-- A token made of its first character and all the characters of a kind that follow. -/
theorem scans_taking {c : Char} {belongs : Char → Bool} {make : String → Token}
    (hblank : belongs ' ' = false) (hspells : ∀ cs, Spells (c :: cs) (make (String.ofList cs)))
    (hend : ∀ s, make s ≠ .lineEnd) : Scans c (taking belongs make) where
  bound rest := (List.takeWhile_prefix belongs).length_le
  spells rest := by
    rw [taking, take_length_takeWhile]
    exact hspells _
  ne_lineEnd rest := hend _
  again {rest tail} h := by
    have hall : ∀ d ∈ rest.takeWhile belongs, belongs d := fun d hd => List.mem_takeWhile_imp hd
    have htake : rest.take (taking belongs make rest).2 = rest.takeWhile belongs :=
      take_length_takeWhile belongs rest
    rw [htake, taking, takeWhile_append_of_head hblank hall h.head, taking]

/-- A token of one character. -/
theorem scans_single {c : Char} {token : Token} (hspells : Spells [c] token)
    (hend : token ≠ .lineEnd) : Scans c fun _ => (token, 0) where
  bound _ := Nat.zero_le _
  spells _ := hspells
  ne_lineEnd _ := hend
  again _ := rfl

/-- A comment takes the rest of the line. -/
theorem scans_comment : Scans ';' fun rest => (.comment (String.ofList rest), rest.length) where
  bound _ := Nat.le_refl _
  spells rest := by simp [Spells, source]
  ne_lineEnd _ := by simp
  again {rest tail} h := by
    obtain rfl : tail = [] := h.empty (by simp)
    simp

theorem scans_quotedText : Scans '"' quotedText where
  bound rest := by
    unfold quotedText
    split
    · next n hclose =>
      obtain ⟨body, after, rfl, -, rfl⟩ := quotedBody_of_closingQuote? hclose
      simp
    · exact Nat.le_refl _
  spells rest := by
    unfold quotedText
    split
    · next n hclose =>
      obtain ⟨body, after, rfl, hbody, rfl⟩ := quotedBody_of_closingQuote? hclose
      refine ⟨body, ?_, hbody, by simp⟩
      simp [List.take_length_add_append]
    · simp [Spells, source]
  ne_lineEnd rest := by
    unfold quotedText
    split
    · simp
    · simp
  again {rest tail} h := by
    cases hclose : closingQuote? false 0 rest with
    | some n =>
      obtain ⟨body, after, rfl, hbody, rfl⟩ := quotedBody_of_closingQuote? hclose
      have htake : (body ++ '"' :: after).take (quotedText (body ++ '"' :: after)).2 =
          body ++ ['"'] := by
        simp [quotedText, hclose, List.take_length_add_append]
      rw [htake, List.append_assoc, List.singleton_append]
      simp [quotedText, hbody.closingQuote?]
    | none =>
      have hlength : (quotedText rest).2 = rest.length := by simp [quotedText, hclose]
      obtain rfl : tail = [] := h.empty (by simp [hlength])
      simp [hlength]

theorem scans_markedChar {c : Char} {mark : String} {make : Char → Token}
    (hmark : Spells [c] (.malformed mark)) (hmake : ∀ d, Spells [c, d] (make d))
    (hend : ∀ d, make d ≠ .lineEnd) : Scans c (markedChar mark make) where
  bound rest := by cases rest <;> simp [markedChar]
  spells rest := by
    cases rest with
    | nil => exact hmark
    | cons d rest => simpa [markedChar] using hmake d
  ne_lineEnd rest := by
    cases rest with
    | nil => simp [markedChar]
    | cons d rest => exact hend d
  again {rest tail} h := by
    cases rest with
    | nil =>
      obtain rfl : tail = [] := h.empty rfl
      rfl
    | cons d rest => rfl

theorem scans_hex : Scans '$' (taking isHexDigit ofHexDigits) := by
  refine scans_taking (by decide) (fun cs => ?_) fun digits => ?_
  · unfold ofHexDigits
    split
    · simp [Spells, source]
    · simp [Spells, source]
  · unfold ofHexDigits
    split
    · simp
    · simp

theorem scans_markedName {c : Char} {mark : String} {make : String → Token}
    (hmark : Spells [c] (.malformed mark))
    (hmake : ∀ name, Spells (c :: name) (make (String.ofList name)))
    (hend : ∀ name, make name ≠ .lineEnd) :
    Scans c (taking isWordChar (ofMarkedName mark make)) := by
  refine scans_taking (by decide) (fun cs => ?_) fun name => ?_
  · unfold ofMarkedName
    split
    · next h =>
      obtain rfl : cs = [] := by simpa using h
      exact hmark
    · exact hmake cs
  · unfold ofMarkedName
    split
    · simp
    · exact hend name

theorem scans_signed {sign : Char} (hop : Spells [sign] (.operator (ofSign sign))) :
    Scans sign (signed sign) := by
  have hform : signed sign = taking Char.isDigit fun digits =>
      if digits = "" then .operator (ofSign sign) else .number (String.singleton sign ++ digits) := by
    funext rest
    simp only [signed, taking]
    split
    · next h => simp [h]
    · next h => simp [h]
  rw [hform]
  refine scans_taking (by decide) (fun cs => ?_) fun digits => ?_
  · split
    · next h =>
      obtain rfl : cs = [] := by simpa using h
      exact hop
    · simp [Spells, source]
  · split
    · simp
    · simp

theorem text_of_singleOperator? {c : Char} {op : Operator} (h : singleOperator? c = some op) :
    op.text.toList = [c] := by
  unfold singleOperator? at h
  split at h
  all_goals cases h
  all_goals rfl

theorem text_of_doubleOperator? {c d : Char} {op : Operator}
    (h : doubleOperator? c d = some op) : op.text.toList = [c, d] := by
  unfold doubleOperator? at h
  split at h
  all_goals cases h
  all_goals rfl

theorem doubleOperator?_blank (c : Char) : doubleOperator? c ' ' = none := by
  unfold doubleOperator?
  split
  all_goals simp_all

/-- A character that is no operator together with the next is an operator or malformed. -/
theorem ofSingle_cases (c : Char) :
    (∃ op, singleOperator? c = some op ∧ ofSingle c = .operator op) ∨
      ofSingle c = .malformed (String.singleton c) := by
  unfold ofSingle
  split
  · next op hop => exact .inl ⟨op, hop, rfl⟩
  · exact .inr rfl

theorem scans_operatorFrom (c : Char) : Scans c (operatorFrom c) where
  bound rest := by
    unfold operatorFrom
    split
    · next op hop =>
      cases rest with
      | nil => cases hop
      | cons d rest => simp
    · exact Nat.zero_le _
  spells rest := by
    unfold operatorFrom
    split
    · next op hop =>
      cases rest with
      | nil => cases hop
      | cons d rest => exact (text_of_doubleOperator? hop).symm
    · rcases ofSingle_cases c with ⟨op, hop, hsingle⟩ | hsingle
      · simp only [hsingle]
        exact (text_of_singleOperator? hop).symm
      · simp [hsingle, Spells, source]
  ne_lineEnd rest := by
    unfold operatorFrom
    split
    · simp
    · rcases ofSingle_cases c with ⟨op, -, hsingle⟩ | hsingle
      · simp [hsingle]
      · simp [hsingle]
  again {rest tail} h := by
    cases hop : rest.head?.bind (doubleOperator? c) with
    | some op =>
      cases rest with
      | nil => cases hop
      | cons d rest =>
        have hdouble : doubleOperator? c d = some op := hop
        simp [operatorFrom, hdouble]
    | none =>
      have hzero : (operatorFrom c rest).2 = 0 := by simp only [operatorFrom, hop]
      have htail : tail.head?.bind (doubleOperator? c) = none := by
        cases tail with
        | nil => rfl
        | cons d tail =>
          obtain rfl : d = ' ' := h.head d rfl
          exact doubleOperator?_blank c
      rw [hzero, List.take_zero, List.nil_append]
      simp only [operatorFrom, hop, htail]

/-! ### The first character of a token -/

theorem mem_of_lookup {α : Type} {table : List (Char × α)} {c : Char} {a : α}
    (h : table.lookup c = some a) : (c, a) ∈ table := by
  obtain ⟨front, back, rfl, -⟩ := List.lookup_eq_some_iff.mp h
  simp

theorem scans_openers : ∀ p ∈ openers, Scans p.1 p.2.lexeme := by
  simp only [openers, List.forall_mem_cons]
  exact ⟨scans_comment, scans_quotedText,
    scans_markedChar (by rfl) (fun _ => by simp [Spells, source]) (by simp),
    scans_markedChar (by rfl) (fun _ => by simp [Spells, source]) (by simp), scans_hex,
    scans_markedName (by rfl) (fun _ => by simp [Spells, source]) (by simp),
    scans_markedName (by rfl) (fun _ => by simp [Spells, source]) (by simp),
    scans_signed (by rfl), scans_signed (by rfl), scans_operatorFrom _, scans_operatorFrom _,
    scans_operatorFrom _, scans_operatorFrom _, scans_operatorFrom _, scans_operatorFrom _,
    scans_operatorFrom _, scans_operatorFrom _, scans_operatorFrom _, by simp⟩

theorem scans_singles : ∀ p ∈ singles, Scans p.1 fun _ => (p.2, 0) := by
  intro p hp
  refine scans_single ?_ ?_
  · revert p
    simp [singles, Spells, source, Operator.text]
  · revert p
    simp [singles]

/-- **The tokens of a line are spelled out on it**: whatever the first character is, the characters
that are taken spell the token, and they are taken again in front of a blank or of nothing. -/
theorem scans_lexeme (c : Char) : Scans c (lexeme c) := by
  cases hopen : openers.lookup c with
  | some mode =>
    have hform : lexeme c = mode.lexeme := by funext rest; simp only [lexeme, hopen]
    rw [hform]
    exact scans_openers (c, mode) (mem_of_lookup hopen)
  | none =>
    cases hsingle : singles.lookup c with
    | some token =>
      have hform : lexeme c = fun _ => (token, 0) := by
        funext rest
        simp only [lexeme, hopen, hsingle]
      rw [hform]
      exact scans_singles (c, token) (mem_of_lookup hsingle)
    | none =>
      show Scans c fun rest => lexeme c rest
      simp only [lexeme, hopen, hsingle]
      by_cases hdigit : c.isDigit
      · simp only [hdigit, if_true]
        exact scans_taking (by decide) (fun _ => by simp [Spells, source]) (by simp)
      · by_cases hword : isWordStart c
        · simp only [hdigit, Bool.false_eq_true, if_false, hword, if_true]
          exact scans_taking (by decide) (fun _ => by simp [Spells, source]) (by simp)
        · simp only [hdigit, hword, Bool.false_eq_true, if_false]
          exact scans_single (by simp [Spells, source]) (by simp)

/-- The source of a text is read as the text, wherever it stands. -/
theorem lexeme_source_text (content : String) (tail : List Char) :
    lexeme '"' (escaped content.toList ++ '"' :: tail) =
      (.text content, (escaped content.toList).length + 1) := by
  show quotedText _ = _
  simp [quotedText, (quotedBody_escaped _).closingQuote?, unescaped_escaped]

end StackAsm.Token
