import StackAsm.Expansion
import StackAsm.Proofs.Effects
import StackAsm.Proofs.Expression.Steps

/-!
# Expansion line by line

The tokens of a file are expanded one after the other: each is looked at where it stands, an
expression takes up as many tokens as it needs, and a directive the rest of its line. Nothing of
this runs over the end of a line, for an expression that is not closed there has failed. So the
tokens can as well be cut into lines first, each of which is then a directive or tokens to be
emitted (`sourceLines`), and the lines be expanded one after the other (`expandLines`). This is what
expansion does, as far as anything can tell (`expandTokens_eq`), and what it is taken for from here
on.
-/

namespace StackAsm.Expansion

/-! ### The lines of a source -/

/-- Adds a token in front of lines; each line but the last closes with its end. -/
def consToken (token : Located Token) (lines : List (List (Located Token))) :
    List (List (Located Token)) :=
  match token.value, lines with
  | .lineEnd, lines => [token] :: lines
  | _, [] => [[token]]
  | _, line :: lines => (token :: line) :: lines

/-- The lines of a sequence of tokens. -/
def tokenLines (tokens : List (Located Token)) : List (List (Located Token)) :=
  tokens.foldr consToken []

/-- The tokens fall into lines: each but the last has its end, and has it nowhere else. -/
inductive Splits : List (Located Token) → List (List (Located Token)) → Prop where
  | nil : Splits [] []
  | last {line : List (Located Token)} :
      line ≠ [] → (∀ token ∈ line, token.value ≠ .lineEnd) → Splits line [line]
  | cons {line tokens : List (Located Token)} {lines : List (List (Located Token))}
      (loc : Option Location) : (∀ token ∈ line, token.value ≠ .lineEnd) → Splits tokens lines →
      Splits (line ++ ⟨loc, .lineEnd⟩ :: tokens) ((line ++ [⟨loc, .lineEnd⟩]) :: lines)

theorem consToken_of_ne_lineEnd {token : Located Token} (h : token.value ≠ .lineEnd)
    (lines : List (List (Located Token))) :
    consToken token lines = (token :: lines.headD []) :: lines.tail := by
  unfold consToken
  split
  · exact absurd ‹_› h
  · rfl
  · rfl

theorem Splits.consToken {tokens : List (Located Token)} {lines : List (List (Located Token))}
    (token : Located Token) (h : Splits tokens lines) :
    Splits (token :: tokens) (consToken token lines) := by
  by_cases hend : token.value = .lineEnd
  · obtain ⟨loc, value⟩ := token
    obtain rfl : value = .lineEnd := hend
    exact @Splits.cons [] tokens lines loc (by simp) h
  · rw [consToken_of_ne_lineEnd hend]
    cases h with
    | nil => exact .last (by simp) (by simpa using hend)
    | last _ hline => exact .last (by simp) (List.forall_mem_cons.mpr ⟨hend, hline⟩)
    | cons loc hline hrest => exact .cons loc (List.forall_mem_cons.mpr ⟨hend, hline⟩) hrest

theorem splits_tokenLines (tokens : List (Located Token)) : Splits tokens (tokenLines tokens) := by
  induction tokens with
  | nil => exact .nil
  | cons token tokens ih => exact ih.consToken token

/-- A line of a source. -/
inductive Line where
  | directive (line : DirectiveLine)
  /-- Tokens to be emitted, with the end of the line. -/
  | content (tokens : List (Located Token))
  deriving DecidableEq, Repr

/-- The line that is made of the tokens. -/
def Line.ofTokens : List (Located Token) → Line
  | ⟨loc, .preDirective name⟩ :: rest =>
    .directive ⟨loc, Text.lowercase name, directiveArguments rest⟩
  | tokens => .content tokens

/-- The lines of a source. -/
def sourceLines (tokens : List (Located Token)) : List Line :=
  (tokenLines tokens).map .ofTokens

/-! ### Expanding lines -/

/-- Emits a token inside of a line, where no directive may stand. -/
def emitInLine (token : Located Token) : Expand Unit :=
  match token.value with
  | .preDirective name => throw (token.withValue (.midLineDirective name))
  | _ => emitToken token

/-- Emits the tokens of a line. -/
def emitTokens (tokens : List (Located Token)) : Expand Unit :=
  match tokens with
  | [] => return
  | token :: rest => do
    if token.value = .parenOpen then
      let (value, n) ← evaluate token rest
      emitConstant token.loc value
      emitTokens (rest.drop n)
    else
      emitInLine token
      emitTokens rest
termination_by tokens.length
decreasing_by all_goals simp; try omega

/-- Passes over the tokens of a line in an inactive branch; a directive may not stand among
them. -/
def skipTokens : List (Located Token) → Expand Unit
  | [] => return
  | token :: rest =>
    match token.value with
    | .preDirective name => throw (token.withValue (.midLineDirective name))
    | _ => skipTokens rest

/-- Expands a line. -/
def expandLine (splice : Option Location → String → Expand Unit) (frames : Frames) :
    Line → Expand Frames
  | .directive line => line.run splice frames
  | .content tokens => do
    if frames.isActive then emitTokens tokens else skipTokens tokens
    return frames

/-- Expands lines one after the other. -/
def expandLines (splice : Option Location → String → Expand Unit) (frames : Frames) :
    List Line → Expand Frames
  | [] => return frames
  | line :: lines => do
    let frames ← expandLine splice frames line
    expandLines splice frames lines

/-! ### Tokens of one line -/

variable {splice : Option Location → String → Expand Unit} {frames : Frames} {s s' : State}

theorem emitInLine_of_ne {token : Located Token}
    (h : ∀ name, token.value ≠ .preDirective name) : emitInLine token = emitToken token := by
  unfold emitInLine
  split
  · exact absurd ‹_› (h _)
  · rfl

theorem emitInLine_eq_ok {token : Located Token} {a : Unit} (h : emitInLine token s = .ok a s') :
    (∀ name, token.value ≠ .preDirective name) ∧ emitToken token s = .ok a s' := by
  by_cases hdirective : ∃ name, token.value = .preDirective name
  · obtain ⟨name, hname⟩ := hdirective
    rw [emitInLine, hname] at h
    cases h
  · have hne := not_exists.mp hdirective
    exact ⟨hne, emitInLine_of_ne hne ▸ h⟩

theorem evaluate_eq_ok {opening : Located Token} {tokens : List (Located Token)}
    {p : Constant × Nat} (h : evaluate opening tokens s = .ok p s') :
    Expression.evaluate s.constants opening.loc tokens = (.ok p.1, p.2) := by
  obtain ⟨_, _, hget, h⟩ := estate_bind_eq_ok.mp h
  cases hget
  generalize hresult : Expression.evaluate s.constants opening.loc tokens = outcome at h
  obtain ⟨result, n⟩ := outcome
  cases result with
  | error e => cases h
  | ok value =>
    cases h
    rfl

/-- What closes a line, and what comes after it: the last line of a file may have no end. -/
inductive Closes : List (Located Token) → List (Located Token) → Prop where
  | ended (loc : Option Location) (more : List (Located Token)) : Closes [⟨loc, .lineEnd⟩] more
  | last : Closes [] []

section

variable {token : Located Token} {line rest closing more : List (Located Token)}
  {last : Option Token}

/-- An expression sees nothing behind the line. -/
theorem evaluate_line (hclosing : Closes closing more) (opening : Located Token) :
    evaluate opening (rest ++ (closing ++ more)) = evaluate opening (rest ++ closing) := by
  cases hclosing with
  | last => rfl
  | ended loc =>
    have hvalue (constants : Table Constant) (s : Expression.State) (n : Nat) :
        Expression.evaluateFrom constants opening.loc s n (rest ++ ⟨loc, .lineEnd⟩ :: more) =
          Expression.evaluateFrom constants opening.loc s n (rest ++ [⟨loc, .lineEnd⟩]) := by
      induction rest generalizing s n with
      | nil => rfl
      | cons token rest ih =>
        simp only [List.cons_append, Expression.evaluateFrom, ih]
    unfold evaluate Expression.evaluate
    simp only [List.singleton_append, hvalue]

/-- Tokens that do not reach up to the last one leave some words and the last one. -/
theorem exists_eq_append_of_notMem {words taken left : List (Located Token)} {last : Located Token}
    (h : words ++ [last] = taken ++ left) (hlast : last ∉ taken) :
    ∃ words', words = taken ++ words' ∧ left = words' ++ [last] := by
  rcases List.append_eq_append_iff.mp h with ⟨gap, rfl, hgap⟩ | ⟨words', rfl, rfl⟩
  · cases gap with
    | nil => exact ⟨[], by simp, hgap.symm⟩
    | cons token gap =>
      obtain ⟨rfl, -⟩ := List.cons.inj hgap
      simp at hlast
  · exact ⟨words', rfl, rfl⟩

/-- An expression takes up no end of a line. -/
theorem exists_rest_of_evaluate (hclosing : Closes closing more) {p : Constant × Nat}
    (h : evaluate token (rest ++ closing) s = .ok p s') :
    ∃ taken left, rest = taken ++ left ∧ taken.length = p.2 ∧
      ∀ token ∈ taken, token.value ≠ .lineEnd := by
  obtain ⟨taken, left, heq, hlength, htaken⟩ := Expression.taken_of_evaluate (evaluate_eq_ok h)
  have hends (token : Located Token) (hmem : token ∈ taken) : token.value ≠ .lineEnd :=
    (htaken token hmem).1
  cases hclosing with
  | last => exact ⟨taken, left, by simpa using heq, hlength, hends⟩
  | ended loc =>
    have hlast : ⟨loc, .lineEnd⟩ ∉ taken := fun hmem => hends _ hmem rfl
    obtain ⟨words, hrest, -⟩ := exists_eq_append_of_notMem heq hlast
    exact ⟨taken, words, hrest, hlength, hends⟩

/-- Behind tokens that end no line, none starts. -/
theorem all_getElem?_taken {taken : List (Located Token)}
    (h : ∀ other ∈ token :: taken, other.value ≠ .lineEnd) (left : List (Located Token)) :
    ((token :: (taken ++ left))[taken.length]?.map (·.value)).all (· = .lineEnd) = false := by
  have hlt : taken.length < (token :: taken).length := Nat.lt_succ_self _
  rw [← List.cons_append, List.getElem?_append_left hlt, List.getElem?_eq_getElem hlt]
  simpa using h _ (List.getElem_mem hlt)

/-! One step of the expansion, by the token that it looks at. -/

theorem expandFrom_nil : expandFrom splice frames last [] = pure frames := by rw [expandFrom]

theorem expandFrom_directive {loc : Option Location} {name : String}
    (hlast : last.all (· = .lineEnd) = true) :
    expandFrom splice frames last (⟨loc, .preDirective name⟩ :: rest) = (do
      let line : DirectiveLine := ⟨loc, Text.lowercase name, directiveArguments rest⟩
      let frames ← line.run splice frames
      expandFrom splice frames (some .lineEnd) (afterLine rest)) := by
  rw [expandFrom]
  exact if_pos hlast

theorem expandFrom_midLine {loc : Option Location} {name : String}
    (hlast : last.all (· = .lineEnd) = false) :
    expandFrom splice frames last (⟨loc, .preDirective name⟩ :: rest) =
      throw ⟨loc, .midLineDirective name⟩ := by
  rw [expandFrom]
  exact if_neg (by simp [hlast])

theorem expandFrom_expression (hopen : token.value = .parenOpen)
    (hactive : frames.isActive = true) :
    expandFrom splice frames last (token :: rest) = (do
      let (value, n) ← evaluate token rest
      emitConstant token.loc value
      expandFrom splice frames ((token :: rest)[n]?.map (·.value)) (rest.drop n)) := by
  rw [expandFrom, hopen]
  simp [hactive, emitNext, hopen]

theorem expandFrom_token (hne : ∀ name, token.value ≠ .preDirective name)
    (hopen : token.value ≠ .parenOpen) (hactive : frames.isActive = true) :
    expandFrom splice frames last (token :: rest) = (do
      emitToken token
      expandFrom splice frames (some token.value) rest) := by
  rw [expandFrom]
  split
  · exact absurd ‹_› (hne _)
  · simp [hactive, emitNext, hopen]

theorem expandFrom_skip (hne : ∀ name, token.value ≠ .preDirective name)
    (hactive : frames.isActive = false) :
    expandFrom splice frames last (token :: rest) =
      expandFrom splice frames (some token.value) rest := by
  rw [expandFrom]
  split
  · exact absurd ‹_› (hne _)
  · exact if_neg (by simp [hactive])

/-- An expression is emitted, and then what is left of its line. -/
theorem expandFrom_emitExpression (hclosing : Closes closing more)
    (hline : ∀ other ∈ token :: rest, other.value ≠ .lineEnd) (hopen : token.value = .parenOpen)
    (hactive : frames.isActive = true)
    (hleft : ∀ left next, left <:+ rest → Option.all (· = .lineEnd) next = false →
      expandFrom splice frames next (left ++ (closing ++ more)) = (do
        emitTokens (left ++ closing)
        expandFrom splice frames (some .lineEnd) more)) :
    expandFrom splice frames last (token :: (rest ++ (closing ++ more))) = (do
      emitTokens (token :: (rest ++ closing))
      expandFrom splice frames (some .lineEnd) more) := by
  rw [expandFrom_expression hopen hactive, emitTokens, if_pos hopen, evaluate_line hclosing,
    bind_assoc]
  funext s
  cases hvalue : evaluate token (rest ++ closing) s with
  | error e s₁ => simp only [Bind.bind, EStateM.bind, hvalue]
  | ok p s₁ =>
    obtain ⟨taken, left, rfl, hlength, hends⟩ := exists_rest_of_evaluate hclosing hvalue
    obtain ⟨value, n⟩ := p
    subst hlength
    obtain ⟨htoken, -⟩ := List.forall_mem_cons.mp hline
    have hnext := all_getElem?_taken (List.forall_mem_cons.mpr ⟨htoken, hends⟩)
      (left ++ (closing ++ more))
    rw [estate_bind_of_ok hvalue, estate_bind_of_ok hvalue]
    simp only [List.append_assoc, List.drop_left, hleft left _ (List.suffix_append _ _) hnext,
      bind_assoc]

theorem expandFrom_emitClosing (hclosing : Closes closing more) (hactive : frames.isActive = true) :
    expandFrom splice frames last (closing ++ more) = (do
      emitTokens closing
      expandFrom splice frames (some .lineEnd) more) := by
  cases hclosing with
  | last => rw [List.append_nil, emitTokens, expandFrom_nil, expandFrom_nil, pure_bind]
  | ended loc =>
    rw [List.singleton_append, expandFrom_token (by simp) (by simp) hactive, emitTokens,
      if_neg (by simp), emitInLine_of_ne (by simp), emitTokens]
    simp

/-- The tokens of a line that starts with no directive are emitted. -/
theorem expandFrom_emitTokens (hclosing : Closes closing more)
    (hline : ∀ token ∈ line, token.value ≠ .lineEnd)
    (hstart : last.all (· = .lineEnd) = true →
      ∀ token ∈ line.head?, ∀ name, token.value ≠ .preDirective name)
    (hactive : frames.isActive = true) :
    expandFrom splice frames last (line ++ (closing ++ more)) = (do
      emitTokens (line ++ closing)
      expandFrom splice frames (some .lineEnd) more) := by
  -- an expression leaves any part of the line
  induction hlength : line.length using Nat.strongRecOn generalizing line last with
  | ind length ih =>
    cases line with
    | nil => exact expandFrom_emitClosing hclosing hactive
    | cons token rest =>
      have hleft (left : List (Located Token)) (next : Option Token) (hsuffix : left <:+ rest)
          (hnext : next.all (· = .lineEnd) = false) :
          expandFrom splice frames next (left ++ (closing ++ more)) = (do
            emitTokens (left ++ closing)
            expandFrom splice frames (some .lineEnd) more) := by
        have hlt : left.length < length := hlength ▸ Nat.lt_succ_of_le hsuffix.length_le
        refine ih left.length hlt (fun other hother => ?_) (fun hstarts => ?_) rfl
        · exact hline other (List.mem_cons_of_mem _ (hsuffix.subset hother))
        · exact absurd hstarts (Bool.eq_false_iff.mp hnext)
      simp only [List.cons_append]
      by_cases hdirective : ∃ name, token.value = .preDirective name
      · obtain ⟨loc, value⟩ := token
        obtain ⟨name, rfl⟩ := hdirective
        have hlast : last.all (· = .lineEnd) = false :=
          Bool.eq_false_iff.mpr fun hlast => hstart hlast _ rfl name rfl
        rw [expandFrom_midLine hlast, emitTokens, if_neg (by simp)]
        rfl
      · by_cases hopen : token.value = .parenOpen
        · exact expandFrom_emitExpression hclosing hline hopen hactive hleft
        · have hne := not_exists.mp hdirective
          have htoken := (List.forall_mem_cons.mp hline).1
          rw [expandFrom_token hne hopen hactive, emitTokens, if_neg hopen, emitInLine_of_ne hne,
            hleft rest _ List.suffix_rfl (by simpa using htoken)]
          simp

/-- The tokens of a line that starts with no directive are passed over. -/
theorem expandFrom_skipTokens (hclosing : Closes closing more)
    (hline : ∀ token ∈ line, token.value ≠ .lineEnd)
    (hstart : last.all (· = .lineEnd) = true →
      ∀ token ∈ line.head?, ∀ name, token.value ≠ .preDirective name)
    (hactive : frames.isActive = false) :
    expandFrom splice frames last (line ++ (closing ++ more)) = (do
      skipTokens (line ++ closing)
      expandFrom splice frames (some .lineEnd) more) := by
  induction line generalizing last with
  | nil =>
    cases hclosing with
    | last =>
      change expandFrom splice frames last [] = pure () >>= _
      rw [expandFrom_nil, expandFrom_nil, pure_bind]
    | ended loc => exact expandFrom_skip (by simp) hactive
  | cons token rest ih =>
    obtain ⟨htoken, hrest⟩ := List.forall_mem_cons.mp hline
    obtain ⟨loc, value⟩ := token
    have hother : (some value).all (· = .lineEnd) = false := by simpa using htoken
    have hnext := ih hrest fun hstarts => absurd hstarts (Bool.eq_false_iff.mp hother)
    simp only [List.cons_append]
    cases value with
    | preDirective name =>
      have hlast : last.all (· = .lineEnd) = false :=
        Bool.eq_false_iff.mpr fun hlast => hstart hlast _ rfl name rfl
      rw [expandFrom_midLine hlast]
      rfl
    | _ =>
      rw [expandFrom_skip (by simp) hactive]
      exact hnext

/-! ### All lines -/

theorem directiveArguments_line (hclosing : Closes closing more) :
    directiveArguments (rest ++ (closing ++ more)) = directiveArguments (rest ++ closing) := by
  have htake : (rest ++ (closing ++ more)).takeWhile (·.value ≠ .lineEnd) =
      (rest ++ closing).takeWhile (·.value ≠ .lineEnd) := by
    cases hclosing with
    | last => rfl
    | ended loc =>
      induction rest with
      | nil => rfl
      | cons token rest ih =>
        rw [List.cons_append, List.takeWhile_cons, ih, List.cons_append, List.takeWhile_cons]
  rw [directiveArguments, directiveArguments, htake]

theorem afterLine_line (hclosing : Closes closing more)
    (hline : ∀ token ∈ line, token.value ≠ .lineEnd) :
    afterLine (line ++ (closing ++ more)) = more := by
  rw [afterLine, List.dropWhile_append_of_pos (by simpa using hline)]
  cases hclosing with
  | last => rfl
  | ended loc => simp

/-- A line is expanded, and then what comes after it. -/
theorem expandFrom_line (hclosing : Closes closing more)
    (hline : ∀ token ∈ line, token.value ≠ .lineEnd) (hlast : last.all (· = .lineEnd) = true) :
    expandFrom splice frames last (line ++ (closing ++ more)) = (do
      let frames ← expandLine splice frames (.ofTokens (line ++ closing))
      expandFrom splice frames (some .lineEnd) more) := by
  by_cases hdirective : ∃ loc name rest, line = ⟨loc, .preDirective name⟩ :: rest
  · obtain ⟨loc, name, rest, rfl⟩ := hdirective
    have hrest := (List.forall_mem_cons.mp hline).2
    simp only [List.cons_append]
    rw [expandFrom_directive hlast, afterLine_line hclosing hrest, directiveArguments_line hclosing]
    rfl
  · have hstart : ∀ token ∈ line.head?, ∀ name, token.value ≠ .preDirective name := by
      rintro ⟨loc, value⟩ hhead name rfl
      obtain ⟨rest, rfl⟩ := List.head?_eq_some_iff.mp hhead
      exact hdirective ⟨loc, name, rest, rfl⟩
    have hcontent : Line.ofTokens (line ++ closing) = .content (line ++ closing) := by
      cases line with
      | nil => cases hclosing <;> rfl
      | cons token rest =>
        obtain ⟨loc, value⟩ := token
        cases value with
        | preDirective name => exact absurd ⟨loc, name, rest, rfl⟩ hdirective
        | _ => rfl
    rw [hcontent, expandLine]
    cases hactive : frames.isActive with
    | true =>
      rw [expandFrom_emitTokens hclosing hline (fun _ => hstart) hactive]
      simp
    | false =>
      rw [expandFrom_skipTokens hclosing hline (fun _ => hstart) hactive]
      simp

theorem expandFrom_eq_expandLines {tokens : List (Located Token)}
    {lines : List (List (Located Token))} (h : Splits tokens lines)
    (hlast : last.all (· = .lineEnd) = true) :
    expandFrom splice frames last tokens = expandLines splice frames (lines.map .ofTokens) := by
  induction h generalizing frames last with
  | nil => exact expandFrom_nil
  | @last line hne hline =>
    have hfirst : expandFrom splice frames last (line ++ ([] ++ [])) = _ :=
      expandFrom_line .last hline hlast
    simp only [List.append_nil, expandFrom_nil] at hfirst
    exact hfirst
  | @cons line tokens lines loc hline _ ih =>
    have hrest (frames : Frames) :
        expandFrom splice frames (some .lineEnd) tokens = _ := ih rfl
    refine (expandFrom_line (.ended loc tokens) hline hlast).trans ?_
    simp only [hrest]
    rfl

end

/-- **The tokens of a file are expanded line by line.** -/
theorem expandTokens_eq (splice : Option Location → String → Expand Unit)
    (tokens : List (Located Token)) :
    expandTokens splice tokens = expandLines splice [] (sourceLines tokens) >>= expectClosed := by
  rw [expandTokens, expandFrom_eq_expandLines (splits_tokenLines tokens) rfl, sourceLines]

end StackAsm.Expansion
