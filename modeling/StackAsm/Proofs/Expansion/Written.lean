import StackAsm.Proofs.Expansion.Emission
import StackAsm.Proofs.Expansion.LineStart

/-!
# What is written in a file

Where things stand makes no difference to the items and constants of an expansion, and neither do
lines with nothing on them. So of a file it matters only what is written in it (`written`): its
lines that are not blank, wherever they stand. What is kept by the lines of a file is kept by the
file, and files in a table are expanded as what is written in them.
-/

namespace StackAsm.Expansion

variable {s s' t t' : State}

/-! ### Other places -/

/-- Any two places. -/
def anywhere (_ _ : Option Location) : Prop := True

/-- The states have the same constants and, wherever they stand, the same items. -/
structure State.Agrees (s t : State) : Prop where
  constants : s.constants = t.constants
  items : s.items.map (·.value) = t.items.map (·.value)

namespace State.Agrees

theorem refl (s : State) : s.Agrees s := ⟨rfl, rfl⟩

theorem symm (h : s.Agrees t) : t.Agrees s := ⟨h.constants.symm, h.items.symm⟩

theorem trans {u : State} (h : s.Agrees t) (h' : t.Agrees u) : s.Agrees u :=
  ⟨h.constants.trans h'.constants, h.items.trans h'.items⟩

theorem atLineStart_eq (h : s.Agrees t) : s.atLineStart = t.atLineStart := by
  have hback : s.items.back?.map (·.value) = t.items.back?.map (·.value) := by
    rw [← Array.back?_map, ← Array.back?_map, h.items]
  unfold State.atLineStart
  cases hs : s.items.back? with
  | none =>
    rw [hs] at hback
    rw [Option.map_eq_none_iff.mp hback.symm]
  | some item =>
    rw [hs] at hback
    obtain ⟨item', ht, hvalue⟩ := Option.map_eq_some_iff.mp hback.symm
    rw [ht]
    dsimp only
    rw [hvalue]

end State.Agrees

/-- Two expansions with the same outcome, wherever it stands. -/
def elsewhere : Correspondence where
  state := State.Agrees
  place := anywhere
  failed _ _ _ := True
  constants_eq h := h.constants
  revalued _ h := ⟨rfl, h.items⟩
  reported _ h := ⟨h.constants, h.items⟩
  thrown _ _ := trivial
  free _ _ := trivial

theorem emits_elsewhere : elsewhere.Emits where
  emitted {s t item item'} h hitem _ _ := by
    refine ⟨h.constants, ?_⟩
    show (s.items.push item).map (·.value) = (t.items.push item').map (·.value)
    rw [Array.map_push, Array.map_push, h.items, hitem.value]
  ended {s t loc loc'} h _ := by
    unfold State.endLine
    rw [← State.Agrees.atLineStart_eq h]
    split
    · exact h
    · refine ⟨h.constants, ?_⟩
      show (s.items.push _).map (·.value) = (t.items.push _).map (·.value)
      rw [Array.map_push, Array.map_push, h.items]

theorem alike_anywhere {tokens tokens' : List (Located Token)}
    (h : tokens.map (·.value) = tokens'.map (·.value)) :
    List.Forall₂ (Located.Alike anywhere) tokens tokens' := by
  rw [← List.forall₂_eq_eq_eq, List.forall₂_map_left_iff, List.forall₂_map_right_iff] at h
  exact h.imp fun _ _ hvalue => ⟨trivial, hvalue⟩

/-! ### The lines of a text -/

/-- The tokens of a text, standing nowhere. -/
def unplacedTokens (cs : List Char) : List (Located Token) :=
  ((Token.lines cs).flatMap fun line => Token.lexemes line ++ [.lineEnd]).map .nowhere

/-- The line of these characters, standing nowhere. -/
def Line.unplaced (cs : List Char) : Line :=
  .ofTokens ((Token.lexemes cs ++ [Token.lineEnd]).map .nowhere)

/-- What is written in a text: its lines with something on them. -/
def written (cs : List Char) : List Line :=
  ((Token.filled cs).map .unplaced).filter (!·.isBlank)

theorem tokenLines_append_lineEnd {tokens : List (Located Token)}
    (h : ∀ token ∈ tokens, token.value ≠ .lineEnd) (loc : Option Location)
    (rest : List (Located Token)) :
    tokenLines (tokens ++ ⟨loc, .lineEnd⟩ :: rest) =
      (tokens ++ [⟨loc, .lineEnd⟩]) :: tokenLines rest := by
  induction tokens with
  | nil => rfl
  | cons token tokens ih =>
    obtain ⟨htoken, htokens⟩ := List.forall_mem_cons.mp h
    have hfold : tokenLines (token :: (tokens ++ ⟨loc, .lineEnd⟩ :: rest)) =
        consToken token (tokenLines (tokens ++ ⟨loc, .lineEnd⟩ :: rest)) := rfl
    rw [List.cons_append, hfold, ih htokens, consToken_of_ne_lineEnd htoken]
    rfl

/-- Tokens in groups that each close with the end of a line have these groups as lines. -/
theorem tokenLines_flatten {groups : List (List (Located Token))}
    (h : ∀ group ∈ groups, ∃ words loc, group = words ++ [⟨loc, .lineEnd⟩] ∧
      ∀ token ∈ words, token.value ≠ .lineEnd) : tokenLines groups.flatten = groups := by
  induction groups with
  | nil => rfl
  | cons group groups ih =>
    obtain ⟨⟨words, loc, rfl, hwords⟩, hrest⟩ := List.forall_mem_cons.mp h
    rw [List.flatten_cons, List.append_assoc, List.singleton_append,
      tokenLines_append_lineEnd hwords, ih hrest]

/-- The tokens form the lines that they are read from. -/
theorem sourceLines_unplacedTokens (cs : List Char) :
    sourceLines (unplacedTokens cs) = (Token.lines cs).map .unplaced := by
  have hgroups : unplacedTokens cs = ((Token.lines cs).map fun line =>
      (Token.lexemes line ++ [Token.lineEnd]).map Located.nowhere).flatten := by
    rw [unplacedTokens, List.map_flatMap, List.flatMap_def]
  rw [sourceLines, hgroups, tokenLines_flatten, List.map_map]
  · rfl
  · rw [List.forall_mem_map]
    intro line _
    refine ⟨(Token.lexemes line).map .nowhere, none, by simp [Located.nowhere], ?_⟩
    rw [List.forall_mem_map]
    intro value hvalue
    exact Token.ne_lineEnd_of_mem_lexemes hvalue

theorem Ended.ofTokens {tokens : List (Located Token)} (h : Ended tokens) :
    (Line.ofTokens tokens).Ended := by
  unfold Line.ofTokens
  split
  · trivial
  · exact h

theorem ended_unplaced (cs : List Char) : (Line.unplaced cs).Ended := by
  refine Ended.ofTokens ⟨.nowhere .lineEnd, ?_, rfl⟩
  simp

theorem ended_written {cs : List Char} {line : Line} (h : line ∈ written cs) : line.Ended := by
  obtain ⟨line, -, rfl⟩ := List.mem_map.mp (List.mem_of_mem_filter h)
  exact ended_unplaced line

/-- Empty lines are blank. -/
theorem filter_unplaced (cs : List Char) :
    ((Token.lines cs).map Line.unplaced).filter (!·.isBlank) = written cs := by
  have hempty : (Line.unplaced []).isBlank = true := by
    rw [Line.unplaced, Token.lexemes_nil]
    rfl
  rw [written, Token.filled, List.filter_map, List.filter_map, List.filter_filter]
  congr 1
  refine List.filter_congr fun line _ => ?_
  cases line with
  | nil => simp [hempty]
  | cons c rest => simp

/-- From the start of a line, it is enough to expand what is written. -/
theorem expandLines_written {splice : Option Location → String → Expand Unit}
    (hsplice : ∀ loc name, Starts (splice loc name)) {frames : Frames} {cs : List Char}
    (hs : s.atLineStart = true) :
    expandLines splice frames (written cs) s =
      expandLines splice frames ((Token.lines cs).map .unplaced) s := by
  rw [← filter_unplaced]
  exact expandLines_filter hsplice (List.forall_mem_map.mpr fun line _ => ended_unplaced line) hs

/-- No token of the text is malformed. -/
def Lexed (cs : List Char) : Prop :=
  ∀ line ∈ Token.filled cs, ∀ token ∈ Token.lexemes line, token.isLexicalError = false

theorem find?_unplacedTokens {cs : List Char} :
    (unplacedTokens cs).find? (·.value.isLexicalError) = none ↔ Lexed cs := by
  simp only [unplacedTokens, List.find?_eq_none, List.forall_mem_map, Located.nowhere,
    Bool.not_eq_true]
  constructor
  · intro h line hline token htoken
    refine h token (List.mem_flatMap.mpr ⟨line, List.mem_of_mem_filter hline, ?_⟩)
    exact List.mem_append_left _ htoken
  · intro h token htoken
    obtain ⟨line, hline, htoken⟩ := List.mem_flatMap.mp htoken
    rcases List.mem_append.mp htoken with hlexeme | hend
    · refine h line (List.mem_filter.mpr ⟨hline, ?_⟩) token hlexeme
      -- an empty line has no tokens
      refine decide_eq_true fun hempty => ?_
      rw [hempty, Token.lexemes_nil] at hlexeme
      cases hlexeme
    · rw [List.mem_singleton.mp hend]
      rfl

theorem expandTokens_eq_ok_iff {splice : Option Location → String → Expand Unit}
    {tokens : List (Located Token)} :
    expandTokens splice tokens s = .ok () s' ↔
      expandLines splice [] (sourceLines tokens) s = .ok [] s' := by
  rw [expandTokens_eq]
  constructor
  · intro h
    obtain ⟨frames, s₁, hlines, h⟩ := estate_bind_eq_ok.mp h
    cases frames with
    | nil =>
      cases h
      exact hlines
    | cons frame frames => cases h
  · intro h
    rw [estate_bind_of_ok h]
    rfl

theorem expandChecked_eq_ok_iff {splice : Option Location → String → Expand Unit}
    {tokens : List (Located Token)} :
    expandChecked splice tokens s = .ok () s' ↔
      tokens.find? (·.value.isLexicalError) = none ∧
      expandLines splice [] (sourceLines tokens) s = .ok [] s' := by
  rw [← expandTokens_eq_ok_iff]
  constructor
  · intro h
    obtain ⟨_, s₁, hlexed, hexpand⟩ := estate_bind_eq_ok.mp h
    obtain ⟨hfind, rfl⟩ := expectLexed_eq_ok.mp hlexed
    exact ⟨hfind, hexpand⟩
  · rintro ⟨hfind, h⟩
    rw [expandChecked, estate_bind_of_ok (expectLexed_eq_ok.mpr ⟨hfind, rfl⟩), h]

/-- From the start of a line, a text is expanded like what is written in it. -/
theorem expandChecked_unplacedTokens {splice : Option Location → String → Expand Unit}
    (hsplice : ∀ loc name, Starts (splice loc name)) {cs : List Char}
    (hs : s.atLineStart = true) :
    expandChecked splice (unplacedTokens cs) s = .ok () s' ↔
      Lexed cs ∧ expandLines splice [] (written cs) s = .ok [] s' := by
  rw [expandChecked_eq_ok_iff, find?_unplacedTokens, expandLines_written hsplice hs,
    sourceLines_unplacedTokens]

/-! ### What files keep -/

theorem map_value_unplacedTokens (file : Nat) (text : String) :
    (Token.tokenize file text).map (·.value) = (unplacedTokens text.toList).map (·.value) := by
  simp [Token.map_value_tokenize, unplacedTokens, Located.nowhere, Function.comp_def]

/-- The tokens that a file emits line by line are those of its lines. -/
theorem exists_lineTokens_of_content {file : Nat} {text : String} {tokens : List (Located Token)}
    (h : .content tokens ∈ sourceLines (Token.tokenize file text)) :
    ∃ k cs, (Token.lines text.toList)[k]? = some cs ∧
      tokens = Token.lineTokens file (k + 1) cs := by
  have hlines : tokenLines (Token.tokenize file text) =
      (Token.lines text.toList).zipIdx.map fun p => Token.lineTokens file (p.2 + 1) p.1 := by
    rw [Token.tokenize_eq, List.flatMap_def, tokenLines_flatten]
    rw [List.forall_mem_map]
    intro p _
    obtain ⟨words, htokens, hwords⟩ := (Token.covers_lineTokens file (p.2 + 1) p.1).ended
    exact ⟨words, _, htokens, hwords⟩
  rw [sourceLines, hlines, List.map_map] at h
  obtain ⟨⟨cs, k⟩, hp, hline⟩ := List.mem_map.mp h
  refine ⟨k, cs, List.mk_mem_zipIdx_iff_getElem?.mp hp, ?_⟩
  simp only [Function.comp_apply] at hline
  unfold Line.ofTokens at hline
  split at hline
  · cases hline
  · cases hline
    rfl

/-- A file that is found is numbered and announced, and then its tokens are expanded. -/
theorem expandWithin_of_load {provider : Provider} {including : Option String} {name : String}
    {source : Source} (h : provider.load s.queries ⟨including, name⟩ = .ok source) (depth : Nat)
    (loc : Option Location) : ∃ file files,
      expandWithin provider including (depth + 1) loc name s =
        expandChecked (expandWithin provider (some source.name) depth)
          (Token.tokenize file source.text)
          { s with
            files, queries := ⟨including, name⟩ :: s.queries,
            events := s.events.push (.loading source.name file) } := by
  obtain ⟨file, files, -, -, heq⟩ := expandSource_apply
    (expandWithin provider (some source.name) depth) source
    { s with queries := ⟨including, name⟩ :: s.queries }
  rw [expandWithin_succ, h]
  exact ⟨file, files, heq⟩

/-- A file keeps what the tokens of its lines keep, and so do the files that it includes. -/
theorem keeps_expandWithin {I : State → Prop} (hI : OfItems I)
    (hemit : ∀ cs tokens, tokens.map (·.value) = Token.lexemes cs ++ [.lineEnd] →
      Keeps I (emitTokens tokens))
    (provider : Provider) (including : Option String) (depth : Nat) (loc : Option Location)
    (name : String) : Keeps I (expandWithin provider including depth loc name) := by
  induction depth generalizing including loc name with
  | zero => nofun
  | succ depth ih =>
    intro s _ s' hs hrun
    cases hload : provider.load s.queries ⟨including, name⟩ with
    | error reason =>
      rw [expandWithin_succ, hload] at hrun
      cases hrun
    | ok source =>
      obtain ⟨file, files, heq⟩ := expandWithin_of_load hload depth loc
      rw [heq] at hrun
      obtain ⟨-, hlines⟩ := expandChecked_eq_ok_iff.mp hrun
      refine keeps_expandLines hI.indifferent (ih (some source.name)) ?_ [] _ [] s' ?_ hlines
      · intro tokens htokens
        obtain ⟨k, cs, -, rfl⟩ := exists_lineTokens_of_content htokens
        exact hemit cs _ (Token.map_value_scan _ cs)
      · exact hI s _ rfl hs

/-- A file is expanded from the start of a line to the start of a line. -/
theorem starts_expandWithin (provider : Provider) (including : Option String) (depth : Nat)
    (loc : Option Location) (name : String) :
    Starts (expandWithin provider including depth loc name) := by
  refine keeps_expandWithin ofItems_atLineStart ?_ provider including depth loc name
  intro cs tokens htokens s _ s' _ h
  have hlast : (tokens.map (·.value)).getLast? = some .lineEnd := by
    rw [htokens]
    simp
  rw [List.getLast?_map] at hlast
  exact atLineStart_emitTokens (Option.map_eq_some_iff.mp hlast) h

/-! ### Files in tables -/

section

variable {files : Table String} {including : Option String} {depth : Nat} {loc : Option Location}
  {name text : String}

/-- A file in a table is expanded like its tokens. -/
theorem expandWithin_ofTable (h : files.get? name = some text) (including : Option String)
    (depth : Nat) (loc : Option Location) (s : State) :
    ∃ tokens s₁, tokens.map (·.value) = (unplacedTokens text.toList).map (·.value) ∧
      s₁.Agrees s ∧ s₁.queries = ⟨including, name⟩ :: s.queries ∧
      expandWithin (.ofTable files) including (depth + 1) loc name s =
        expandChecked (expandWithin (.ofTable files) (some name) depth) tokens s₁ := by
  have hload : (Provider.ofTable files).load s.queries ⟨including, name⟩ = .ok ⟨name, text⟩ := by
    simp only [Provider.ofTable, h]
  obtain ⟨file, numbered, heq⟩ := expandWithin_of_load hload depth loc
  refine ⟨Token.tokenize file text, _, map_value_unplacedTokens file text, ?_, ?_, heq⟩
  · exact ⟨rfl, rfl⟩
  · rfl

/-- A file that was expanded is in the table. -/
theorem exists_get?_of_expandWithin
    (h : expandWithin (.ofTable files) including (depth + 1) loc name s = .ok () s') :
    ∃ text, files.get? name = some text := by
  cases hget : files.get? name with
  | some text => exact ⟨text, rfl⟩
  | none =>
    have hload : (Provider.ofTable files).load s.queries ⟨including, name⟩ = .error noSuchFile := by
      simp only [Provider.ofTable, hget]
    rw [expandWithin_succ, hload] at h
    cases h

/-- Where a file is asked for makes no difference. -/
theorem inStep_expandWithin_elsewhere (files : Table String) (including : Option String)
    (depth : Nat) (loc loc' : Option Location) (name : String) :
    InStep elsewhere (fun _ _ => True) (expandWithin (.ofTable files) including depth loc name)
      (expandWithin (.ofTable files) including depth loc' name) := by
  induction depth generalizing including loc loc' name with
  | zero => exact .throwAt trivial
  | succ depth ih =>
    refine .of_ok (fun _ _ _ => trivial) fun s t hst _ s' hrun => ?_
    obtain ⟨text, htext⟩ := exists_get?_of_expandWithin hrun
    obtain ⟨tokens, s₁, htokens, hs₁, -, heq⟩ := expandWithin_ofTable htext including depth loc s
    obtain ⟨tokens', t₁, htokens', ht₁, -, heq'⟩ :=
      expandWithin_ofTable htext including depth loc' t
    have hfile := inStep_expandChecked emits_elsewhere
      (fun loc loc' other _ => ih (some name) loc loc' other)
      (alike_anywhere (htokens.trans htokens'.symm))
    rw [heq] at hrun
    rw [heq']
    exact hfile.exists_ok (hs₁.trans (hst.trans ht₁.symm)) hrun

/-- Nor does it make one where the tokens of a file stand. -/
theorem inStep_expandChecked_elsewhere (files : Table String) (including : Option String)
    (depth : Nat) {tokens tokens' : List (Located Token)}
    (h : tokens.map (·.value) = tokens'.map (·.value)) :
    InStep elsewhere (fun _ _ => True)
      (expandChecked (expandWithin (.ofTable files) including depth) tokens)
      (expandChecked (expandWithin (.ofTable files) including depth) tokens') :=
  inStep_expandChecked emits_elsewhere
    (fun loc loc' name _ => inStep_expandWithin_elsewhere files including depth loc loc' name)
    (alike_anywhere h)

theorem unplaced_of_expandWithin (h : files.get? name = some text)
    (hrun : expandWithin (.ofTable files) including (depth + 1) loc name s = .ok () s') :
    ∃ t, s'.Agrees t ∧ expandChecked (expandWithin (.ofTable files) (some name) depth)
      (unplacedTokens text.toList) s = .ok () t := by
  obtain ⟨tokens, s₁, htokens, hs₁, -, heq⟩ := expandWithin_ofTable h including depth loc s
  rw [heq] at hrun
  obtain ⟨_, t, ht, -, hst⟩ :=
    (inStep_expandChecked_elsewhere files (some name) depth htokens).exists_ok hs₁ hrun
  exact ⟨t, hst, ht⟩

/-- **A file is expanded only if what is written in it is**, with the same outcome. -/
theorem written_of_expandWithin (hs : s.atLineStart = true)
    (hrun : expandWithin (.ofTable files) including (depth + 1) loc name s = .ok () s') :
    ∃ text, files.get? name = some text ∧ Lexed text.toList ∧ ∃ t, s'.Agrees t ∧
      expandLines (expandWithin (.ofTable files) (some name) depth) [] (written text.toList) s =
        .ok [] t := by
  obtain ⟨text, htext⟩ := exists_get?_of_expandWithin hrun
  obtain ⟨t, hst, ht⟩ := unplaced_of_expandWithin htext hrun
  obtain ⟨hlexed, hlines⟩ :=
    (expandChecked_unplacedTokens (starts_expandWithin (.ofTable files) (some name) depth) hs).mp ht
  exact ⟨text, htext, hlexed, t, hst, hlines⟩

/-- **A file is expanded if what is written in it is**, with the same outcome. -/
theorem expandWithin_of_written (hs : s.atLineStart = true) (h : files.get? name = some text)
    (hlexed : Lexed text.toList) (including : Option String) (loc : Option Location)
    (hlines : expandLines (expandWithin (.ofTable files) (some name) depth) []
      (written text.toList) s = .ok [] s') :
    ∃ t, s'.Agrees t ∧
      expandWithin (.ofTable files) including (depth + 1) loc name s = .ok () t := by
  have hstarts := starts_expandWithin (.ofTable files) (some name) depth
  have hchecked := (expandChecked_unplacedTokens hstarts hs).mpr ⟨hlexed, hlines⟩
  obtain ⟨tokens, s₁, htokens, hs₁, -, heq⟩ := expandWithin_ofTable h including depth loc s
  have hstep := inStep_expandChecked_elsewhere files (some name) depth htokens.symm
  obtain ⟨_, t, ht, -, hst⟩ := hstep.exists_ok hs₁.symm hchecked
  exact ⟨t, hst, heq.trans ht⟩

end

end StackAsm.Expansion
