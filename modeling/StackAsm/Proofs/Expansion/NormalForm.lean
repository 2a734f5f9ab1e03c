import StackAsm.Proofs.Expansion.Written
import StackAsm.Proofs.Text.Lowercase
import StackAsm.Proofs.Token.Reading

/-!
# Expanded sources

What an expansion has emitted can be written down as a source of its own: every item but a constant
of the pool stands for a token. In such a source there is nothing left to expand. Its tokens are
read as they were written and emitted as the items that they stand for (`Restores`), and no line is
empty, so no end of a line is lost (`Tidy`). Expanding it gives the same items again.
-/

namespace StackAsm

/-- The token that an item is written as; a constant of the pool has none. -/
def Item.token? : Item → Option Token
  | lineEnd => some .lineEnd
  | separator c => some (.separator c)
  | word name => some (.word name)
  | number n => some (.number (Text.decimal n))
  | text content => some (.text content)
  | directive name => some (.directive name)
  | bracketOpen => some .bracketOpen
  | bracketClose => some .bracketClose
  | operator op => some (.operator op)
  | constant _ _ => none

/-- The source text of items, with a blank between two items of a line. -/
def Item.print (items : List (Located Item)) : String :=
  Token.print (items.filterMap (·.value.token?))

namespace Expansion

/-! ### Single tokens -/

theorem emitToken_word (loc : Option Location) (name : String) (s : State) :
    emitToken ⟨loc, .word name⟩ s =
      match s.constants.get? name with
      | some value => emitConstant loc value s
      | none => .ok () { s with items := s.items.push ⟨loc, .word name⟩ } := by
  show (match s.constants.get? name with
    | some value => emitConstant loc value
    | none => emit loc (.word name) : Expand Unit) s = _
  cases s.constants.get? name with
  | some value => rfl
  | none => rfl

theorem emitToken_number (loc : Option Location) (digits : String) (s : State) :
    emitToken ⟨loc, .number digits⟩ s =
      match Text.readDecimal digits with
      | .ok n => .ok () { s with items := s.items.push ⟨loc, .number n⟩ }
      | .error _ => .error ⟨loc, .malformedNumber digits⟩ s := by
  unfold emitToken literal?
  dsimp only
  cases Text.readDecimal digits with
  | ok n => rfl
  | error e => rfl

theorem emitToken_hex (loc : Option Location) (digits : String) (s : State) :
    emitToken ⟨loc, .hex digits⟩ s =
      match Text.readHex digits with
      | .ok n => emitConstant loc (.number n) s
      | .error _ => .error ⟨loc, .malformedNumber ("$" ++ digits)⟩ s := by
  unfold emitToken literal?
  dsimp only
  cases Text.readHex digits with
  | ok n => rfl
  | error e => rfl

/-! ### Items that come back -/

/-- The item is written as a token that is read again and, where there are no constants, emitted as
the item. -/
structure Restores (item : Item) (token : Token) : Prop where
  written : item.token? = some token
  reads : token.Reads
  emits (loc : Option Location) {s : State} (h : s.constants = {}) :
    emitToken ⟨loc, token⟩ s = .ok () { s with items := s.items.push ⟨loc, item⟩ }

theorem restores_word {name : String} (h : Token.IsWord name) :
    Restores (.word name) (.word name) where
  written := rfl
  reads := Token.reads_word h
  emits loc s hs := by
    rw [emitToken_word, hs]
    rfl

theorem restores_number (n : Int64) : Restores (.number n) (.number (Text.decimal n)) where
  written := rfl
  reads := Token.reads_decimal n
  emits loc s _ := by rw [emitToken_number, Text.readDecimal_decimal]

theorem restores_text (content : String) : Restores (.text content) (.text content) where
  written := rfl
  reads := Token.reads_text content
  emits _ _ _ := rfl

/-- The name of a directive is put in lower case once and for all. -/
theorem restores_directive {name : String} (h : Token.IsMarkedName name) :
    Restores (.directive (Text.lowercase name)) (.directive (Text.lowercase name)) where
  written := rfl
  reads := Token.reads_directive h.lowercase
  emits loc s _ := by
    show emit loc (.directive (Text.lowercase (Text.lowercase name))) s = _
    rw [Text.lowercase_lowercase]
    rfl

theorem restores_separator {c : Char} (h : c = ',' ∨ c = ':') :
    Restores (.separator c) (.separator c) := ⟨rfl, Token.reads_separator h, fun _ _ _ => rfl⟩

theorem restores_bracketOpen : Restores .bracketOpen .bracketOpen :=
  ⟨rfl, Token.reads_bracketOpen, fun _ _ _ => rfl⟩

theorem restores_bracketClose : Restores .bracketClose .bracketClose :=
  ⟨rfl, Token.reads_bracketClose, fun _ _ _ => rfl⟩

theorem restores_operator (op : Operator) : Restores (.operator op) (.operator op) :=
  ⟨rfl, Token.reads_operator op, fun _ _ _ => rfl⟩

theorem Restores.ne_lineEnd {item : Item} {token : Token} (h : Restores item token) :
    item ≠ .lineEnd := by
  rintro rfl
  exact h.reads.ne_lineEnd (Option.some.inj h.written).symm

/-- An item is written neither as a parenthesis nor as a directive to the preprocessor nor as
something malformed. -/
theorem Restores.token_inert {item : Item} {token : Token} (h : Restores item token) :
    token ≠ .parenOpen ∧ (∀ name, token ≠ .preDirective name) ∧ token.isLexicalError = false := by
  have hwritten := h.written
  cases item with
  | constant index kind => cases hwritten
  | _ =>
    cases hwritten
    exact ⟨by simp, by simp, rfl⟩

/-! ### Tidy items -/

/-- The items emitted so far, wherever they stand. -/
def State.values (s : State) : List Item := s.items.toList.map (·.value)

theorem values_push (s : State) (item : Located Item) :
    { s with items := s.items.push item }.values = s.values ++ [item.value] := by
  simp [State.values]

theorem atLineStart_iff (s : State) :
    s.atLineStart = true ↔ ∀ item ∈ s.values.getLast?, item = .lineEnd := by
  rw [atLineStart_iff_getLast?, State.values, List.getLast?_map]
  simp

/-- All items of the line come back. -/
def Restorable (line : List Item) : Prop := ∀ item ∈ line, ∃ token, Restores item token

/-- The items emitted so far are `lines`, none of them empty, and the line `current`. -/
structure Tidy (lines : List (List Item)) (current : List Item) (s : State) : Prop where
  values : s.values = lines.flatMap (· ++ [.lineEnd]) ++ current
  filled : ∀ line ∈ lines, line ≠ []
  restorable : ∀ line ∈ lines, Restorable line
  current : Restorable current

/-- The items emitted so far make up lines. -/
def IsTidy (s : State) : Prop := ∃ lines current, Tidy lines current s

variable {lines : List (List Item)} {current : List Item} {s s' : State}

theorem ofItems_isTidy : OfItems IsTidy := by
  rintro s t heq ⟨lines, current, h⟩
  refine ⟨lines, current, ?_, h.filled, h.restorable, h.current⟩
  rw [← h.values, State.values, State.values, heq]

/-- A line starts where nothing of it was emitted. -/
theorem Tidy.atLineStart_iff (h : Tidy lines current s) :
    s.atLineStart = true ↔ current = [] := by
  rw [Expansion.atLineStart_iff, h.values]
  rcases List.eq_nil_or_concat current with rfl | ⟨front, item, rfl⟩
  · -- the last item, if there is any, ends the last line
    rcases List.eq_nil_or_concat lines with rfl | ⟨front, line, rfl⟩
    · simp
    · simp
  · obtain ⟨token, hitem⟩ := h.current item (by simp)
    simp [hitem.ne_lineEnd]

theorem IsTidy.emit (h : IsTidy s) {item : Located Item} {token : Token}
    (hitem : Restores item.value token) : IsTidy { s with items := s.items.push item } := by
  obtain ⟨lines, current, h⟩ := h
  refine ⟨lines, current ++ [item.value], ?_, h.filled, h.restorable, ?_⟩
  · rw [values_push, h.values, List.append_assoc]
  · intro other hother
    rcases List.mem_append.mp hother with hold | hnew
    · exact h.current other hold
    · rw [List.mem_singleton.mp hnew]
      exact ⟨token, hitem⟩

/-- The current line is closed, unless nothing stands on it. -/
theorem IsTidy.endLine (h : IsTidy s) (loc : Option Location) : IsTidy (s.endLine loc) := by
  obtain ⟨lines, current, h⟩ := h
  unfold State.endLine
  split
  · exact ⟨lines, current, h⟩
  · next hstart =>
    rw [h.atLineStart_iff] at hstart
    refine ⟨lines ++ [current], [], ?_, ?_, ?_, by simp [Restorable]⟩
    · rw [values_push, h.values]
      simp
    · intro line hline
      rcases List.mem_append.mp hline with hold | hnew
      · exact h.filled line hold
      · rwa [List.mem_singleton.mp hnew]
    · intro line hline
      rcases List.mem_append.mp hline with hold | hnew
      · exact h.restorable line hold
      · rw [List.mem_singleton.mp hnew]
        exact h.current

/-! ### Expansions keep items tidy -/

theorem keeps_emit {loc : Option Location} {item : Item} {token : Token}
    (h : Restores item token) : Keeps IsTidy (emit loc item) := by
  intro s _ s' hs hrun
  cases hrun
  exact hs.emit h

theorem keeps_emitConstant (loc : Option Location) (value : Constant) :
    Keeps IsTidy (emitConstant loc value) := by
  cases value with
  | empty =>
    intro s _ s' hs hrun
    cases hrun
    exact hs
  | number n => exact keeps_emit (restores_number n)
  | text content => exact keeps_emit (restores_text content)

/-- A token of a text is emitted as an item that comes back. -/
theorem keeps_emitToken {token : Located Token} (h : token.value.Shaped) :
    Keeps IsTidy (emitToken token) := by
  obtain ⟨loc, value⟩ := token
  intro s _ s' hs hrun
  cases value with
  | lineEnd =>
    have hend : EStateM.Result.ok () (s.endLine loc) = .ok () s' :=
      (emitLineEnd_apply loc s).symm.trans hrun
    cases hend
    exact hs.endLine loc
  | word name =>
    rw [emitToken_word] at hrun
    split at hrun
    · next value _ => exact keeps_emitConstant loc value s () s' hs hrun
    · exact keeps_emit (restores_word h) s () s' hs hrun
  | number digits =>
    rw [emitToken_number] at hrun
    split at hrun
    · next n _ => exact keeps_emit (restores_number n) s () s' hs hrun
    · cases hrun
  | hex digits =>
    rw [emitToken_hex] at hrun
    split at hrun
    · next n _ => exact keeps_emitConstant loc (.number n) s () s' hs hrun
    · cases hrun
  | char c => exact keeps_emitConstant loc (.number (Int64.ofNat c.toNat)) s () s' hs hrun
  | text content => exact keeps_emitConstant loc (.text content) s () s' hs hrun
  | directive name => exact keeps_emit (restores_directive h) s () s' hs hrun
  | separator c => exact keeps_emit (restores_separator h) s () s' hs hrun
  | bracketOpen => exact keeps_emit restores_bracketOpen s () s' hs hrun
  | bracketClose => exact keeps_emit restores_bracketClose s () s' hs hrun
  | operator op => exact keeps_emit (restores_operator op) s () s' hs hrun
  | comment content =>
    cases hrun
    exact hs
  | escape c =>
    cases hrun
    exact hs
  | _ => cases hrun

theorem keeps_emitTokens {tokens : List (Located Token)}
    (h : ∀ token ∈ tokens, token.value.Shaped) : Keeps IsTidy (emitTokens tokens) := by
  induction tokens using emitTokens.induct with
  | case1 =>
    intro s _ s' hs hrun
    rw [emitTokens] at hrun
    cases hrun
    exact hs
  | case2 token rest hopen ih =>
    intro s _ s' hs hrun
    rw [emitTokens, if_pos hopen] at hrun
    obtain ⟨p, s₁, hvalue, hrun⟩ := estate_bind_eq_ok.mp hrun
    obtain ⟨_, s₂, hconstant, hrun⟩ := estate_bind_eq_ok.mp hrun
    have hrest : ∀ other ∈ rest.drop p.2, other.value.Shaped := fun other hother =>
      h other (List.mem_cons_of_mem _ (List.mem_of_mem_drop hother))
    refine ih p.2 hrest s₂ () s' ?_ hrun
    refine keeps_emitConstant token.loc p.1 s₁ () s₂ ?_ hconstant
    exact keeps_evaluate ofItems_isTidy.indifferent token rest s p s₁ hs hvalue
  | case3 token rest hopen ih =>
    intro s _ s' hs hrun
    rw [emitTokens, if_neg hopen] at hrun
    obtain ⟨_, s₁, htoken, hrun⟩ := estate_bind_eq_ok.mp hrun
    obtain ⟨hfirst, hrest⟩ := List.forall_mem_cons.mp h
    exact ih hrest s₁ () s'
      (keeps_emitToken hfirst s () s₁ hs (emitInLine_eq_ok htoken).2) hrun

/-- **An expansion emits whole lines**, none of them empty, of items that come back. -/
theorem exists_tidy_of_run {provider : Provider} {root : String} {items : List (Located Item)}
    (hs : s.items = #[]) (h : run provider root s = .ok items s') :
    ∃ lines : List (List Item), items.map (·.value) = lines.flatMap (· ++ [.lineEnd]) ∧
      (∀ line ∈ lines, line ≠ []) ∧ ∀ line ∈ lines, Restorable line := by
  obtain ⟨t, hfile, rfl, -⟩ := run_eq_ok h
  have htidy : IsTidy s := ⟨[], [], by simp [State.values, hs], by simp, by simp,
    by simp [Restorable]⟩
  have hstart : s.atLineStart = true := by simp [State.atLineStart, hs]
  have hemit : ∀ cs tokens, tokens.map (·.value) = Token.lexemes cs ++ [.lineEnd] →
      Keeps IsTidy (emitTokens tokens) := by
    intro cs tokens htokens
    refine keeps_emitTokens fun token htoken => ?_
    have hvalue : token.value ∈ Token.lexemes cs ++ [.lineEnd] := by
      rw [← htokens]
      exact List.mem_map_of_mem htoken
    rcases List.mem_append.mp hvalue with hlexeme | hend
    · exact Token.forall_mem_lexemes Token.shaped_lexeme cs _ hlexeme
    · rw [List.mem_singleton.mp hend]
      trivial
  obtain ⟨lines, current, htidy'⟩ := keeps_expandWithin ofItems_isTidy hemit provider none _ none
    root s () t htidy hfile
  -- the last line of every file brings its end, so none is left open
  have hstart' := starts_expandWithin provider none _ none root s () t hstart hfile
  obtain rfl := htidy'.atLineStart_iff.mp hstart'
  refine ⟨lines, ?_, htidy'.filled, htidy'.restorable⟩
  rw [← State.values, htidy'.values, List.append_nil]

/-! ### Expanding what was written -/

/-- The tokens that a line is written as. -/
def itemTokens (line : List Item) : List Token := line.filterMap Item.token?

/-- The tokens that lines are written as, each with its end. -/
def sourceTokens (lines : List (List Item)) : List Token :=
  (lines.map itemTokens).flatMap (· ++ [.lineEnd])

theorem forall₂_itemTokens {line : List Item} (h : Restorable line) :
    List.Forall₂ Restores line (itemTokens line) := by
  induction line with
  | nil => exact .nil
  | cons item line ih =>
    obtain ⟨⟨token, hitem⟩, hline⟩ := List.forall_mem_cons.mp h
    rw [itemTokens, List.filterMap_cons_some hitem.written]
    exact .cons hitem (ih hline)

theorem exists_restores_of_mem {line : List Item} (h : Restorable line) {token : Token}
    (htoken : token ∈ itemTokens line) : ∃ item, Restores item token := by
  obtain ⟨item, -, hitem⟩ := exists_of_forall₂ (forall₂_itemTokens h) htoken
  exact ⟨item, hitem⟩

/-- Lines are written one after the other. -/
theorem print_eq {items : List (Located Item)} {lines : List (List Item)}
    (h : items.map (·.value) = lines.flatMap (· ++ [.lineEnd])) :
    Item.print items = Token.print (sourceTokens lines) := by
  have htokens : items.filterMap (·.value.token?) =
      (items.map (·.value)).filterMap Item.token? := by
    rw [List.filterMap_map]
    rfl
  rw [Item.print, htokens, h, List.filterMap_flatMap, sourceTokens, List.flatMap_map]
  congr 1
  refine List.flatMap_congr fun line _ => ?_
  rw [List.filterMap_append]
  rfl

/-- The line is written as the tokens, wherever they stand. -/
def WrittenAs (line : List Item) (tokens : List (Located Token)) : Prop :=
  List.Forall₂ (fun item token => Restores item token.value) line tokens

section

variable {line : List Item} {tokens : List (Located Token)}

/-- The tokens of a line are emitted as the items that they stand for. -/
theorem WrittenAs.emitTokens_append (h : WrittenAs line tokens)
    (rest : List (Located Token)) (hs : s.constants = {}) :
    ∃ t : State, t.constants = {} ∧ t.values = s.values ++ line ∧
      emitTokens (tokens ++ rest) s = emitTokens rest t := by
  induction h generalizing s with
  | nil => exact ⟨s, hs, by simp, rfl⟩
  | @cons item token line tokens hitem _ ih =>
    obtain ⟨t, ht, hvalues, heq⟩ := ih (s := { s with items := s.items.push ⟨token.loc, item⟩ }) hs
    refine ⟨t, ht, ?_, ?_⟩
    · rw [hvalues, values_push, List.append_assoc, List.singleton_append]
    · have hemit : emitToken token s = _ := hitem.emits token.loc hs
      obtain ⟨hopen, hdirective, -⟩ := hitem.token_inert
      rw [List.cons_append, emitTokens, if_neg hopen, emitInLine_of_ne hdirective,
        estate_bind_of_ok hemit, heq]

/-- A line is emitted as it stands, with its end. -/
theorem WrittenAs.emitTokens_line (h : WrittenAs line tokens) (hne : line ≠ [])
    (loc : Option Location) (hs : s.constants = {}) :
    ∃ t : State, t.constants = {} ∧ t.values = s.values ++ (line ++ [.lineEnd]) ∧
      emitTokens (tokens ++ [⟨loc, .lineEnd⟩]) s = .ok () t := by
  obtain ⟨t, ht, hvalues, heq⟩ := h.emitTokens_append [⟨loc, .lineEnd⟩] hs
  have hopen : ¬t.atLineStart = true := by
    rw [atLineStart_iff, hvalues]
    obtain ⟨front, item, rfl⟩ := (List.eq_nil_or_concat line).resolve_left hne
    obtain ⟨token, -, hitem⟩ := exists_of_forall₂ h.flip (y := item) (by simp)
    simp [hitem.ne_lineEnd]
  refine ⟨{ t with items := t.items.push ⟨loc, .lineEnd⟩ }, ht, ?_, ?_⟩
  · rw [values_push, hvalues, List.append_assoc]
  · rw [heq, emitTokens, if_neg (by simp), emitInLine_of_ne (by simp), emitToken,
      estate_bind_of_ok (emitLineEnd_apply loc t), emitTokens, State.endLine, if_neg hopen]
    rfl

/-- There is no directive to the preprocessor on a line. -/
theorem WrittenAs.ofTokens_line (h : WrittenAs line tokens) (loc : Option Location) :
    Line.ofTokens (tokens ++ [⟨loc, .lineEnd⟩]) = .content (tokens ++ [⟨loc, .lineEnd⟩]) := by
  cases h with
  | nil => rfl
  | @cons item token line tokens hitem _ =>
    unfold Line.ofTokens
    split
    · next loc' name rest heq =>
      have hvalue : token.value = .preDirective name := by
        rw [(List.cons.inj heq).1]
      exact absurd hvalue (hitem.token_inert.2.1 name)
    · rfl

end

/-- **Lines that come back are expanded as they stand.** -/
theorem expandLines_restorable (splice : Option Location → String → Expand Unit)
    {lines : List (List Item)} (hne : ∀ line ∈ lines, line ≠ [])
    (h : ∀ line ∈ lines, Restorable line) {tokens : List (Located Token)}
    (htokens : tokens.map (·.value) = sourceTokens lines ++ [.lineEnd])
    (hs : s.constants = {}) (hstart : s.atLineStart = true) :
    ∃ t : State, t.values = s.values ++ lines.flatMap (· ++ [.lineEnd]) ∧
      expandLines splice [] (sourceLines tokens) s = .ok [] t := by
  induction lines generalizing tokens s with
  | nil =>
    -- nothing is left but the end of an empty line
    obtain ⟨⟨loc, _⟩, rfl, rfl⟩ := List.map_eq_singleton_iff.mp htokens
    exact ⟨s, by simp, estate_bind_of_ok (expandLine_blank rfl hstart)⟩
  | cons line lines ih =>
    obtain ⟨hline, hlines⟩ := List.forall_mem_cons.mp h
    obtain ⟨hfilled, hne⟩ := List.forall_mem_cons.mp hne
    rw [sourceTokens, List.map_cons, List.flatMap_cons, List.append_assoc, List.append_assoc]
      at htokens
    obtain ⟨front, _, rfl, hfront, hback⟩ := List.map_eq_append_iff.mp htokens
    obtain ⟨⟨loc, _⟩, back, rfl, rfl, hrest⟩ := List.map_eq_cons_iff.mp hback
    have hwritten : WrittenAs line front := by
      have hforall := forall₂_itemTokens hline
      rwa [← hfront, List.forall₂_map_right_iff] at hforall
    have hend : ∀ token ∈ front, token.value ≠ .lineEnd := by
      intro token htoken
      obtain ⟨item, -, hitem⟩ := exists_of_forall₂ hwritten htoken
      exact hitem.reads.ne_lineEnd
    obtain ⟨t, ht, hvalues, hemit⟩ := hwritten.emitTokens_line hfilled loc hs
    have hstart' : t.atLineStart = true := by
      rw [atLineStart_iff, hvalues]
      simp
    obtain ⟨t', hvalues', hexpand⟩ := ih hne hlines hrest ht hstart'
    refine ⟨t', ?_, ?_⟩
    · rw [hvalues', hvalues, List.flatMap_cons, List.append_assoc]
    · have hcontent : expandLine splice [] (.content (front ++ [⟨loc, .lineEnd⟩])) s = .ok [] t :=
        estate_bind_of_ok hemit
      rw [sourceLines, tokenLines_append_lineEnd hend, List.map_cons, hwritten.ofTokens_line,
        expandLines, estate_bind_of_ok hcontent]
      exact hexpand

theorem find?_isLexicalError_eq_none {lines : List (List Item)}
    (h : ∀ line ∈ lines, Restorable line) {tokens : List (Located Token)}
    (htokens : tokens.map (·.value) =
      (lines.map itemTokens).flatMap (· ++ [.lineEnd]) ++ [.lineEnd]) :
    tokens.find? (·.value.isLexicalError) = none := by
  have hall : ∀ token ∈ tokens.map (·.value), token.isLexicalError = false := by
    rw [htokens]
    intro token htoken
    rcases List.mem_append.mp htoken with hlines | hend
    · obtain ⟨_, hwritten, hmem⟩ := List.mem_flatMap.mp hlines
      obtain ⟨line, hline, rfl⟩ := List.mem_map.mp hwritten
      rcases List.mem_append.mp hmem with hmem | hend
      · obtain ⟨item, hitem⟩ := exists_restores_of_mem (h line hline) hmem
        exact hitem.token_inert.2.2
      · rw [List.mem_singleton.mp hend]
        rfl
    · rw [List.mem_singleton.mp hend]
      rfl
  refine List.find?_eq_none.mpr fun token htoken => ?_
  rw [hall token.value (List.mem_map_of_mem htoken)]
  exact Bool.false_ne_true

/-- **Expanded sources are in normal form.** What an expansion has emitted, written down with a
blank between two items of a line, is expanded without any constants to the same items, wherever
they stand. -/
theorem run_print {provider : Provider} {root : String} {constants : Table Constant}
    {items : List (Located Item)} {s : State}
    (h : run provider root { constants } = .ok items s) {again : Provider} {name : String}
    {source : Source} (hload : again.load [] ⟨none, name⟩ = .ok source)
    (htext : source.text = Item.print items) :
    ∃ items' s', run again name {} = .ok items' s' ∧
      items'.map (·.value) = items.map (·.value) := by
  obtain ⟨lines, hlines, hne, hrestorable⟩ := exists_tidy_of_run rfl h
  obtain ⟨file, files, hfile⟩ := expandWithin_of_load (s := {}) hload (maxDepth - 1) none
  have hreads : ∀ line ∈ lines.map itemTokens, ∀ token ∈ line, token.Reads := by
    refine List.forall_mem_map.mpr fun line hline token htoken => ?_
    obtain ⟨item, hitem⟩ := exists_restores_of_mem (hrestorable line hline) htoken
    exact hitem.reads
  have htokens : (Token.tokenize file source.text).map (·.value) =
      sourceTokens lines ++ [.lineEnd] := by
    rw [htext, print_eq hlines]
    exact Token.map_value_tokenize_print file hreads
  obtain ⟨t, hvalues, hexpand⟩ := expandLines_restorable
    (expandWithin again (some source.name) (maxDepth - 1)) hne hrestorable htokens
    (s := { files, queries := [⟨none, name⟩], events := #[.loading source.name file] }) rfl rfl
  have hchecked := expandChecked_eq_ok_iff.mpr
    ⟨find?_isLexicalError_eq_none hrestorable htokens, hexpand⟩
  refine ⟨_, _, run_of_expandWithin (hfile.trans hchecked), ?_⟩
  rw [hlines]
  exact hvalues

/-- Constants with a text that has to be escaped and with nothing. -/
def tangledConstants : Table Constant := ⟨[("Greeting", .text "say \"hi\"\n"), ("Gone", .empty)]⟩

/-- A file with an extreme number, signs next to each other and a line that leaves no trace. -/
def tangledMain : String :=
  "#define Low (-9223372036854775807 - 1)\n#include \"lib\"\n\n.SYMBOL main ; opened\n" ++
    "  put Low - -1, Greeting Gone\nGone"

def tangledFiles : Table String :=
  ⟨[("main", tangledMain), ("lib", "#if Low\n.Data [$FF, %\"]\n#endif")]⟩

/-- What is written down looks different, and is expanded to the same items. -/
theorem run_print_tangled :
    ∃ items s, run (.ofTable tangledFiles) "main" { constants := tangledConstants } = .ok items s ∧
      Item.print items = ".data [ 255 , 34 ]\n.symbol main\n" ++
        "put -9223372036854775808 - -1 , \"say \\\"hi\\\"\\n\"\n" ∧
      ∃ items' s', run (.ofTable ⟨[("copy", Item.print items)]⟩) "copy" {} = .ok items' s' ∧
        items'.map (·.value) = items.map (·.value) := by
  have hprint : (match run (.ofTable tangledFiles) "main" { constants := tangledConstants } with
      | .ok items _ => some (Item.print items)
      | .error _ _ => none) = some (".data [ 255 , 34 ]\n.symbol main\n" ++
        "put -9223372036854775808 - -1 , \"say \\\"hi\\\"\\n\"\n") := by
    decide +kernel
  cases hrun : run (.ofTable tangledFiles) "main" { constants := tangledConstants } with
  | error e s =>
    rw [hrun] at hprint
    cases hprint
  | ok items s =>
    rw [hrun] at hprint
    have hload : (Provider.ofTable ⟨[("copy", Item.print items)]⟩).load [] ⟨none, "copy"⟩ =
        .ok ⟨"copy", Item.print items⟩ := rfl
    exact ⟨items, s, rfl, Option.some.inj hprint, run_print hrun hload rfl⟩

end Expansion

end StackAsm
