import StackAsm.Proofs.Expansion.Correspondence
import StackAsm.Proofs.Expansion.Nesting

/-!
# Between lines

What is a matter of the items is kept by lines if it is kept by the tokens that they emit. One such
thing is where a line starts. Every line of a source brings its own end, so between two lines the
items end with the end of a line or there are none yet. There a line without anything on it does
nothing, wherever it stands. Lines that were expanded once can also be passed over: what could go
wrong with a line that is passed over goes wrong with one that is expanded, too.
-/

namespace StackAsm.Expansion

variable {splice : Option Location → String → Expand Unit} {frames frames' : Frames}
  {s s' : State}

/-! ### What lines keep -/

section

variable {I : State → Prop}

/-- `I` is a matter of the items emitted so far. -/
def OfItems (I : State → Prop) : Prop := ∀ s t : State, s.items = t.items → I s → I t

/-- `I` is no matter of the constants and of what was reported. -/
structure Indifferent (I : State → Prop) : Prop where
  revalued (s : State) (constants : Table Constant) (h : I s) : I { s with constants }
  reported (s : State) (event : Event) (h : I s) : I { s with events := s.events.push event }

theorem OfItems.indifferent (h : OfItems I) : Indifferent I :=
  ⟨fun s _ => h s _ rfl, fun s _ => h s _ rfl⟩

theorem keeps_evaluate (hI : Indifferent I) (opening : Located Token)
    (tokens : List (Located Token)) : Keeps I (evaluate opening tokens) := by
  have htokens : List.Forall₂ (Located.Alike Eq) tokens tokens :=
    List.forall₂_same.mpr fun _ _ => ⟨rfl, rfl⟩
  exact (inStep_evaluate (c := keeping I hI.revalued hI.reported) ⟨rfl, rfl⟩ htokens).keeps

theorem keeps_run (hI : Indifferent I) (hsplice : ∀ loc name, Keeps I (splice loc name))
    (line : DirectiveLine) (frames : Frames) : Keeps I (line.run splice frames) := by
  have hline : line.Alike Eq line := ⟨rfl, rfl, List.forall₂_same.mpr fun _ _ => ⟨rfl, rfl⟩⟩
  have hframes : List.Forall₂ (Frame.Alike Eq) frames frames :=
    List.forall₂_same.mpr fun frame _ => ⟨frame.loc, rfl, rfl⟩
  refine (inStep_run (c := keeping I hI.revalued hI.reported) ?_ hline hframes).keeps
  rintro loc _ name rfl
  exact (hsplice loc name).inStep

theorem keeps_skipTokens (hI : Indifferent I) (tokens : List (Located Token)) :
    Keeps I (skipTokens tokens) := by
  have htokens : List.Forall₂ (Located.Alike Eq) tokens tokens :=
    List.forall₂_same.mpr fun _ _ => ⟨rfl, rfl⟩
  exact (inStep_skipTokens (c := keeping I hI.revalued hI.reported) htokens).keeps

/-- A line keeps what its tokens keep, if they are emitted. -/
theorem keeps_expandLine (hI : Indifferent I) (hsplice : ∀ loc name, Keeps I (splice loc name))
    {line : Line} (hline : ∀ tokens, line = .content tokens → Keeps I (emitTokens tokens))
    (frames : Frames) : Keeps I (expandLine splice frames line) := by
  cases line with
  | directive line => exact keeps_run hI hsplice line frames
  | content tokens =>
    intro s a s' hs h
    rw [expandLine] at h
    split at h
    · obtain ⟨_, s₁, htokens, h⟩ := estate_bind_eq_ok.mp h
      cases h
      exact hline tokens rfl s () s' hs htokens
    · obtain ⟨_, s₁, htokens, h⟩ := estate_bind_eq_ok.mp h
      cases h
      exact keeps_skipTokens hI tokens s () s' hs htokens

theorem keeps_expandLines (hI : Indifferent I) (hsplice : ∀ loc name, Keeps I (splice loc name))
    {lines : List Line} (hlines : ∀ tokens, .content tokens ∈ lines → Keeps I (emitTokens tokens))
    (frames : Frames) : Keeps I (expandLines splice frames lines) := by
  induction lines generalizing frames with
  | nil =>
    intro s a s' hs h
    cases h
    exact hs
  | cons line lines ih =>
    intro s a s' hs h
    obtain ⟨frames', s₁, hfirst, h⟩ := estate_bind_eq_ok.mp h
    have hline : ∀ tokens, line = .content tokens → Keeps I (emitTokens tokens) := by
      rintro tokens rfl
      exact hlines tokens List.mem_cons_self
    refine ih (fun tokens htokens => hlines tokens (List.mem_cons_of_mem _ htokens)) frames' s₁ a s'
      ?_ h
    exact keeps_expandLine hI hsplice hline frames s frames' s₁ hs hfirst

end

/-! ### The start of a line -/

theorem atLineStart_iff_getLast? (s : State) :
    s.atLineStart = true ↔ ∀ item ∈ s.items.toList.getLast?, item.value = .lineEnd := by
  rw [Array.getLast?_toList]
  unfold State.atLineStart
  cases s.items.back? with
  | none => simp
  | some item => simp

theorem atLineStart_endLine (s : State) (loc : Option Location) :
    (s.endLine loc).atLineStart = true := by
  unfold State.endLine
  split
  · next h => exact h
  · simp [State.atLineStart]

/-- The tokens close with the end of a line. -/
def Ended (tokens : List (Located Token)) : Prop :=
  ∃ last, tokens.getLast? = some last ∧ last.value = .lineEnd

theorem Ended.of_append {front tokens : List (Located Token)} (h : Ended (front ++ tokens))
    (hfront : ∀ token ∈ front, token.value ≠ .lineEnd) : Ended tokens := by
  obtain ⟨last, hlast, hvalue⟩ := h
  rw [List.getLast?_append] at hlast
  cases htokens : tokens.getLast? with
  | some other =>
    rw [htokens] at hlast
    cases hlast
    exact ⟨last, htokens, hvalue⟩
  | none =>
    rw [htokens] at hlast
    exact absurd hvalue (hfront last (List.mem_of_getLast? hlast))

/-- After tokens that close with the end of a line, a line starts. -/
theorem atLineStart_emitTokens {tokens : List (Located Token)} (hend : Ended tokens)
    (h : emitTokens tokens s = .ok () s') : s'.atLineStart = true := by
  induction tokens using emitTokens.induct generalizing s with
  | case1 =>
    obtain ⟨last, hlast, -⟩ := hend
    cases hlast
  | case2 token rest hopen ih =>
    rw [emitTokens, if_pos hopen] at h
    obtain ⟨p, s₁, hvalue, h⟩ := estate_bind_eq_ok.mp h
    obtain ⟨_, s₂, -, h⟩ := estate_bind_eq_ok.mp h
    obtain ⟨taken, left, rfl, hlength, htaken⟩ :=
      Expression.taken_of_evaluate (evaluate_eq_ok hvalue)
    refine ih p.2 ?_ h
    rw [← hlength, List.drop_left]
    -- the end of the line is not part of the expression
    have hline : Ended ((token :: taken) ++ left) := hend
    refine hline.of_append fun other hother => ?_
    rcases List.mem_cons.mp hother with rfl | hmem
    · simp [hopen]
    · exact (htaken other hmem).1
  | case3 token rest hopen ih =>
    rw [emitTokens, if_neg hopen] at h
    obtain ⟨_, s₁, hinline, h⟩ := estate_bind_eq_ok.mp h
    have htoken := (emitInLine_eq_ok hinline).2
    cases rest with
    | nil =>
      obtain ⟨last, hlast, hvalue⟩ := hend
      obtain rfl : token = last := by simpa using hlast
      rw [emitTokens] at h
      cases h
      rw [emitToken, hvalue] at htoken
      have heq : EStateM.Result.ok () (s.endLine token.loc) = .ok () s' :=
        (emitLineEnd_apply token.loc s).symm.trans htoken
      cases heq
      exact atLineStart_endLine s token.loc
    | cons next rest =>
      obtain ⟨last, hlast, hvalue⟩ := hend
      exact ih ⟨last, hlast, hvalue⟩ h

/-- The step leads from the start of a line to the start of a line. -/
def Starts {α : Type} (x : Expand α) : Prop := Keeps (·.atLineStart = true) x

/-- The line closes with its end. -/
def Line.Ended : Line → Prop
  | .directive _ => True
  | .content tokens => Expansion.Ended tokens

theorem ofItems_atLineStart : OfItems (·.atLineStart = true) := by
  intro s t heq hs
  unfold State.atLineStart at hs ⊢
  rwa [← heq]

/-- A line that has its end is expanded from the start of a line to the start of a line. -/
theorem starts_expandLine (hsplice : ∀ loc name, Starts (splice loc name)) {line : Line}
    (hline : line.Ended) (frames : Frames) : Starts (expandLine splice frames line) := by
  refine keeps_expandLine ofItems_atLineStart.indifferent hsplice ?_ frames
  rintro tokens rfl s _ s' _ h
  exact atLineStart_emitTokens hline h

/-! ### Blank lines -/

/-- Whether there is nothing on the line. -/
def Line.isBlank : Line → Bool
  | .content [token] => token.value = .lineEnd
  | _ => false

theorem expandLine_blank {line : Line} (hline : line.isBlank = true)
    (hs : s.atLineStart = true) : expandLine splice frames line s = .ok frames s := by
  unfold Line.isBlank at hline
  split at hline
  · next token =>
    obtain ⟨loc, value⟩ := token
    obtain rfl : value = .lineEnd := of_decide_eq_true hline
    have hend : s.endLine loc = s := by
      unfold State.endLine
      rw [if_pos hs]
    have hemit : emitTokens [⟨loc, .lineEnd⟩] s = .ok () s := by
      rw [emitTokens, if_neg (by simp), emitInLine_of_ne (by simp), emitToken,
        estate_bind_of_ok (emitLineEnd_apply loc s), hend, emitTokens]
      rfl
    rw [expandLine]
    split
    · rw [estate_bind_of_ok hemit]
      rfl
    · rfl
  · cases hline

/-- From the start of a line, blank lines can be left out. -/
theorem expandLines_filter (hsplice : ∀ loc name, Starts (splice loc name)) {lines : List Line}
    (hlines : ∀ line ∈ lines, line.Ended) (hs : s.atLineStart = true) :
    expandLines splice frames (lines.filter (!·.isBlank)) s =
      expandLines splice frames lines s := by
  induction lines generalizing frames s with
  | nil => rfl
  | cons line lines ih =>
    obtain ⟨hline, hrest⟩ := List.forall_mem_cons.mp hlines
    cases hblank : line.isBlank with
    | true =>
      rw [List.filter_cons_of_neg (by simp [hblank]), ih hrest hs, expandLines,
        estate_bind_of_ok (expandLine_blank hblank hs)]
    | false =>
      rw [List.filter_cons_of_pos (by simp [hblank]), expandLines, expandLines]
      cases hfirst : expandLine splice frames line s with
      | error e s₁ => simp only [Bind.bind, EStateM.bind, hfirst]
      | ok frames₁ s₁ =>
        rw [estate_bind_of_ok hfirst, estate_bind_of_ok hfirst]
        exact ih hrest (starts_expandLine hsplice hline frames s _ s₁ hs hfirst)

/-! ### Lines that can be passed over -/

/-- The line can be passed over: there is no directive among its tokens, and nothing follows a
directive that nothing may follow. -/
def Line.Passable : Line → Prop
  | .content tokens => ∀ token ∈ tokens, ∀ name, token.value ≠ .preDirective name
  | .directive line => line.role = .otherwise ∨ line.role = .closing → line.arguments = []

theorem expectEnd_eq_ok {reason : String} {tokens : List (Located Token)}
    (h : expectEnd reason tokens s = .ok () s') : tokens = [] := by
  cases tokens with
  | nil => rfl
  | cons token rest => cases h

theorem passable_of_emitTokens {tokens : List (Located Token)}
    (h : emitTokens tokens s = .ok () s') :
    ∀ token ∈ tokens, ∀ name, token.value ≠ .preDirective name := by
  induction tokens using emitTokens.induct generalizing s with
  | case1 => simp
  | case2 token rest hopen ih =>
    rw [emitTokens, if_pos hopen] at h
    obtain ⟨p, s₁, hvalue, h⟩ := estate_bind_eq_ok.mp h
    obtain ⟨_, s₂, -, h⟩ := estate_bind_eq_ok.mp h
    obtain ⟨taken, left, rfl, hlength, htaken⟩ :=
      Expression.taken_of_evaluate (evaluate_eq_ok hvalue)
    have hleft := ih p.2 h
    rw [← hlength, List.drop_left] at hleft
    intro other hother
    rcases List.mem_cons.mp hother with rfl | hmem
    · simp [hopen]
    · rcases List.mem_append.mp hmem with hmem | hmem
      · exact (htaken other hmem).2
      · exact hleft other hmem
  | case3 token rest hopen ih =>
    rw [emitTokens, if_neg hopen] at h
    obtain ⟨_, s₁, htoken, h⟩ := estate_bind_eq_ok.mp h
    exact List.forall_mem_cons.mpr ⟨(emitInLine_eq_ok htoken).1, ih h⟩

theorem passable_of_skipTokens {tokens : List (Located Token)}
    (h : skipTokens tokens s = .ok () s') :
    ∀ token ∈ tokens, ∀ name, token.value ≠ .preDirective name := by
  induction tokens with
  | nil => simp
  | cons token rest ih =>
    obtain ⟨loc, value⟩ := token
    cases value with
    | preDirective name => cases h
    | _ => exact List.forall_mem_cons.mpr ⟨nofun, ih h⟩

/-- A line that was expanded can be passed over. -/
theorem passable_of_expandLine {line : Line}
    (h : expandLine splice frames line s = .ok frames' s') : line.Passable := by
  cases line with
  | content tokens =>
    rw [expandLine] at h
    split at h
    · obtain ⟨_, s₁, htokens, -⟩ := estate_bind_eq_ok.mp h
      exact passable_of_emitTokens htokens
    · obtain ⟨_, s₁, htokens, -⟩ := estate_bind_eq_ok.mp h
      exact passable_of_skipTokens htokens
  | directive line =>
    rw [expandLine, line.run_eq] at h
    obtain ⟨_, s₁, -, h⟩ := estate_bind_eq_ok.mp h
    rintro (hrole | hrole)
    · rw [hrole] at h
      obtain ⟨after, s₂, -, h⟩ := estate_bind_eq_ok.mp h
      obtain ⟨_, s₃, hend, -⟩ := estate_bind_eq_ok.mp h
      exact expectEnd_eq_ok hend
    · rw [hrole] at h
      obtain ⟨after, s₂, -, h⟩ := estate_bind_eq_ok.mp h
      obtain ⟨_, s₃, hend, -⟩ := estate_bind_eq_ok.mp h
      exact expectEnd_eq_ok hend

theorem passable_of_expandLines {lines : List Line}
    (h : expandLines splice frames lines s = .ok frames' s') : ∀ line ∈ lines, line.Passable := by
  induction lines generalizing frames s with
  | nil => simp
  | cons line lines ih =>
    obtain ⟨frames₁, s₁, hfirst, h⟩ := estate_bind_eq_ok.mp h
    exact List.forall_mem_cons.mpr ⟨passable_of_expandLine hfirst, ih h⟩

/-- The step does not fail. -/
def Succeeds (x : Expand Unit) : Prop := ∀ s, ∃ s', x s = .ok () s'

theorem Succeeds.bind {x : Expand Unit} {f : Unit → Expand Unit} (hx : Succeeds x)
    (hf : Succeeds (f ())) : Succeeds (x >>= f) := by
  intro s
  obtain ⟨s₁, h₁⟩ := hx s
  obtain ⟨s₂, h₂⟩ := hf s₁
  exact ⟨s₂, (estate_bind_of_ok h₁).trans h₂⟩

theorem succeeds_announce (line : DirectiveLine) : Succeeds line.announce := fun _ => ⟨_, rfl⟩

theorem succeeds_skipTokens {tokens : List (Located Token)}
    (h : ∀ token ∈ tokens, ∀ name, token.value ≠ .preDirective name) :
    Succeeds (skipTokens tokens) := by
  induction tokens with
  | nil => exact fun s => ⟨s, rfl⟩
  | cons token rest ih =>
    obtain ⟨htoken, hrest⟩ := List.forall_mem_cons.mp h
    rw [skipTokens]
    split
    · next name hname => exact absurd hname (htoken name)
    · exact ih hrest

theorem succeeds_startLast {line : DirectiveLine} (h : line.arguments = []) :
    Succeeds line.startLast := by
  refine (succeeds_announce line).bind fun s => ⟨s, ?_⟩
  rw [h]
  rfl

theorem succeeds_endBlock {line : DirectiveLine} (h : line.arguments = []) :
    Succeeds line.endBlock := by
  refine (succeeds_announce line).bind fun s => ⟨s, ?_⟩
  rw [h]
  rfl

mutual

/-- A section whose lines can be passed over is passed over. -/
theorem Section.succeeds_pass (tree : Section) (h : ∀ line ∈ tree.lines, line.Passable) :
    Succeeds tree.pass := by
  cases tree with
  | nil => exact fun s => ⟨s, rfl⟩
  | content tokens rest =>
    obtain ⟨htokens, hrest⟩ := List.forall_mem_cons.mp h
    exact (succeeds_skipTokens htokens).bind (rest.succeeds_pass hrest)
  | directive line _ rest =>
    obtain ⟨-, hrest⟩ := List.forall_mem_cons.mp h
    exact (succeeds_announce line).bind (rest.succeeds_pass hrest)
  | block line _ body branches rest =>
    simp only [Section.lines, List.cons_append, List.forall_mem_cons, List.forall_mem_append] at h
    obtain ⟨-, hbody, hbranches, hrest⟩ := h
    refine (succeeds_announce line).bind ((body.succeeds_pass hbody).bind ?_)
    exact (branches.succeeds_pass hbranches).bind (rest.succeeds_pass hrest)

theorem Branches.succeeds_pass (branches : Branches) (h : ∀ line ∈ branches.lines, line.Passable) :
    Succeeds branches.pass := by
  cases branches with
  | closing line hline => exact succeeds_endBlock (h _ List.mem_cons_self (.inr hline))
  | otherwise line hline body last hlast =>
    simp only [Branches.lines, List.cons_append, List.forall_mem_cons, List.forall_mem_append] at h
    obtain ⟨hfirst, hbody, hend, -⟩ := h
    refine (succeeds_startLast (hfirst (.inl hline))).bind ((body.succeeds_pass hbody).bind ?_)
    exact succeeds_endBlock (hend (.inr hlast))
  | further line _ body branches =>
    simp only [Branches.lines, List.cons_append, List.forall_mem_cons, List.forall_mem_append] at h
    obtain ⟨-, hbody, hbranches⟩ := h
    refine (succeeds_announce line).bind ((body.succeeds_pass hbody).bind ?_)
    exact branches.succeeds_pass hbranches

end

end StackAsm.Expansion
