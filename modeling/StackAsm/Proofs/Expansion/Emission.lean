import StackAsm.Proofs.Expansion.Depth
import StackAsm.Proofs.Token.Locations

/-!
# What an expansion emits and loads

Files that include each other are expanded one inside the other. Whatever an expansion does to its
state, it moves along: it reports something, emits an item that stands in a loaded file, gives the
constants new values, asks for a file, or numbers and announces a file that it was given. Lines move
so, seen as an expansion beside itself; files do by induction on the depth. It follows that what is
emitted comes from the sources and stands in loaded files, and so does every error but that of the
first file.
-/

namespace StackAsm.Expansion

open Relation

/-- The place is in one of the first `n` files. -/
def PointsBelow (n : Nat) (loc : Option Location) : Prop := ∃ l, loc = some l ∧ l.file < n

theorem PointsBelow.mono {n m : Nat} {loc : Option Location} (h : PointsBelow n loc)
    (hle : n ≤ m) : PointsBelow m loc := by
  obtain ⟨l, hloc, hlt⟩ := h
  exact ⟨l, hloc, by omega⟩

/-- One of the queries was answered by a source with this name. -/
def Answered (provider : Provider) (queries : List Query) (name : String) : Prop :=
  ∃ query earlier source, (query :: earlier) <:+ queries ∧
    provider.load earlier query = .ok source ∧ source.name = name

/-- One change of the state by an expansion. -/
inductive Moves (provider : Provider) (s : State) : State → Prop where
  | reported (event : Event) : Moves provider s { s with events := s.events.push event }
  | emitted (item : Located Item) (hsource : Item.IsSource item)
      (hloc : PointsBelow s.files.length item.loc)
      (hline : item.value = .lineEnd → s.atLineStart = false) :
      Moves provider s { s with items := s.items.push item }
  | revalued (constants : Table Constant) : Moves provider s { s with constants }
  | asked (query : Query) : Moves provider s { s with queries := query :: s.queries }
  | numbered (name : String) (h : Answered provider s.queries name) :
      Moves provider s { s with files := s.files ++ [name] }

variable {provider : Provider} {s s' : State}

/-- No file is forgotten or numbered anew. -/
theorem files_grow (h : ReflTransGen (Moves provider) s s') : s.files <+: s'.files := by
  induction h with
  | refl => exact List.prefix_refl _
  | tail _ hmove ih =>
    refine ih.trans ?_
    cases hmove with
    | numbered name _ => exact List.prefix_append _ _
    | _ => exact List.prefix_refl _

theorem length_files_le (h : ReflTransGen (Moves provider) s s') :
    s.files.length ≤ s'.files.length :=
  (files_grow h).length_le

/-- No query is forgotten. -/
theorem queries_grow (h : ReflTransGen (Moves provider) s s') : s.queries <:+ s'.queries := by
  induction h with
  | refl => exact List.suffix_refl _
  | tail _ hmove ih =>
    refine ih.trans ?_
    cases hmove with
    | asked query => exact List.suffix_cons _ _
    | _ => exact List.suffix_refl _

/-- From the state `s` an expansion moves on, and fails in a loaded file only. -/
structure RunsFrom (provider : Provider) (s : State) {α : Type} (x : Expand α) : Prop where
  moves : MovesFrom id (Moves provider) s x
  fails {s' : State} {e : Located Error} (h : x s = .error e s') :
    PointsBelow s'.files.length e.loc

/-! ### Lines -/

/-- An expansion beside itself that has moved on from `start`. It names places in the first `n`
files; a failure may stand in any file. -/
def alongside (provider : Provider) (n : Nat) (start : State) : Correspondence where
  state s t := s = t ∧ n ≤ s.files.length ∧ ReflTransGen (Moves provider) start s
  place loc loc' := loc = loc' ∧ PointsBelow n loc
  failed e s outcome := outcome = some (e, s) ∧ PointsBelow s.files.length e.loc ∧
    ReflTransGen (Moves provider) start s
  constants_eq h := congrArg State.constants h.1
  revalued constants h := by
    obtain ⟨rfl, hn, hmoves⟩ := h
    exact ⟨rfl, hn, hmoves.tail (.revalued constants)⟩
  reported hevent h := by
    obtain ⟨rfl, hn, hmoves⟩ := h
    refine ⟨?_, hn, hmoves.tail (.reported _)⟩
    cases hevent with
    | preDirective name hloc => rw [hloc.1]
    | _ => rfl
  thrown h he := by
    obtain ⟨rfl, hn, hmoves⟩ := h
    obtain rfl := he.eq he.loc.1
    exact ⟨rfl, he.loc.2.mono hn, hmoves⟩
  free h := by cases h.1

theorem emits_alongside (n : Nat) (start : State) : (alongside provider n start).Emits where
  emitted h hitem hsource hline := by
    obtain ⟨rfl, hn, hmoves⟩ := h
    obtain rfl := hitem.eq hitem.loc.1
    refine ⟨rfl, hn, hmoves.tail (.emitted _ hsource (hitem.loc.2.mono hn) ?_)⟩
    exact fun hend => absurd hend hline
  ended h hloc := by
    obtain ⟨rfl, hn, hmoves⟩ := h
    obtain ⟨rfl, hbelow⟩ := hloc
    refine ⟨rfl, ?_⟩
    unfold State.endLine
    split
    · exact ⟨hn, hmoves⟩
    · next hstart =>
      refine ⟨hn, hmoves.tail ?_⟩
      refine .emitted ⟨_, .lineEnd⟩ (by simp [Item.IsSource]) (hbelow.mono hn) ?_
      exact fun _ => Bool.eq_false_iff.mpr hstart

theorem inStep_of_runsFrom {n : Nat} {start : State} {x : Expand Unit}
    (h : ∀ s, n ≤ s.files.length → RunsFrom provider s x) :
    InStep (alongside provider n start) (fun _ _ => True) x x := by
  rintro s _ ⟨rfl, hn, hmoves⟩
  obtain ⟨hmoves', hfails⟩ := h s hn
  unfold MovesFrom at hmoves'
  cases hx : x s with
  | ok a s' =>
    rw [hx] at hmoves'
    exact ⟨a, s', rfl, trivial, rfl, Nat.le_trans hn (length_files_le hmoves'),
      hmoves.trans hmoves'⟩
  | error e s' =>
    rw [hx] at hmoves'
    exact ⟨rfl, hfails hx, hmoves.trans hmoves'⟩

theorem runsFrom_of_inStep {n : Nat} {x : Expand Unit}
    (h : InStep (alongside provider n s) (fun _ _ => True) x x) (hn : n ≤ s.files.length) :
    RunsFrom provider s x := by
  have hstep := h s s ⟨rfl, hn, .refl⟩
  cases hx : x s with
  | ok a s' =>
    rw [hx] at hstep
    obtain ⟨b, t, -, -, rfl, -, hmoves⟩ := hstep
    refine ⟨?_, fun h => by rw [hx] at h; cases h⟩
    rw [MovesFrom, hx]
    exact hmoves
  | error e s' =>
    rw [hx] at hstep
    obtain ⟨-, hbelow, hmoves⟩ := hstep
    refine ⟨?_, fun h => ?_⟩
    · rw [MovesFrom, hx]
      exact hmoves
    · rw [hx] at h
      cases h
      exact hbelow

/-! ### Files -/

theorem runsFrom_expandChecked {n : Nat} {splice : Option Location → String → Expand Unit}
    (hsplice : ∀ loc name, PointsBelow n loc →
      ∀ s, n ≤ s.files.length → RunsFrom provider s (splice loc name))
    {tokens : List (Located Token)} (h : ∀ token ∈ tokens, PointsBelow n token.loc)
    (hs : n ≤ s.files.length) : RunsFrom provider s (expandChecked splice tokens) := by
  refine runsFrom_of_inStep (inStep_expandChecked (emits_alongside n s) ?_ ?_) hs
  · rintro loc _ name ⟨rfl, hloc⟩
    exact inStep_of_runsFrom (hsplice loc name hloc)
  · exact List.forall₂_same.mpr fun token htoken => ⟨⟨rfl, h token htoken⟩, rfl⟩

theorem loc_of_mem_tokenize {file : Nat} {source : String} {token : Located Token}
    (h : token ∈ Token.tokenize file source) : PointsBelow (file + 1) token.loc := by
  rw [Token.tokenize_eq] at h
  obtain ⟨⟨cs, k⟩, -, htoken⟩ := List.mem_flatMap.mp h
  obtain ⟨column, hloc⟩ := (Token.covers_lineTokens file (k + 1) cs).located token htoken
  exact ⟨_, hloc, Nat.lt_succ_self file⟩

theorem runsFrom_expandSource {splice : Option Location → String → Expand Unit} {source : Source}
    (hsplice : ∀ n loc name, PointsBelow n loc →
      ∀ s, n ≤ s.files.length → RunsFrom provider s (splice loc name))
    (h : Answered provider s.queries source.name) :
    RunsFrom provider s (expandSource splice source) := by
  obtain ⟨file, files, hfile, hfiles, heq⟩ := expandSource_apply splice source s
  have hnumbered : ReflTransGen (Moves provider) s { s with files } := by
    rcases hfiles with rfl | rfl
    · exact .refl
    · exact .single (.numbered source.name h)
  have hloaded := hnumbered.tail (.reported (.loading source.name file))
  -- the file is known from here on, so its number is that of a loaded file
  have hlt : file + 1 ≤ files.length := (List.getElem?_eq_some_iff.mp hfile).1
  have htokens : ∀ token ∈ Token.tokenize file source.text, PointsBelow (file + 1) token.loc :=
    fun token htoken => loc_of_mem_tokenize htoken
  have hrun := runsFrom_expandChecked (hsplice (file + 1)) htokens
    (s := { s with files, events := s.events.push (.loading source.name file) }) hlt
  refine ⟨?_, fun herror => ?_⟩
  · rw [MovesFrom, heq]
    exact hloaded.trans hrun.moves
  · rw [heq] at herror
    exact hrun.fails herror

/-- A file is expanded within loaded files, or cannot be loaded: then the error stands where the
file was asked for. -/
theorem moves_expandWithin (provider : Provider) (including : Option String) (depth : Nat)
    (loc : Option Location) (name : String) (s : State) :
    MovesFrom id (Moves provider) s (expandWithin provider including depth loc name) ∧
    ∀ e s', expandWithin provider including depth loc name s = .error e s' →
      PointsBelow s'.files.length e.loc ∨ e.loc = loc ∧ (depth = 0 ∨
        ∃ reason, provider.load s.queries ⟨including, name⟩ = .error reason ∧
          e.value = .inclusion name reason) := by
  induction depth generalizing including loc name s with
  | zero =>
    refine ⟨.throw _, fun e s' h => .inr ?_⟩
    cases h
    exact ⟨rfl, .inl rfl⟩
  | succ depth ih =>
    have hasked : ReflTransGen (Moves provider) s
        { s with queries := ⟨including, name⟩ :: s.queries } := .single (.asked _)
    rw [MovesFrom, expandWithin_succ]
    cases hload : provider.load s.queries ⟨including, name⟩ with
    | error reason =>
      refine ⟨hasked, fun e s' h => .inr ?_⟩
      cases h
      exact ⟨rfl, .inr ⟨reason, rfl, rfl⟩⟩
    | ok source =>
      have hsplice : ∀ n loc name, PointsBelow n loc → ∀ s, n ≤ s.files.length →
          RunsFrom provider s (expandWithin provider (some source.name) depth loc name) := by
        intro n loc' name' hloc' t ht
        obtain ⟨hmoves, hfails⟩ := ih (some source.name) loc' name' t
        refine ⟨hmoves, fun {t' e} h => ?_⟩
        rcases hfails e t' h with hbelow | ⟨heq, -⟩
        · exact hbelow
        · rw [MovesFrom, h] at hmoves
          rw [heq]
          exact hloc'.mono (Nat.le_trans ht (length_files_le hmoves))
      have hanswered : Answered provider (⟨including, name⟩ :: s.queries) source.name :=
        ⟨⟨including, name⟩, s.queries, source, List.suffix_refl _, hload, rfl⟩
      have hrun := runsFrom_expandSource hsplice
        (s := { s with queries := ⟨including, name⟩ :: s.queries }) hanswered
      exact ⟨hasked.trans hrun.moves, fun e s' h => .inl (hrun.fails h)⟩

/-! ### Whole expansions -/

theorem Moves.items_cases (h : Moves provider s s') : s'.items = s.items ∨
    ∃ item, s'.items = s.items.push item ∧ Item.IsSource item ∧
      PointsBelow s.files.length item.loc ∧ (item.value = .lineEnd → s.atLineStart = false) := by
  cases h with
  | emitted item hsource hloc hline => exact .inr ⟨item, rfl, hsource, hloc, hline⟩
  | _ => exact .inl rfl

/-- **An expansion emits items of the sources only.** -/
theorem isSource_of_run {provider : Provider} {root : String} {s s' : State}
    {items : List (Located Item)} (hs : s.items = #[]) (h : run provider root s = .ok items s') :
    ∀ item ∈ items, Item.IsSource item := by
  obtain ⟨t, hfile, rfl, -⟩ := run_eq_ok h
  obtain ⟨hmoves, -⟩ := moves_expandWithin provider none (maxDepth - s.depth) none root s
  rw [MovesFrom, hfile] at hmoves
  have hall := keeps_of_reflTransGen
    (P := fun s : State => ∀ item ∈ s.items, Item.IsSource item) hmoves ?_ (by simp [hs])
  · intro item hitem
    exact hall item (Array.mem_toList_iff.mp hitem)
  · intro before after hmove hbefore item hitem
    rcases hmove.items_cases with heq | ⟨added, heq, hadded, -⟩
    · rw [heq] at hitem
      exact hbefore item hitem
    · rw [heq] at hitem
      rcases Array.mem_push.mp hitem with hold | rfl
      · exact hbefore item hold
      · exact hadded

/-- What holds of the items and files of a state that an expansion has reached. -/
structure Sound (provider : Provider) (s : State) : Prop where
  /-- The items stand in loaded files. -/
  placed : ∀ item ∈ s.items, PointsBelow s.files.length item.loc
  /-- The items do not begin with the end of a line. -/
  started : ∀ item, s.items[0]? = some item → item.value ≠ .lineEnd
  /-- The files have the names of sources that were given. -/
  named : ∀ name ∈ s.files, Answered provider s.queries name

theorem Answered.cons {queries : List Query} {name : String}
    (h : Answered provider queries name) (query : Query) :
    Answered provider (query :: queries) name := by
  obtain ⟨asked, earlier, source, hsuffix, hload, hname⟩ := h
  exact ⟨asked, earlier, source, hsuffix.trans (List.suffix_cons _ _), hload, hname⟩

theorem Sound.moves (h : Sound provider s) (hmove : Moves provider s s') : Sound provider s' where
  placed item hitem := by
    have hle := length_files_le (.single hmove)
    rcases hmove.items_cases with heq | ⟨added, heq, -, hloc, -⟩
    · rw [heq] at hitem
      exact (h.placed item hitem).mono hle
    · rw [heq] at hitem
      rcases Array.mem_push.mp hitem with hold | rfl
      · exact (h.placed item hold).mono hle
      · exact hloc.mono hle
  started item hitem := by
    rcases hmove.items_cases with heq | ⟨added, heq, -, -, hline⟩
    · rw [heq] at hitem
      exact h.started item hitem
    · rw [heq, Array.getElem?_push] at hitem
      split at hitem
      · next hempty =>
        obtain rfl : added = item := by simpa using hitem
        -- nothing was emitted before, so this is the start of a line
        have hstart : s.atLineStart = true := by
          have hnil : s.items = #[] := Array.eq_empty_of_size_eq_zero hempty.symm
          simp [State.atLineStart, hnil]
        intro hend
        rw [hline hend] at hstart
        cases hstart
      · exact h.started item hitem
  named name hname := by
    cases hmove with
    | asked query => exact (h.named name hname).cons query
    | numbered new hnew =>
      rcases List.mem_append.mp hname with hold | hlast
      · exact h.named name hold
      · rw [List.mem_singleton.mp hlast]
        exact hnew
    | _ => exact h.named name hname

/-- An expansion that begins with nothing stays sound, whether or not it fails. -/
theorem sound_expandWithin (provider : Provider) (including : Option String) (depth : Nat)
    (loc : Option Location) (name : String) (constants : Table Constant) :
    Sound provider
      (stateAfter (expandWithin provider including depth loc name { constants := constants })) := by
  obtain ⟨hmoves, -⟩ :=
    moves_expandWithin provider including depth loc name { constants := constants }
  refine keeps_of_reflTransGen hmoves (fun s s' hmove h => h.moves hmove) ?_
  exact ⟨by simp, by simp, by simp⟩

end StackAsm.Expansion
