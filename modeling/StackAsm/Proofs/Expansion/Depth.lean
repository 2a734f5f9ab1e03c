import StackAsm.Proofs.Expansion.Correspondence

/-!
# Files one inside the other

How deep a file stands is a part of the state: it counts up in front of the tokens of a file and
down behind them, also behind those of a file that fails. Nothing else looks at it, so an expansion
is the same if the depth is left alone and every file is told how many more may stand inside of it
instead (`expandWithin`). In this form files are looked at by induction on that number. It follows
that `levels` never decides anything (`expandFile_eq`), and that after a run, failed or not, the
depth is what it was before (`depth_run`).
-/

namespace StackAsm.Expansion

/-! ### Sources -/

/-- A file gets the number that its name has; a new name is put at the end. -/
theorem fileNumber_apply (name : String) (s : State) : ∃ file files,
    fileNumber name s = .ok file { s with files } ∧ files[file]? = some name ∧
    (files = s.files ∨ files = s.files ++ [name]) := by
  have hget : (get : Expand State) s = .ok s s := rfl
  rw [fileNumber, estate_bind_of_ok hget]
  cases hfile : s.files.idxOf? name with
  | some file =>
    obtain ⟨hlt, hname, -⟩ := List.idxOf?_eq_some_iff.mp hfile
    exact ⟨file, s.files, rfl, List.getElem?_eq_some_iff.mpr ⟨hlt, hname⟩, .inl rfl⟩
  | none => exact ⟨s.files.length, s.files ++ [name], rfl, by simp, .inr rfl⟩

/-- Expands a source that was loaded. -/
def expandSource (splice : Option Location → String → Expand Unit) (source : Source) :
    Expand Unit := do
  let file ← fileNumber source.name
  report (.loading source.name file)
  expandChecked splice (Token.tokenize file source.text)

theorem expandSource_apply (splice : Option Location → String → Expand Unit) (source : Source)
    (s : State) : ∃ file files, files[file]? = some source.name ∧
      (files = s.files ∨ files = s.files ++ [source.name]) ∧
      expandSource splice source s = expandChecked splice (Token.tokenize file source.text)
        { s with files, events := s.events.push (.loading source.name file) } := by
  obtain ⟨file, files, hnumber, hfile, hfiles⟩ := fileNumber_apply source.name s
  refine ⟨file, files, hfile, hfiles, ?_⟩
  rw [expandSource, estate_bind_of_ok hnumber]
  rfl

/-! ### Depth as an argument -/

/-- Expands the file `name`, which is asked for at `loc` of the file `including`, where files may
include each other `depth` deep. -/
def expandWithin (provider : Provider) (including : Option String) (depth : Nat)
    (loc : Option Location) (name : String) : Expand Unit :=
  match depth with
  | 0 => throw ⟨loc, .inclusionTooDeep name⟩
  | depth + 1 => do
    match ← ask provider ⟨including, name⟩ with
    | .error reason => throw ⟨loc, .inclusion name reason⟩
    | .ok source => expandSource (expandWithin provider (some source.name) depth) source

theorem expandWithin_succ (provider : Provider) (including : Option String) (depth : Nat)
    (loc : Option Location) (name : String) (s : State) :
    expandWithin provider including (depth + 1) loc name s =
      match provider.load s.queries ⟨including, name⟩ with
      | .error reason =>
        .error ⟨loc, .inclusion name reason⟩ { s with queries := ⟨including, name⟩ :: s.queries }
      | .ok source => expandSource (expandWithin provider (some source.name) depth) source
        { s with queries := ⟨including, name⟩ :: s.queries } := by
  show (match provider.load s.queries ⟨including, name⟩ with
    | .error reason => throw ⟨loc, .inclusion name reason⟩
    | .ok source => expandSource (expandWithin provider (some source.name) depth) source :
      Expand Unit) { s with queries := ⟨including, name⟩ :: s.queries } = _
  cases provider.load s.queries ⟨including, name⟩ with
  | error reason => rfl
  | ok source => rfl

/-! ### Nothing looks at the depth -/

/-- The second expansion does what the first does at the depth `d`, from the same state at the depth
`d'`. -/
def atDepths (d d' : Nat) : Correspondence where
  state s t := s.depth = d ∧ t = { s with depth := d' }
  place := Eq
  failed e s outcome := s.depth = d ∧ outcome = some (e, { s with depth := d' })
  constants_eq h := by rw [h.2]
  revalued constants h := by
    obtain ⟨hd, rfl⟩ := h
    exact ⟨hd, rfl⟩
  reported hevent h := by
    obtain ⟨hd, rfl⟩ := h
    refine ⟨hd, ?_⟩
    cases hevent with
    | preDirective name hloc => rw [hloc]
    | _ => rfl
  thrown h he := by
    obtain ⟨hd, rfl⟩ := h
    obtain rfl := he.eq he.loc
    exact ⟨hd, rfl⟩
  free h := by cases h.2

theorem endLine_atDepth (s : State) (loc : Option Location) (d : Nat) :
    (s.endLine loc).depth = s.depth ∧
      ({ s with depth := d } : State).endLine loc = { s.endLine loc with depth := d } := by
  have hstart : ({ s with depth := d } : State).atLineStart = s.atLineStart := rfl
  unfold State.endLine
  rw [hstart]
  split
  · exact ⟨rfl, rfl⟩
  · exact ⟨rfl, rfl⟩

theorem emits_atDepths (d d' : Nat) : (atDepths d d').Emits where
  emitted h hitem _ _ := by
    obtain ⟨hd, rfl⟩ := h
    obtain rfl := hitem.eq hitem.loc
    exact ⟨hd, rfl⟩
  ended h hloc := by
    obtain ⟨hd, rfl⟩ := h
    obtain rfl := hloc
    obtain ⟨hkept, hend⟩ := endLine_atDepth _ _ d'
    exact ⟨hkept.trans hd, hend⟩

section

variable {d d' : Nat}

theorem inStep_ask_atDepths (provider : Provider) (query : Query) :
    InStep (atDepths d d') Eq (ask provider query) (ask provider query) := by
  refine .get_bind fun s t hst => ?_
  obtain ⟨-, rfl⟩ := hst
  refine (InStep.modify ?_).bind fun _ _ _ => .pure rfl
  rintro u _ ⟨hd, rfl⟩
  exact ⟨hd, rfl⟩

theorem inStep_fileNumber_atDepths (name : String) :
    InStep (atDepths d d') Eq (fileNumber name) (fileNumber name) := by
  refine .get_bind fun s t hst => ?_
  obtain ⟨-, rfl⟩ := hst
  dsimp only
  cases s.files.idxOf? name with
  | some file => exact .pure rfl
  | none =>
    refine (InStep.modify ?_).bind fun _ _ _ => .pure rfl
    rintro u _ ⟨hd, rfl⟩
    exact ⟨hd, rfl⟩

theorem inStep_expandSource_atDepths {splice splice' : Option Location → String → Expand Unit}
    (hsplice : ∀ loc name,
      InStep (atDepths d d') (fun _ _ => True) (splice loc name) (splice' loc name))
    (source : Source) :
    InStep (atDepths d d') (fun _ _ => True) (expandSource splice source)
      (expandSource splice' source) := by
  refine (inStep_fileNumber_atDepths source.name).bind fun file _ hfile => ?_
  obtain rfl := hfile
  refine (InStep.modify ?_).bind fun _ _ _ => ?_
  · rintro u _ ⟨hd, rfl⟩
    exact ⟨hd, rfl⟩
  · refine inStep_expandChecked (emits_atDepths d d') ?_
      (List.forall₂_same.mpr fun token _ => ⟨rfl, rfl⟩)
    rintro loc _ name rfl
    exact hsplice loc name

/-- Told how many files may stand inside of it, a file does not look at the depth. -/
theorem inStep_expandWithin_atDepths (provider : Provider) (including : Option String) (depth : Nat)
    (loc : Option Location) (name : String) :
    InStep (atDepths d d') (fun _ _ => True) (expandWithin provider including depth loc name)
      (expandWithin provider including depth loc name) := by
  induction depth generalizing including loc name with
  | zero => exact .throw ⟨rfl, rfl⟩
  | succ depth ih =>
    refine (inStep_ask_atDepths provider ⟨including, name⟩).bind fun answer _ hanswer => ?_
    obtain rfl := hanswer
    cases answer with
    | error reason => exact .throw ⟨rfl, rfl⟩
    | ok source => exact inStep_expandSource_atDepths (ih (some source.name)) source

end

/-! ### The depth in the state -/

/-- One file deeper and back is the same as to stay. -/
theorem nested_eq {x y : Expand Unit} {s : State}
    (h : InStep (atDepths (s.depth + 1) s.depth) (fun _ _ => True) x y) : nested x s = y s := by
  have hstep := h { s with depth := s.depth + 1 } s ⟨rfl, rfl⟩
  unfold nested
  cases hx : x { s with depth := s.depth + 1 } with
  | ok _ s' =>
    rw [hx] at hstep
    obtain ⟨⟨⟩, t, ht, -, hd, rfl⟩ := hstep
    rw [ht]
    dsimp only
    rw [hd]
    rfl
  | error e s' =>
    rw [hx] at hstep
    obtain ⟨hd, hfailed⟩ := hstep
    cases hy : y s with
    | ok _ t =>
      rw [hy] at hfailed
      cases hfailed
    | error e' t =>
      rw [hy] at hfailed
      cases hfailed
      dsimp only
      rw [hd]
      rfl

/-- The tokens of a file stand one deeper, and of the files in it there may be one less inside the
other. -/
theorem nested_expandTokens {provider : Provider} {levels : Nat} {s : State}
    (hfile : ∀ including loc name t, maxDepth < levels + t.depth →
      expandFile provider levels including loc name t =
        expandWithin provider including (maxDepth - t.depth) loc name t)
    (hlevels : maxDepth < levels + (s.depth + 1)) (name : String)
    (tokens : List (Located Token)) :
    nested (expandTokens (expandFile provider levels (some name)) tokens) s =
      expandTokens (expandWithin provider (some name) (maxDepth - (s.depth + 1))) tokens s := by
  refine nested_eq (inStep_expandTokens (emits_atDepths _ _) ?_
    (List.forall₂_same.mpr fun token _ => ⟨rfl, rfl⟩))
  rintro loc _ other rfl t _ ⟨ht, rfl⟩
  rw [hfile (some name) loc other t (ht ▸ hlevels), ht]
  exact inStep_expandWithin_atDepths provider _ _ loc other t _ ⟨ht, rfl⟩

/-- A file may hold as many more files as the depth leaves, and the number of levels decides
nothing. -/
theorem expandFile_eq (provider : Provider) {levels : Nat} (including : Option String)
    (loc : Option Location) (name : String) {s : State} (h : maxDepth < levels + s.depth) :
    expandFile provider levels including loc name s =
      expandWithin provider including (maxDepth - s.depth) loc name s := by
  induction levels generalizing including loc name s with
  | zero =>
    have hnone : maxDepth - s.depth = 0 := by omega
    rw [hnone]
    rfl
  | succ levels ih =>
    have hget : (get : Expand State) s = .ok s s := rfl
    rw [expandFile, estate_bind_of_ok hget]
    by_cases hdeep : maxDepth ≤ s.depth
    · have hnone : maxDepth - s.depth = 0 := by omega
      rw [if_pos hdeep, hnone]
      rfl
    · have hleft : maxDepth - s.depth = maxDepth - (s.depth + 1) + 1 := by omega
      let queries := ⟨including, name⟩ :: s.queries
      have hask : ask provider ⟨including, name⟩ s =
          .ok (provider.load s.queries ⟨including, name⟩) { s with queries } := rfl
      rw [if_neg hdeep, hleft, expandWithin, estate_bind_of_ok hask, estate_bind_of_ok hask]
      cases provider.load s.queries ⟨including, name⟩ with
      | error reason => rfl
      | ok source =>
        obtain ⟨file, files, hnumber, -⟩ := fileNumber_apply source.name { s with queries }
        have hreport : report (.loading source.name file) { s with queries, files } = .ok ()
            { s with queries, files, events := s.events.push (.loading source.name file) } := rfl
        dsimp only
        rw [expandSource, estate_bind_of_ok hnumber, estate_bind_of_ok hnumber,
          estate_bind_of_ok hreport, estate_bind_of_ok hreport, expandChecked]
        cases hlexed : expectLexed (Token.tokenize file source.text)
          { s with queries, files, events := s.events.push (.loading source.name file) } with
        | error e t => simp only [Bind.bind, EStateM.bind, hlexed]
        | ok _ t =>
          obtain ⟨-, rfl⟩ := expectLexed_eq_ok.mp hlexed
          rw [estate_bind_of_ok hlexed, estate_bind_of_ok hlexed]
          refine nested_expandTokens (fun _ _ _ t ht => ih _ _ _ ht) ?_ source.name _
          dsimp only
          omega

/-! ### Whole expansions -/

variable {provider : Provider} {root : String} {s s' t : State}

/-- In front of a run, the depth says how deep its files may stand. -/
theorem expandFile_root (provider : Provider) (root : String) (s : State) :
    expandFile provider (maxDepth + 1) none none root s =
      expandWithin provider none (maxDepth - s.depth) none root s :=
  expandFile_eq provider none none root (by omega)

theorem run_eq_ok {items : List (Located Item)} (h : run provider root s = .ok items s') :
    ∃ t, expandWithin provider none (maxDepth - s.depth) none root s = .ok () t ∧
      items = t.items.toList ∧
      s' = { t with
        items := #[], events := t.events.push (.expanded t.files.length t.items.size) } := by
  obtain ⟨_, t, hfile, h⟩ := estate_bind_eq_ok.mp h
  rw [expandFile_root] at hfile
  obtain ⟨t₁, _, hget, h⟩ := estate_bind_eq_ok.mp h
  cases hget
  obtain ⟨_, t₂, hreport, h⟩ := estate_bind_eq_ok.mp h
  cases hreport
  obtain ⟨_, t₃, hmodify, h⟩ := estate_bind_eq_ok.mp h
  cases hmodify
  cases h
  exact ⟨t, hfile, rfl, rfl⟩

theorem run_of_expandWithin
    (h : expandWithin provider none (maxDepth - s.depth) none root s = .ok () t) :
    run provider root s = .ok t.items.toList
      { t with items := #[], events := t.events.push (.expanded t.files.length t.items.size) } := by
  rw [← expandFile_root] at h
  rw [run, estate_bind_of_ok h]
  rfl

/-- A run fails where the file does. -/
theorem run_of_failed {e : Located Error}
    (h : expandWithin provider none (maxDepth - s.depth) none root s = .error e t) :
    run provider root s = .error e t := by
  rw [← expandFile_root] at h
  simp only [run, Bind.bind, EStateM.bind, h]

/-- After a file, failed or not, the depth is what it was before. -/
theorem depth_expandWithin (provider : Provider) (including : Option String) (depth : Nat)
    (loc : Option Location) (name : String) (s : State) :
    (stateAfter (expandWithin provider including depth loc name s)).depth = s.depth := by
  have hwithin : InStep (atDepths s.depth s.depth) (fun _ _ => True)
      (expandWithin provider including depth loc name)
      (expandWithin provider including depth loc name) :=
    inStep_expandWithin_atDepths provider including depth loc name
  have hstep := hwithin s s ⟨rfl, rfl⟩
  cases hrun : expandWithin provider including depth loc name s with
  | ok _ s' =>
    rw [hrun] at hstep
    obtain ⟨_, _, -, -, hd, -⟩ := hstep
    exact hd
  | error e s' =>
    rw [hrun] at hstep
    exact hstep.1

/-- After a run, failed or not, the depth is what it was before. -/
theorem depth_run (provider : Provider) (root : String) (s : State) :
    (stateAfter (run provider root s)).depth = s.depth := by
  have hdepth := depth_expandWithin provider none (maxDepth - s.depth) none root s
  cases hfile : expandWithin provider none (maxDepth - s.depth) none root s with
  | ok _ t =>
    rw [hfile] at hdepth
    rw [run_of_expandWithin hfile]
    exact hdepth
  | error e t =>
    rw [hfile] at hdepth
    rw [run_of_failed hfile]
    exact hdepth

end StackAsm.Expansion
