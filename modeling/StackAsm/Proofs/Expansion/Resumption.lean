import StackAsm.Proofs.Expansion.LineStart
import StackAsm.Proofs.Expansion.Emission

/-!
# Items left over

A run that fails leaves what it has emitted in the state, and the next run emits behind it. What is
left over is looked at in one place only: at the end of a line, whether there is anything to be
ended. So a run goes the same way as if nothing had been left over, to the same end. It emits the
same items, and in front of them at most the end of the line that was left open (`Continues`).
Besides the items only constants and the numbers of files matter, for files in a table.
-/

namespace StackAsm.Expansion

variable {left fresh items : List (Located Item)} {s t : State}

/-! ### Items behind others -/

/-- The items are `left` and then `fresh`. Between them there may be the end of a line, if `left`
does not close with one. -/
def Continues (left fresh items : List (Located Item)) : Prop :=
  ∃ gap, items = left ++ gap ++ fresh ∧ (gap = [] ∨ ∃ loc last,
    gap = [⟨loc, .lineEnd⟩] ∧ left.getLast? = some last ∧ last.value ≠ .lineEnd)

theorem continues_nil (left : List (Located Item)) : Continues left [] left :=
  ⟨[], by simp, .inl rfl⟩

theorem Continues.concat (h : Continues left fresh items) (item : Located Item) :
    Continues left (fresh ++ [item]) (items ++ [item]) := by
  obtain ⟨gap, rfl, hgap⟩ := h
  exact ⟨gap, by simp, hgap⟩

/-- Behind a whole line nothing is put in between. -/
theorem Continues.eq_append (h : Continues left fresh items)
    (hleft : ∀ item ∈ left.getLast?, item.value = .lineEnd) : items = left ++ fresh := by
  obtain ⟨gap, rfl, rfl | ⟨loc, last, -, hlast, hopen⟩⟩ := h
  · simp
  · exact absurd (hleft last hlast) hopen

/-- With fresh items there, the last item is one of them. -/
theorem Continues.getLast? (h : Continues left fresh items) (hfresh : fresh ≠ []) :
    items.getLast? = fresh.getLast? := by
  obtain ⟨gap, rfl, -⟩ := h
  rw [List.getLast?_append_of_ne_nil _ hfresh]

/-! ### Runs side by side -/

/-- The states have the same constants and files, and the items of the second stand behind `left`
in the first. -/
structure State.Resumes (left : List (Located Item)) (s t : State) : Prop where
  constants : s.constants = t.constants
  files : s.files = t.files
  items : Continues left t.items.toList s.items.toList

/-- An expansion behind the items `left` and one without them. -/
def resuming (left : List (Located Item)) : Correspondence where
  state := State.Resumes left
  place := Eq
  failed e s outcome := ∃ t, outcome = some (e, t) ∧ s.Resumes left t
  constants_eq h := h.constants
  revalued _ h := ⟨rfl, h.files, h.items⟩
  reported _ h := ⟨h.constants, h.files, h.items⟩
  thrown {s t e e'} h he := by
    obtain rfl : e = e' := he.eq he.loc
    exact ⟨t, rfl, h⟩
  free h := by
    obtain ⟨t, hnone, -⟩ := h
    cases hnone

theorem State.Resumes.push (h : s.Resumes left t) (item : Located Item) :
    State.Resumes left { s with items := s.items.push item }
      { t with items := t.items.push item } := by
  refine ⟨h.constants, h.files, ?_⟩
  simpa using h.items.concat item

/-- The end of a line closes the line that was left open, or both lines, or none. -/
theorem State.Resumes.endLine (h : s.Resumes left t) (loc : Option Location) :
    (s.endLine loc).Resumes left (t.endLine loc) := by
  by_cases hfresh : t.items.toList = []
  · have ht : t.atLineStart = true := by
      rw [atLineStart_iff_getLast?, hfresh]
      simp
    by_cases hs : s.atLineStart = true
    · simpa [State.endLine, hs, ht] using h
    · obtain ⟨gap, hitems, rfl | ⟨loc', last, rfl, -⟩⟩ := h.items
      · rw [hfresh, List.append_nil, List.append_nil] at hitems
        refine ⟨?_, ?_, [⟨loc, .lineEnd⟩], ?_, .inr ?_⟩
        · simpa [State.endLine, hs, ht] using h.constants
        · simpa [State.endLine, hs, ht] using h.files
        · simp [State.endLine, hs, ht, hitems, hfresh]
        · rw [atLineStart_iff_getLast?, hitems] at hs
          simp only [Option.mem_def, not_forall] at hs
          obtain ⟨last, hlast, hopen⟩ := hs
          exact ⟨loc, last, rfl, hlast, hopen⟩
      · -- what was left open was closed before
        exfalso
        apply hs
        rw [atLineStart_iff_getLast?, hitems, hfresh]
        simp
  · have hstart : s.atLineStart = t.atLineStart := by
      rw [Bool.eq_iff_iff, atLineStart_iff_getLast?, atLineStart_iff_getLast?,
        h.items.getLast? hfresh]
    unfold State.endLine
    rw [hstart]
    split
    · exact h
    · exact h.push _

theorem emits_resuming (left : List (Located Item)) : (resuming left).Emits where
  emitted {s t item item'} h hitem _ _ := by
    obtain rfl : item = item' := hitem.eq hitem.loc
    exact State.Resumes.push h item
  ended {s t loc loc'} h hloc := by
    obtain rfl : loc = loc' := hloc
    exact State.Resumes.endLine h loc

/-! ### Files -/

theorem inStep_fileNumber (left : List (Located Item)) (name : String) :
    InStep (resuming left) Eq (fileNumber name) (fileNumber name) := by
  refine .get_bind fun s t hst => ?_
  have hfiles : s.files = t.files := hst.files
  rw [hfiles]
  dsimp only
  cases t.files.idxOf? name with
  | some file => exact .pure rfl
  | none =>
    refine InStep.bind (.modify fun s t hst => ?_) fun _ _ _ => .pure rfl
    refine ⟨hst.constants, ?_, hst.items⟩
    simp only [hst.files]

/-- A file in a table is found whatever was asked for before. -/
theorem inStep_ask (left : List (Located Item)) (files : Table String) (query : Query) :
    InStep (resuming left) Eq (ask (.ofTable files) query) (ask (.ofTable files) query) := by
  refine .get_bind fun s t hst => ?_
  refine InStep.bind (.modify fun s t hst => ?_) fun _ _ _ => .pure rfl
  exact ⟨hst.constants, hst.files, hst.items⟩

theorem inStep_loading (left : List (Located Item)) (name : String) (file : Nat) :
    InStep (resuming left) (fun _ _ => True) (report (.loading name file))
      (report (.loading name file)) :=
  .modify fun _ _ hst => ⟨hst.constants, hst.files, hst.items⟩

/-- Files are expanded behind items that are left over as they are without them. -/
theorem inStep_expandWithin_resuming (left : List (Located Item)) (files : Table String)
    (including : Option String) (depth : Nat) (loc : Option Location) (name : String) :
    InStep (resuming left) (fun _ _ => True)
      (expandWithin (.ofTable files) including depth loc name)
      (expandWithin (.ofTable files) including depth loc name) := by
  induction depth generalizing including loc name with
  | zero => exact .throwAt rfl
  | succ depth ih =>
    refine (inStep_ask left files ⟨including, name⟩).bind fun answer _ hanswer => ?_
    subst hanswer
    cases answer with
    | error reason => exact .throwAt rfl
    | ok source =>
      refine (inStep_fileNumber left source.name).bind fun file _ hfile => ?_
      subst hfile
      refine (inStep_loading left source.name file).bind fun _ _ _ => ?_
      refine inStep_expandChecked (emits_resuming left) ?_
        (List.forall₂_same.mpr fun _ _ => ⟨rfl, rfl⟩)
      rintro loc _ other rfl
      exact ih (some source.name) loc other

/-! ### Whole runs -/

/-- The outcomes of a run behind the items `left` and of one without them. -/
inductive SameBehind (left : List (Located Item)) :
    EStateM.Result (Located Error) State (List (Located Item)) →
    EStateM.Result (Located Error) State (List (Located Item)) → Prop where
  /-- Both succeed and hand over all items, those left over in front. -/
  | ok {items fresh : List (Located Item)} {s t : State} (hitems : Continues left fresh items)
      (hconstants : s.constants = t.constants) (hfiles : s.files = t.files)
      (hs : s.items = #[]) (ht : t.items = #[]) : SameBehind left (.ok items s) (.ok fresh t)
  /-- Both fail in the same way, and the items stay. -/
  | error (e : Located Error) {s t : State} (hitems : Continues left t.items.toList s.items.toList)
      (hconstants : s.constants = t.constants) (hfiles : s.files = t.files) :
      SameBehind left (.error e s) (.error e t)

/-- **Runs leave nothing behind but constants, files and items.** From any state, such as one in
which earlier runs have failed, a run has the same outcome as from a state with the same constants,
files and depth but without items: it succeeds or fails in the same way, and its items stand behind
those that were left over, where at most the end of a line is put in between. The depth is then what
it was before, wherever the run has failed. -/
theorem run_resumes (files : Table String) (root : String) {s t : State}
    (hconstants : s.constants = t.constants) (hfiles : s.files = t.files)
    (hdepth : s.depth = t.depth) (ht : t.items = #[]) :
    SameBehind s.items.toList (run (.ofTable files) root s) (run (.ofTable files) root t) ∧
      (stateAfter (run (.ofTable files) root s)).depth = s.depth := by
  refine ⟨?_, depth_run _ root s⟩
  have hstate : s.Resumes s.items.toList t := by
    refine ⟨hconstants, hfiles, ?_⟩
    rw [ht]
    exact continues_nil _
  have hstep := inStep_expandWithin_resuming s.items.toList files none (maxDepth - s.depth) none
    root s t hstate
  cases hrun : expandWithin (.ofTable files) none (maxDepth - s.depth) none root s with
  | ok _ s' =>
    rw [hrun] at hstep
    obtain ⟨_, t', hrun', -, hafter⟩ := hstep
    rw [hdepth] at hrun'
    rw [run_of_expandWithin hrun, run_of_expandWithin hrun']
    exact .ok hafter.items hafter.constants hafter.files rfl rfl
  | error e s' =>
    rw [hrun] at hstep
    obtain ⟨t', hfailed, hafter⟩ := hstep
    cases hrun' : expandWithin (.ofTable files) none (maxDepth - s.depth) none root t with
    | ok _ u =>
      rw [hrun'] at hfailed
      cases hfailed
    | error e' u =>
      rw [hrun'] at hfailed
      cases hfailed
      rw [hdepth] at hrun'
      rw [run_of_failed hrun, run_of_failed hrun']
      exact .error e hafter.items hafter.constants hafter.files

/-- A file that fails two files further in, in the middle of a line, and a file that starts with an
empty line. -/
def interruptedFiles : Table String :=
  ⟨[("main", "#include \"outer\"\nnever"), ("outer", "first\n#include \"inner\"\n"),
    ("inner", "#if Level\nsecond Level )\n#endif"), ("next", "\n#ifdef Level\nlast\n#endif")]⟩

/-- After a run that was interrupted inside a block of an included file, the line that it left open
is ended in front of what the next run emits. -/
theorem run_resumes_interrupted :
    ∃ e s, run (.ofTable interruptedFiles) "main" (State.define {} "Level" (.number 3)) =
        .error e s ∧
      s.items.toList.map (·.value) = [.word "first", .lineEnd, .word "second", .number 3] ∧
      (∃ items s', run (.ofTable interruptedFiles) "next" s = .ok items s' ∧
        items.map (·.value) = [.word "first", .lineEnd, .word "second", .number 3, .lineEnd,
          .word "last", .lineEnd]) ∧
      SameBehind s.items.toList (run (.ofTable interruptedFiles) "next" s)
        (run (.ofTable interruptedFiles) "next"
          { constants := s.constants, files := s.files }) ∧
      (stateAfter (run (.ofTable interruptedFiles) "next" s)).depth = s.depth := by
  have hvalues : (match run (.ofTable interruptedFiles) "main"
        (State.define {} "Level" (.number 3)) with
      | .ok _ _ => none
      | .error _ s =>
        match run (.ofTable interruptedFiles) "next" s with
        | .ok items _ => some (s.items.toList.map (·.value), items.map (·.value))
        | .error _ _ => none) =
      some ([.word "first", .lineEnd, .word "second", .number 3],
        [.word "first", .lineEnd, .word "second", .number 3, .lineEnd, .word "last",
          .lineEnd]) := by
    decide +kernel
  cases hrun : run (.ofTable interruptedFiles) "main" (State.define {} "Level" (.number 3)) with
  | ok items s =>
    rw [hrun] at hvalues
    cases hvalues
  | error e s =>
    have hdepth : s.depth = 0 := by
      have hafter := depth_run (.ofTable interruptedFiles) "main"
        (State.define {} "Level" (.number 3))
      rw [hrun] at hafter
      exact hafter
    rw [hrun] at hvalues
    cases hnext : run (.ofTable interruptedFiles) "next" s with
    | error e' s' =>
      simp only [hnext] at hvalues
      cases hvalues
    | ok items s' =>
      simp only [hnext, Option.some.injEq, Prod.mk.injEq] at hvalues
      refine ⟨e, s, rfl, hvalues.1, ⟨items, s', hnext, hvalues.2⟩, ?_⟩
      exact run_resumes interruptedFiles "next" rfl rfl hdepth rfl

end StackAsm.Expansion
