import StackAsm.Proofs.Expansion.Written

/-!
# To include a file is to splice it in

A line that includes a file can be replaced by the text of the file. The included file has a stack
of blocks of its own and stands one level deeper, but neither shows: its blocks are closed within
it, and files that may be nested deeper than before are expanded as before. The line may also stand
where nothing is expanded; then the text has to be passed over, which it can be if it was expanded
at least once (`Whole`).
-/

namespace StackAsm.Expansion

variable {splice splice' : Option Location → String → Expand Unit} {frames frames' : Frames}
  {s s' t : State}

/-! ### Texts that were expanded -/

/-- The text has well-formed tokens and nested blocks, and all its lines can be passed over. -/
structure Whole (cs : List Char) : Prop where
  lexed : Lexed cs
  nested : ∃ tree : Section, (Token.lines cs).map .unplaced = tree.lines
  passable : ∀ line ∈ (Token.lines cs).map Line.unplaced, line.Passable

theorem whole_of_expandChecked {cs : List Char}
    (h : expandChecked splice (unplacedTokens cs) s = .ok () s') : Whole cs := by
  obtain ⟨hfind, hlines⟩ := expandChecked_eq_ok_iff.mp h
  rw [sourceLines_unplacedTokens] at hlines
  exact ⟨find?_unplacedTokens.mp hfind, completes_of_expandLines hlines,
    passable_of_expandLines hlines⟩

/-- Where nothing is expanded, a whole text is passed over. -/
theorem Whole.expandLines_written {cs : List Char} (h : Whole cs)
    (hsplice : ∀ loc name, Starts (splice loc name)) (hframes : frames.isActive = false)
    (hs : s.atLineStart = true) :
    ∃ s', s.Agrees s' ∧ expandLines splice frames (written cs) s = .ok frames s' := by
  obtain ⟨tree, htree⟩ := h.nested
  obtain ⟨s', hpass⟩ := tree.succeeds_pass (htree ▸ h.passable) s
  have houtput := tree.idle_pass.output_eq s
  rw [hpass] at houtput
  refine ⟨s', ⟨congrArg (·.1) houtput.symm, congrArg (·.2.2.map (·.value)) houtput.symm⟩, ?_⟩
  rw [Expansion.expandLines_written hsplice hs, htree, expandLines_pass frames hframes tree,
    estate_bind_of_ok hpass]
  rfl

/-- Lines that close all their blocks are expanded in open blocks as they are outside of any. -/
theorem expandLines_of_nil {lines : List Line} (h : expandLines splice [] lines s = .ok [] s')
    (hframes : frames.isActive = true) : expandLines splice frames lines s = .ok frames s' := by
  obtain ⟨tree, rfl⟩ : ∃ tree : Section, lines = tree.lines := completes_of_expandLines h
  rw [expandLines_execute [] rfl] at h
  obtain ⟨_, s₁, htree, h⟩ := estate_bind_eq_ok.mp h
  cases h
  rw [expandLines_execute frames hframes, estate_bind_of_ok htree]
  rfl

/-! ### Files that were asked for -/

/-- The file is there, and whole. -/
def Settled (files : Table String) (name : String) : Prop :=
  ∃ text, files.get? name = some text ∧ Whole text.toList

/-- An expansion beside itself that has settled every file it asked for after `earlier`. -/
def asking (files : Table String) (earlier : List Query) : Correspondence :=
  keeping (fun s => ∀ query ∈ s.queries, query ∈ earlier ∨ Settled files query.name)
    (fun _ _ h => h) fun _ _ h => h

theorem emits_asking (files : Table String) (earlier : List Query) :
    (asking files earlier).Emits where
  emitted h hitem _ _ := by
    obtain ⟨rfl, hs⟩ := h
    obtain rfl := hitem.eq hitem.loc
    exact ⟨rfl, hs⟩
  ended h hloc := by
    obtain ⟨rfl, hs⟩ := h
    obtain rfl : _ = _ := hloc
    refine ⟨rfl, ?_⟩
    unfold State.endLine
    split
    · exact hs
    · exact hs

/-- Every file that is asked for on the way is whole, if all goes well. -/
theorem settled_expandWithin {files : Table String} {including : Option String} {depth : Nat}
    {loc : Option Location} {name : String}
    (h : expandWithin (.ofTable files) including depth loc name s = .ok () s') :
    ∀ query ∈ s'.queries, query ∈ s.queries ∨ Settled files query.name := by
  induction depth generalizing including loc name s s' with
  | zero => cases h
  | succ depth ih =>
    obtain ⟨text, htext⟩ := exists_get?_of_expandWithin h
    obtain ⟨t, -, ht⟩ := unplaced_of_expandWithin htext h
    obtain ⟨tokens, s₁, -, -, hqueries, heq⟩ := expandWithin_ofTable htext including depth loc s
    rw [heq] at h
    have hsplice : ∀ loc loc' other, (asking files s₁.queries).place loc loc' →
        InStep (asking files s₁.queries) (fun _ _ => True)
          (expandWithin (.ofTable files) (some name) depth loc other)
          (expandWithin (.ofTable files) (some name) depth loc' other) := by
      rintro loc _ other rfl
      refine Keeps.inStep fun before _ after hbefore hrun query hquery => ?_
      rcases ih hrun query hquery with hold | hsettled
      · exact hbefore query hold
      · exact .inr hsettled
    have htokens : List.Forall₂ (Located.Alike Eq) tokens tokens :=
      List.forall₂_same.mpr fun _ _ => ⟨rfl, rfl⟩
    have hfile := inStep_expandChecked (emits_asking files s₁.queries) hsplice htokens
    intro query hquery
    rcases hfile.keeps s₁ () s' (fun _ => .inl) h query hquery with hold | hsettled
    · rw [hqueries] at hold
      rcases List.mem_cons.mp hold with rfl | hold
      · exact .inr ⟨text, htext, whole_of_expandChecked ht⟩
      · exact .inl hold
    · exact .inr hsettled

/-! ### Between lines -/

/-- Two expansions with the same outcome, at the start of a line. -/
def betweenLines : Correspondence where
  state s t := s.Agrees t ∧ s.atLineStart = true
  place := anywhere
  failed _ _ _ := True
  constants_eq h := h.1.constants
  revalued _ h := ⟨⟨rfl, h.1.items⟩, h.2⟩
  reported _ h := ⟨⟨h.1.constants, h.1.items⟩, h.2⟩
  thrown _ _ := trivial
  free _ _ := trivial

theorem atLineStart_of_betweenLines (h : betweenLines.state s t) : t.atLineStart = true := by
  rw [← h.1.atLineStart_eq]
  exact h.2

theorem State.Agrees.betweenLines {u : State} (h : s.Agrees t)
    (h' : Expansion.betweenLines.state t u) : Expansion.betweenLines.state s u := by
  refine ⟨h.trans h'.1, ?_⟩
  rw [h.atLineStart_eq]
  exact h'.2

theorem inStep_expandLine_betweenLines
    (hsplice : ∀ loc loc' name,
      InStep betweenLines (fun _ _ => True) (splice loc name) (splice' loc' name))
    {line : Line} (hline : line.Ended)
    (hframes : List.Forall₂ (Frame.Alike anywhere) frames frames') :
    InStep betweenLines (List.Forall₂ (Frame.Alike anywhere)) (expandLine splice frames line)
      (expandLine splice' frames' line) := by
  have hsame (tokens : List (Located Token)) :
      List.Forall₂ (Located.Alike anywhere) tokens tokens := alike_anywhere rfl
  cases line with
  | directive line =>
    exact inStep_run (fun loc loc' name _ => hsplice loc loc' name)
      ⟨trivial, rfl, hsame line.arguments⟩ hframes
  | content tokens =>
    have hactive : frames.isActive = frames'.isActive := isActive_alike (c := elsewhere) hframes
    unfold expandLine
    dsimp only
    rw [← hactive]
    split
    · refine InStep.bind (R := fun _ _ => True) ?_ fun _ _ _ => .pure hframes
      -- in the middle of the line the outcomes agree, and after it a line starts
      refine .of_ok (fun _ _ _ => trivial) fun s t hst _ s' hemit => ?_
      obtain ⟨_, t', ht, -, hst'⟩ :=
        (inStep_emitTokens emits_elsewhere (hsame tokens)).exists_ok hst.1 hemit
      exact ⟨_, t', ht, trivial, hst', atLineStart_emitTokens hline hemit⟩
    · exact (inStep_skipTokens (hsame tokens)).bind fun _ _ _ => .pure hframes

theorem inStep_expandLines_betweenLines
    (hsplice : ∀ loc loc' name,
      InStep betweenLines (fun _ _ => True) (splice loc name) (splice' loc' name))
    {lines : List Line} (hlines : ∀ line ∈ lines, line.Ended)
    (hframes : List.Forall₂ (Frame.Alike anywhere) frames frames') :
    InStep betweenLines (List.Forall₂ (Frame.Alike anywhere)) (expandLines splice frames lines)
      (expandLines splice' frames' lines) := by
  induction lines generalizing frames frames' with
  | nil => exact .pure hframes
  | cons line lines ih =>
    obtain ⟨hline, hrest⟩ := List.forall_mem_cons.mp hlines
    refine (inStep_expandLine_betweenLines hsplice hline hframes).bind fun _ _ hafter => ?_
    exact ih hrest hafter

/-! ### Lines that include a file -/

/-- The line that includes the file `name`, standing nowhere. -/
def Line.including (name : String) : Line :=
  .directive ⟨none, "include", [.nowhere (.text name)]⟩

/-- A line of `text` that includes the file `name`. -/
structure Inclusion (name : String) (text : List Char) where
  /-- What stands before the line. -/
  before : List Char
  line : List Char
  /-- The end of the line, if it has one. -/
  ending : List Char
  /-- What stands after the line and its end. -/
  after : List Char
  text_eq : text = before ++ (line ++ (ending ++ after))
  starts : before = [] ∨ ∃ front c, before = front ++ [c] ∧ Token.isInLine c = false
  inLine : Token.InLine line
  ends : Token.LineEnding ending after ∨ ending = [] ∧ after = []
  reads : Line.unplaced line = .including name

namespace Inclusion

variable {name : String} {text : List Char} (inclusion : Inclusion name text)
  {included newline : List Char}

/-- The text with the line and its end replaced by an included text and line ends. -/
def inlined (included newline : List Char) : List Char :=
  inclusion.before ++ (included ++ (newline ++ inclusion.after))

theorem filled_before_append (cs : List Char) :
    Token.filled (inclusion.before ++ cs) = Token.filled inclusion.before ++ Token.filled cs := by
  rcases inclusion.starts with hnil | ⟨front, c, heq, hc⟩
  · rw [hnil, Token.filled_nil]
    rfl
  · rw [heq, List.append_assoc, List.singleton_append, Token.filled_append_cons front hc,
      Token.filled_append_cons front hc, Token.filled_nil, List.append_nil]

theorem filled_text : Token.filled text =
    Token.filled inclusion.before ++ (inclusion.line :: Token.filled inclusion.after) := by
  have hne : inclusion.line ≠ [] := by
    intro hnil
    have hreads := inclusion.reads
    rw [hnil, Line.unplaced, Token.lexemes_nil] at hreads
    cases hreads
  have hline : Token.filled inclusion.line = [inclusion.line] := by
    rw [Token.filled_of_inLine inclusion.inLine]
    simp [hne]
  rw [congrArg Token.filled inclusion.text_eq, filled_before_append]
  congr 1
  rcases inclusion.ends with hending | ⟨hending, hafter⟩
  · rw [Token.filled_append_ends _ hending.lineEnds, hline]
    rfl
  · rw [hending, hafter, List.append_nil, List.append_nil, hline, Token.filled_nil]

theorem filled_inlined (h : Token.LineEnds newline) :
    Token.filled (inclusion.inlined included newline) =
      Token.filled inclusion.before ++ (Token.filled included ++ Token.filled inclusion.after) := by
  rw [inlined, filled_before_append, Token.filled_append_ends included h]

theorem written_text : written text =
    written inclusion.before ++ (.including name :: written inclusion.after) := by
  rw [written, inclusion.filled_text, List.map_append, List.map_cons, inclusion.reads,
    List.filter_append, List.filter_cons_of_pos rfl]
  rfl

theorem written_inlined (h : Token.LineEnds newline) :
    written (inclusion.inlined included newline) =
      written inclusion.before ++ (written included ++ written inclusion.after) := by
  rw [written, inclusion.filled_inlined h, List.map_append, List.map_append,
    List.filter_append, List.filter_append]
  rfl

theorem lexed_inlined (h : Token.LineEnds newline) (htext : Lexed text)
    (hincluded : Lexed included) :
    Lexed (inclusion.inlined included newline) := by
  intro line hline
  rw [inclusion.filled_inlined h] at hline
  rw [Lexed, inclusion.filled_text] at htext
  rcases List.mem_append.mp hline with hbefore | hline
  · exact htext line (List.mem_append_left _ hbefore)
  · rcases List.mem_append.mp hline with hline | hafter
    · exact hincluded line hline
    · exact htext line (List.mem_append_right _ (List.mem_cons_of_mem _ hafter))

end Inclusion

/-! ### Inlining -/

/-- Splicing in the file `name` does what the lines written in `included` do by themselves, with
files spliced in that are in step with those of `splice'`. -/
def Unfolds (splice splice' : Option Location → String → Expand Unit) (name : String)
    (included : List Char) : Prop :=
  ∀ loc s s', s.atLineStart = true → splice loc name s = .ok () s' →
    ∃ inner t, s'.Agrees t ∧ expandLines inner [] (written included) s = .ok [] t ∧
      ∀ loc loc' other,
        InStep betweenLines (fun _ _ => True) (inner loc other) (splice' loc' other)

section

variable {name : String} {included : List Char} (hwhole : Whole included)
  (hstarts : ∀ loc other, Starts (splice' loc other))
  (hunfolds : Unfolds splice splice' name included)

include hwhole hstarts hunfolds

/-- A line that includes a file does what is written in the file. -/
theorem inStep_including (hframes : List.Forall₂ (Frame.Alike anywhere) frames frames') :
    InStep betweenLines (List.Forall₂ (Frame.Alike anywhere))
      (expandLine splice frames (.including name))
      (expandLines splice' frames' (written included)) := by
  have hactive : frames.isActive = frames'.isActive := isActive_alike (c := elsewhere) hframes
  refine .of_ok (fun _ _ _ => trivial) fun s t hst after s' hrun => ?_
  rw [Line.including, expandLine_plain rfl] at hrun
  obtain ⟨_, s₁, hannounce, hrun⟩ := estate_bind_eq_ok.mp hrun
  have hst₁ : betweenLines.state s₁ t := by
    cases hannounce
    exact ⟨⟨hst.1.constants, hst.1.items⟩, hst.2⟩
  cases hframe : frames.isActive with
  | false =>
    rw [hframe] at hrun
    cases hrun
    obtain ⟨t', hagrees, ht⟩ := hwhole.expandLines_written hstarts (hactive.symm.trans hframe)
      (atLineStart_of_betweenLines hst)
    exact ⟨frames', t', ht, hframes, hst₁.1.trans hagrees, hst₁.2⟩
  | true =>
    rw [hframe] at hrun
    obtain ⟨_, s₂, hexecute, hrun⟩ := estate_bind_eq_ok.mp hrun
    cases hrun
    have hincluded : splice none name s₁ = .ok () s' := hexecute
    obtain ⟨inner, u, hagrees, hinner, hstep⟩ := hunfolds none s₁ s' hst₁.2 hincluded
    -- the file has closed its blocks, so those around the line do not matter
    have hopen := expandLines_of_nil hinner hframe
    obtain ⟨after', t', ht, hafter, hut⟩ :=
      (inStep_expandLines_betweenLines hstep (fun _ => ended_written) hframes).exists_ok hst₁ hopen
    exact ⟨after', t', ht, hafter, hagrees.betweenLines hut⟩

/-- What is written in a text does the same with the included text in place of the line. -/
theorem inStep_inlined {text newline : List Char} (inclusion : Inclusion name text)
    (hnewline : Token.LineEnds newline)
    (hsplice : ∀ loc loc' other,
      InStep betweenLines (fun _ _ => True) (splice loc other) (splice' loc' other)) :
    InStep betweenLines (List.Forall₂ (Frame.Alike anywhere))
      (expandLines splice [] (written text))
      (expandLines splice' [] (written (inclusion.inlined included newline))) := by
  rw [inclusion.written_text, inclusion.written_inlined hnewline, expandLines_append,
    expandLines_append]
  refine (inStep_expandLines_betweenLines hsplice (fun _ => ended_written) .nil).bind
    fun _ _ hbefore => ?_
  rw [expandLines, expandLines_append]
  refine (inStep_including hwhole hstarts hunfolds hbefore).bind fun _ _ hafter => ?_
  exact inStep_expandLines_betweenLines hsplice (fun _ => ended_written) hafter

end

/-- The text `text'` can stand for `text`, with files spliced in by `splice'` and `splice`. -/
structure StandsFor (splice splice' : Option Location → String → Expand Unit)
    (text text' : List Char) : Prop where
  lexed (h : Lexed text) : Lexed text'
  inStep : InStep betweenLines (List.Forall₂ (Frame.Alike anywhere))
    (expandLines splice [] (written text)) (expandLines splice' [] (written text'))

/-- Files of `files`, which may be nested `depth` deep, are expanded in step with those of `files'`,
which may be nested `depth'` deep. -/
def Follows (files files' : Table String) (depth depth' : Nat) : Prop :=
  ∀ including including' loc loc' name, InStep betweenLines (fun _ _ => True)
    (expandWithin (.ofTable files) including depth loc name)
    (expandWithin (.ofTable files') including' depth' loc' name)

/-- Files can be replaced by texts that stand for theirs. -/
theorem follows_of_standsFor {files files' : Table String}
    (h : ∀ name text, files.get? name = some text → ∃ text', files'.get? name = some text' ∧
      ∀ depth depth', (∀ d ≤ depth, Follows files files' d depth') →
        StandsFor (expandWithin (.ofTable files) (some name) depth)
          (expandWithin (.ofTable files') (some name) depth') text.toList text'.toList)
    {depth depth' : Nat} (hle : depth ≤ depth') : Follows files files' depth depth' := by
  induction depth using Nat.strong_induction_on generalizing depth' with
  | _ depth ih =>
    intro including including' loc loc' name
    refine .of_ok (fun _ _ _ => trivial) fun s t hst _ s' hrun => ?_
    cases depth with
    | zero => cases hrun
    | succ depth =>
      obtain ⟨depth', rfl⟩ : ∃ d, depth' = d + 1 := ⟨depth' - 1, by omega⟩
      obtain ⟨text, htext, hlexed, s₁, hs₁, hlines⟩ := written_of_expandWithin hst.2 hrun
      obtain ⟨text', htext', hstands⟩ := h name text htext
      have hbelow : ∀ d ≤ depth, Follows files files' d depth' :=
        fun d hd => ih d (by omega) (by omega)
      obtain ⟨hlexed', hstep⟩ := hstands depth depth' hbelow
      obtain ⟨_, t₁, ht₁, hframes, hst₁⟩ := hstep.exists_ok hst hlines
      cases hframes
      obtain ⟨t', hagrees, ht'⟩ := expandWithin_of_written (atLineStart_of_betweenLines hst) htext'
        (hlexed' hlexed) including' loc' ht₁
      exact ⟨(), t', ht', trivial, hs₁.betweenLines ⟨hst₁.1.trans hagrees, hst₁.2⟩⟩

section

variable {files : Table String} {file name text content : String}

/-- The files with an included text spliced into `file`. -/
def spliced (files : Table String) (file : String) {name text : String}
    (inclusion : Inclusion name text.toList) (content : String) (newline : List Char) :
    Table String :=
  files.insert file (String.ofList (inclusion.inlined content.toList newline))

/-- **Files are expanded as before when an included file is spliced into one of them**, and may be
nested deeper. -/
theorem follows_spliced (hfile : files.get? file = some text)
    (hname : files.get? name = some content) (hwhole : Whole content.toList)
    (inclusion : Inclusion name text.toList) {newline : List Char}
    (hnewline : Token.LineEnds newline) {depth depth' : Nat} (hle : depth ≤ depth') :
    Follows files (spliced files file inclusion content newline) depth depth' := by
  refine follows_of_standsFor (fun other found hfound => ?_) hle
  have hget : (spliced files file inclusion content newline).get? other =
      if other = file then some (String.ofList (inclusion.inlined content.toList newline))
      else files.get? other := files.get?_insert file other _
  by_cases hother : other = file
  · refine ⟨_, hget.trans (if_pos hother), fun depth depth' hbelow => ?_⟩
    obtain rfl : found = text := by
      rw [hother, hfile] at hfound
      exact (Option.some.inj hfound).symm
    -- before, the includes of the included file stand one level deeper than afterwards
    have hunfolds : Unfolds (expandWithin (.ofTable files) (some other) depth)
        (expandWithin (.ofTable (spliced files file inclusion content newline)) (some other) depth')
        name content.toList := by
      intro loc s s' hs hrun
      cases depth with
      | zero => cases hrun
      | succ depth =>
        obtain ⟨_, hcontent, -, t, hagrees, hlines⟩ := written_of_expandWithin hs hrun
        obtain rfl := Option.some.inj (hname.symm.trans hcontent)
        exact ⟨_, t, hagrees, hlines, hbelow depth (Nat.le_succ depth) (some name) (some other)⟩
    rw [String.toList_ofList]
    refine ⟨fun hlexed => inclusion.lexed_inlined hnewline hlexed hwhole.lexed, ?_⟩
    exact inStep_inlined hwhole (starts_expandWithin _ (some other) depth') hunfolds inclusion
      hnewline (hbelow depth (Nat.le_refl depth) (some other) (some other))
  · refine ⟨found, hget.trans ((if_neg hother).trans hfound), fun depth depth' hbelow => ?_⟩
    refine ⟨id, ?_⟩
    exact inStep_expandLines_betweenLines
      (hbelow depth (Nat.le_refl depth) (some other) (some other)) (fun _ => ended_written) .nil

/-- **To include a file is to splice it in.** If the files of a table are expanded, and on the way
`file` has included `name`, then they are expanded as well with any line of `file` that includes
`name` replaced by the text of `name` and line ends. The items are the same, wherever they stand,
and so are the constants in the end. -/
theorem run_spliced (hfile : files.get? file = some text) (hname : files.get? name = some content)
    (inclusion : Inclusion name text.toList) {newline : List Char}
    (hnewline : Token.LineEnds newline) {root : String} {constants : Table Constant}
    {items : List (Located Item)}
    (hrun : run (.ofTable files) root { constants := constants } = .ok items s)
    (hincluded : ⟨some file, name⟩ ∈ s.queries) :
    ∃ items' s', run (.ofTable (spliced files file inclusion content newline)) root
        { constants := constants } = .ok items' s' ∧
      items'.map (·.value) = items.map (·.value) ∧ s'.constants = s.constants := by
  obtain ⟨t, hexpand, rfl, rfl⟩ := run_eq_ok hrun
  have hsettled := settled_expandWithin hexpand ⟨some file, name⟩ hincluded
  obtain ⟨found, hfound, hwhole⟩ := hsettled.resolve_left List.not_mem_nil
  obtain rfl := Option.some.inj (hname.symm.trans hfound)
  have hfollows := follows_spliced hfile hname hwhole inclusion hnewline (Nat.le_refl maxDepth)
  have hstart : betweenLines.state { constants := constants } { constants := constants } :=
    ⟨.refl _, rfl⟩
  obtain ⟨_, t', hexpand', -, hagrees, -⟩ := (hfollows none none none none root).exists_ok hstart
    hexpand
  refine ⟨_, _, run_of_expandWithin hexpand', ?_, hagrees.constants.symm⟩
  rw [← Array.toList_map, ← Array.toList_map, hagrees.items]

/-- A file that includes another one the first time. -/
def sampleMain : String := "#ifndef B\n  #include \"lib\" ; once\r\n#endif\nx N\n"

/-- The other file, which includes the first one in turn and does not end its last line. -/
def sampleLib : String := "#define B\n#define N 3\n#if N\n#include \"main\"\n#endif"

def sampleFiles : Table String := ⟨[("main", sampleMain), ("lib", sampleLib)]⟩

def sampleInclusion : Inclusion "lib" sampleMain.toList where
  before := "#ifndef B\n".toList
  line := "  #include \"lib\" ; once".toList
  ending := ['\r', '\n']
  after := "#endif\nx N\n".toList
  text_eq := by decide
  starts := .inr ⟨"#ifndef B".toList, '\n', by decide, by decide⟩
  inLine := by decide
  ends := .inl (.both _)
  reads := by decide +kernel

/-- The line is reached twice, the second time where nothing is expanded. -/
theorem run_spliced_sample :
    (spliced sampleFiles "main" sampleInclusion sampleLib ['\n']).get? "main" =
        some ("#ifndef B\n#define B\n#define N 3\n#if N\n#include \"main\"\n#endif\n" ++
          "#endif\nx N\n") ∧
      ∃ items s, run (.ofTable sampleFiles) "main" { constants := {} } = .ok items s ∧
        ⟨some "main", "lib"⟩ ∈ s.queries ∧
        ∃ items' s', run (.ofTable (spliced sampleFiles "main" sampleInclusion sampleLib ['\n']))
            "main" { constants := {} } = .ok items' s' ∧
          items'.map (·.value) = items.map (·.value) ∧ s'.constants = s.constants := by
  refine ⟨by decide +kernel, ?_⟩
  have hnewline : Token.LineEnds ['\n'] := (Token.LineEnding.feed []).lineEnds
  have hok : failure? (run (.ofTable sampleFiles) "main" { constants := {} }) = none := by
    decide +kernel
  have hincluded : ⟨some "main", "lib"⟩ ∈
      (stateAfter (run (.ofTable sampleFiles) "main" { constants := {} })).queries := by
    decide +kernel
  cases hrun : run (.ofTable sampleFiles) "main" { constants := {} } with
  | error e s =>
    rw [hrun] at hok
    cases hok
  | ok items s =>
    rw [hrun] at hincluded
    refine ⟨items, s, rfl, hincluded, ?_⟩
    exact run_spliced (by decide) (by decide) sampleInclusion hnewline hrun hincluded

end

end StackAsm.Expansion
