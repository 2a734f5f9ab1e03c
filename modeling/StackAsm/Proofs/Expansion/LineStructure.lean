import StackAsm.Proofs.Expansion.NormalForm
import StackAsm.Proofs.Expansion.Resumption
import Mathlib.Data.List.Chain

/-!
# Lines of sources and lines of items

Every line of a source brings its own end, and directives stand on lines of their own. So lines are
emitted one by one, from the start of a line to the start of a line, and an included file comes
between two of them. Each line of the items is all that one line of a loaded source emits
(`LineOf`): no line is joined with another or split, be it the last one of an included file, next to
a block, or with nothing left on it.
-/

namespace StackAsm.Expansion

open Relation

variable {provider : Provider} {files files' : List String} {queries queries' : List Query}
  {s s' t : State}

/-! ### What a line emits -/

/-- At most one item is added. It stands at `loc` and does not end a line. -/
def AddsAt (loc : Option Location) (s s' : State) : Prop :=
  s' = s ∨ ∃ item, item ≠ .lineEnd ∧ s' = { s with items := s.items.push ⟨loc, item⟩ }

theorem addsAt_of_emit {loc : Option Location} (item : Item) (hitem : item ≠ .lineEnd)
    (h : emit loc item s = .ok () s') : AddsAt loc s s' := by
  cases h
  exact .inr ⟨item, hitem, rfl⟩

theorem addsAt_of_emitConstant {loc : Option Location} (value : Constant)
    (h : emitConstant loc value s = .ok () s') : AddsAt loc s s' := by
  cases value with
  | empty =>
    cases h
    exact .inl rfl
  | number n => exact addsAt_of_emit (.number n) (by simp) h
  | text content => exact addsAt_of_emit (.text content) (by simp) h

theorem addsAt_of_emitToken {token : Located Token} (hvalue : token.value ≠ .lineEnd)
    (h : emitToken token s = .ok () s') : AddsAt token.loc s s' := by
  obtain ⟨loc, value⟩ := token
  cases value with
  | lineEnd => exact absurd rfl hvalue
  | word name =>
    rw [emitToken_word] at h
    split at h
    · next value _ => exact addsAt_of_emitConstant value h
    · exact addsAt_of_emit (.word name) (by simp) h
  | number digits =>
    rw [emitToken_number] at h
    split at h
    · next n _ => exact addsAt_of_emit (.number n) (by simp) h
    · cases h
  | hex digits =>
    rw [emitToken_hex] at h
    split at h
    · next n _ => exact addsAt_of_emitConstant (.number n) h
    · cases h
  | char c => exact addsAt_of_emitConstant (.number (Int64.ofNat c.toNat)) h
  | text content => exact addsAt_of_emitConstant (.text content) h
  | directive name => exact addsAt_of_emit (.directive (Text.lowercase name)) (by simp) h
  | separator c => exact addsAt_of_emit (.separator c) (by simp) h
  | bracketOpen => exact addsAt_of_emit .bracketOpen (by simp) h
  | bracketClose => exact addsAt_of_emit .bracketClose (by simp) h
  | operator op => exact addsAt_of_emit (.operator op) (by simp) h
  | comment content =>
    cases h
    exact .inl rfl
  | escape c =>
    cases h
    exact .inl rfl
  | _ => cases h

/-- The place is on this line of the file. -/
def IsOn (file number : Nat) (loc : Option Location) : Prop :=
  ∃ column, loc = some ⟨file, number, column⟩

/-- From `s` to `t` items of one line of a file were emitted, without its end. -/
structure Lengthens (file number : Nat) (s t : State) : Prop where
  files : t.files = s.files
  queries : t.queries = s.queries
  items : ∃ added, t.items.toList = s.items.toList ++ added ∧
    ∀ item ∈ added, item.value ≠ .lineEnd ∧ IsOn file number item.loc

section

variable {file number : Nat}

theorem Lengthens.refl (s : State) : Lengthens file number s s :=
  ⟨rfl, rfl, [], by simp, by simp⟩

theorem Lengthens.addsAt {loc : Option Location} (h : Lengthens file number s t)
    (hloc : IsOn file number loc) (hadds : AddsAt loc t s') : Lengthens file number s s' := by
  rcases hadds with rfl | ⟨item, hitem, rfl⟩
  · exact h
  · obtain ⟨added, hitems, hadded⟩ := h.items
    refine ⟨h.files, h.queries, added ++ [⟨loc, item⟩], by simp [hitems], ?_⟩
    intro other hother
    rcases List.mem_append.mp hother with hold | hnew
    · exact hadded other hold
    · rw [List.mem_singleton.mp hnew]
      exact ⟨hitem, hloc⟩

theorem indifferent_lengthens (s : State) : Indifferent (Lengthens file number s) :=
  ⟨fun _ _ h => ⟨h.files, h.queries, h.items⟩, fun _ _ h => ⟨h.files, h.queries, h.items⟩⟩

/-- Tokens of a line are emitted without ending it, up to the end of the line. -/
theorem exists_lengthens {tokens words : List (Located Token)} {last : Located Token}
    (htokens : tokens = words ++ [last]) (hlast : last.value = .lineEnd)
    (hwords : ∀ token ∈ words, token.value ≠ .lineEnd ∧ IsOn file number token.loc)
    (hs : Lengthens file number s t) (h : emitTokens tokens t = .ok () s') :
    ∃ u, Lengthens file number s u ∧ s' = u.endLine last.loc := by
  induction tokens using emitTokens.induct generalizing words t with
  | case1 => simp at htokens
  | case2 token rest hopen ih =>
    rw [emitTokens, if_pos hopen] at h
    obtain ⟨p, t₁, hvalue, h⟩ := estate_bind_eq_ok.mp h
    obtain ⟨_, t₂, hconstant, h⟩ := estate_bind_eq_ok.mp h
    obtain ⟨taken, left, rfl, hlength, htaken⟩ :=
      Expression.taken_of_evaluate (evaluate_eq_ok hvalue)
    cases words with
    | nil =>
      obtain ⟨rfl, -⟩ := List.cons.inj htokens
      rw [hopen] at hlast
      cases hlast
    | cons word words =>
      obtain ⟨rfl, hrest⟩ := List.cons.inj htokens
      obtain ⟨hword, hwords⟩ := List.forall_mem_cons.mp hwords
      have hend : last ∉ taken := fun hmem => (htaken last hmem).1 hlast
      obtain ⟨words', rfl, rfl⟩ := exists_eq_append_of_notMem hrest.symm hend
      refine ih p.2 ?_ (fun token htoken => hwords token (List.mem_append_right _ htoken)) ?_ h
      · rw [← hlength, List.drop_left]
      · have hfolded := keeps_evaluate (indifferent_lengthens s) token _ t p t₁ hs hvalue
        exact hfolded.addsAt hword.2 (addsAt_of_emitConstant p.1 hconstant)
  | case3 token rest hopen ih =>
    rw [emitTokens, if_neg hopen] at h
    obtain ⟨_, t₁, hinline, h⟩ := estate_bind_eq_ok.mp h
    have htoken := (emitInLine_eq_ok hinline).2
    cases words with
    | nil =>
      obtain ⟨rfl, rfl⟩ := List.cons.inj htokens
      rw [emitTokens] at h
      cases h
      rw [emitToken, hlast] at htoken
      have heq : EStateM.Result.ok () (t.endLine token.loc) = .ok () s' :=
        (emitLineEnd_apply token.loc t).symm.trans htoken
      cases heq
      exact ⟨t, hs, rfl⟩
    | cons word words =>
      obtain ⟨rfl, hrest⟩ := List.cons.inj htokens
      obtain ⟨hword, hwords⟩ := List.forall_mem_cons.mp hwords
      refine ih hrest hwords ?_ h
      exact hs.addsAt hword.2 (addsAt_of_emitToken hword.1 htoken)

/-- A line emits its items and then its end. -/
theorem exists_lengthens_lineTokens {cs : List Char}
    (h : emitTokens (Token.lineTokens file number cs) s = .ok () s') :
    ∃ t loc, Lengthens file number s t ∧ IsOn file number loc ∧ s' = t.endLine loc := by
  have hcovers := Token.covers_lineTokens file number cs
  obtain ⟨words, htokens, hwords⟩ := hcovers.ended
  have hplaced : ∀ token ∈ words, token.value ≠ .lineEnd ∧ IsOn file number token.loc := by
    intro token htoken
    refine ⟨hwords token htoken, hcovers.located token ?_⟩
    rw [htokens]
    exact List.mem_append_left _ htoken
  obtain ⟨t, ht, hs'⟩ := exists_lengthens htokens rfl hplaced (.refl s) h
  exact ⟨t, _, ht, ⟨_, rfl⟩, hs'⟩

end

/-! ### Lines of items -/

/-- A source that was given in answer to one of the queries has this number. -/
structure Loaded (provider : Provider) (files : List String) (queries : List Query) (file : Nat)
    (source : Source) : Prop where
  numbered : files[file]? = some source.name
  given : ∃ query earlier, (query :: earlier) <:+ queries ∧ provider.load earlier query = .ok source

theorem Loaded.mono {file : Nat} {source : Source} (h : Loaded provider files queries file source)
    (hfiles : files <+: files') (hqueries : queries <:+ queries') :
    Loaded provider files' queries' file source := by
  obtain ⟨query, earlier, hsuffix, hload⟩ := h.given
  refine ⟨?_, query, earlier, hsuffix.trans hqueries, hload⟩
  obtain ⟨more, rfl⟩ := hfiles
  rw [List.getElem?_append_left (List.getElem?_eq_some_iff.mp h.numbered).1]
  exact h.numbered

/-- The items are those of one line of a loaded source, the `k`-th from zero. -/
structure LineOf (provider : Provider) (files : List String) (queries : List Query) (file k : Nat)
    (line : List (Located Item)) : Prop where
  /-- They are all that is emitted for the tokens of the line. -/
  whole : ∃ source cs t t', Loaded provider files queries file source ∧
    (Token.lines source.text.toList)[k]? = some cs ∧ t.items = #[] ∧
    emitTokens (Token.lineTokens file (k + 1) cs) t = .ok () t' ∧ t'.items.toList = line
  /-- All of them carry the file and the number of the line. -/
  placed : ∀ item ∈ line, IsOn file (k + 1) item.loc
  /-- There is something on the line, and then its end. -/
  closed : ∃ content loc, line = content ++ [⟨loc, .lineEnd⟩] ∧ Item.IsLine content

section

variable {file k : Nat} {line : List (Located Item)}

theorem LineOf.mono (h : LineOf provider files queries file k line) (hfiles : files <+: files')
    (hqueries : queries <:+ queries') : LineOf provider files' queries' file k line := by
  obtain ⟨source, cs, t, t', hloaded, hemit⟩ := h.whole
  exact ⟨⟨source, cs, t, t', hloaded.mono hfiles hqueries, hemit⟩, h.placed, h.closed⟩

/-- A line of a loaded source emits a line of items, if it emits any. -/
theorem lineOf_of_emitTokens {source : Source} {cs : List Char}
    (hloaded : Loaded provider files queries file source)
    (hcs : (Token.lines source.text.toList)[k]? = some cs) (hs : s.items = #[])
    (h : emitTokens (Token.lineTokens file (k + 1) cs) s = .ok () s')
    (hne : s'.items.toList ≠ []) : LineOf provider files queries file k s'.items.toList := by
  obtain ⟨t, loc, ht, hloc, rfl⟩ := exists_lengthens_lineTokens h
  obtain ⟨added, hitems, hadded⟩ := ht.items
  rw [hs, List.nil_append] at hitems
  -- with nothing on the line it would not have been ended, and there would be no items
  have hopen : ¬t.atLineStart = true := by
    intro hstart
    rw [State.endLine, if_pos hstart, hitems] at hne
    rw [atLineStart_iff_getLast?, hitems, List.getLast?_eq_some_getLast hne] at hstart
    exact (hadded _ (List.getLast_mem hne)).1 (hstart _ rfl)
  have hline : (t.endLine loc).items.toList = added ++ [⟨loc, .lineEnd⟩] := by
    rw [State.endLine, if_neg hopen, Array.toList_push, hitems]
  refine ⟨⟨source, cs, s, _, hloaded, hcs, hs, h, rfl⟩, ?_, added, loc, hline, ?_, ?_⟩
  · rw [hline, List.forall_mem_append]
    exact ⟨fun item hitem => (hadded item hitem).2, by simpa using hloc⟩
  · rintro rfl
    apply hopen
    rw [atLineStart_iff_getLast?, hitems]
    simp
  · exact fun item hitem => (hadded item hitem).1

end

/-- The items of the state are lines of the sources loaded so far. -/
def MadeOfLines (provider : Provider) (s : State) : Prop :=
  ∃ lines : List (List (Located Item)), s.items.toList = lines.flatten ∧
    ∀ line ∈ lines, ∃ file k, LineOf provider s.files s.queries file k line

namespace MadeOfLines

theorem getLast? (h : MadeOfLines provider s) :
    ∀ item ∈ s.items.toList.getLast?, item.value = .lineEnd := by
  obtain ⟨lines, hitems, hlines⟩ := h
  rw [hitems]
  rcases List.eq_nil_or_concat lines with rfl | ⟨front, line, rfl⟩
  · simp
  · obtain ⟨file, k, hline⟩ := hlines line (by simp)
    obtain ⟨content, loc, rfl, -⟩ := hline.closed
    simp

theorem mono (h : MadeOfLines provider s) (hitems : s'.items = s.items)
    (hfiles : s.files <+: s'.files) (hqueries : s.queries <:+ s'.queries) :
    MadeOfLines provider s' := by
  obtain ⟨lines, heq, hlines⟩ := h
  refine ⟨lines, by rw [hitems, heq], fun line hmem => ?_⟩
  obtain ⟨file, k, hline⟩ := hlines line hmem
  exact ⟨file, k, hline.mono hfiles hqueries⟩

theorem concat {file k : Nat} {line : List (Located Item)} (h : MadeOfLines provider s)
    (hline : LineOf provider s.files s.queries file k line)
    (hitems : s'.items.toList = s.items.toList ++ line) (hfiles : s'.files = s.files)
    (hqueries : s'.queries = s.queries) : MadeOfLines provider s' := by
  obtain ⟨lines, heq, hlines⟩ := h
  refine ⟨lines ++ [line], by simp [hitems, heq], ?_⟩
  rw [hfiles, hqueries, List.forall_mem_append]
  exact ⟨hlines, by simpa using ⟨file, k, hline⟩⟩

end MadeOfLines

/-! ### Lines and files -/

/-- The items are lines, and one of the files is being expanded. -/
structure Within (provider : Provider) (file : Nat) (source : Source) (s : State) : Prop where
  lines : MadeOfLines provider s
  loaded : Loaded provider s.files s.queries file source

theorem indifferent_within (provider : Provider) (file : Nat) (source : Source) :
    Indifferent (Within provider file source) :=
  ⟨fun _ _ h => ⟨h.lines, h.loaded⟩, fun _ _ h => ⟨h.lines, h.loaded⟩⟩

/-- A line of the file adds one line of items, or none. -/
theorem keeps_emitTokens_lineTokens {file k : Nat} {source : Source} {cs : List Char}
    (hcs : (Token.lines source.text.toList)[k]? = some cs) :
    Keeps (Within provider file source) (emitTokens (Token.lineTokens file (k + 1) cs)) := by
  intro s _ s' hs h
  obtain ⟨hfiles, hqueries⟩ : s'.files = s.files ∧ s'.queries = s.queries := by
    obtain ⟨t, loc, ht, -, rfl⟩ := exists_lengthens_lineTokens h
    unfold State.endLine
    split
    · exact ⟨ht.files, ht.queries⟩
    · exact ⟨ht.files, ht.queries⟩
  -- before it a line starts, so it emits what it emits where there are no items yet
  have halone : s.Resumes s.items.toList { s with items := #[] } := ⟨rfl, rfl, continues_nil _⟩
  obtain ⟨_, t, ht, -, hafter⟩ := (inStep_emitTokens (emits_resuming s.items.toList)
    (List.forall₂_same.mpr fun _ _ => ⟨rfl, rfl⟩)).exists_ok halone h
  have hitems := hafter.items.eq_append hs.lines.getLast?
  refine ⟨?_, by rw [hfiles, hqueries]; exact hs.loaded⟩
  by_cases hempty : t.items.toList = []
  · rw [hempty, List.append_nil] at hitems
    exact hs.lines.mono (Array.toList_inj.mp hitems) (by simp [hfiles]) (by simp [hqueries])
  · exact hs.lines.concat (lineOf_of_emitTokens hs.loaded hcs rfl ht hempty) hitems hfiles hqueries

/-- Files are expanded line by line. -/
theorem keeps_expandWithin_madeOfLines (provider : Provider) (including : Option String)
    (depth : Nat) (loc : Option Location) (name : String) :
    Keeps (MadeOfLines provider) (expandWithin provider including depth loc name) := by
  induction depth generalizing including loc name with
  | zero => nofun
  | succ depth ih =>
    intro s _ s' hs h
    rw [expandWithin_succ] at h
    cases hload : provider.load s.queries ⟨including, name⟩ with
    | error reason =>
      rw [hload] at h
      cases h
    | ok source =>
      rw [hload] at h
      obtain ⟨file, files, hfile, hfiles, heq⟩ := expandSource_apply
        (expandWithin provider (some source.name) depth) source
        { s with queries := ⟨including, name⟩ :: s.queries }
      dsimp only at h
      rw [heq] at h
      obtain ⟨-, hlines⟩ := expandChecked_eq_ok_iff.mp h
      have hsplice : ∀ loc other, Keeps (Within provider file source)
          (expandWithin provider (some source.name) depth loc other) := by
        intro loc other t _ t' ht hrun
        obtain ⟨hmoves, -⟩ := moves_expandWithin provider (some source.name) depth loc other t
        rw [MovesFrom, hrun] at hmoves
        exact ⟨ih (some source.name) loc other t () t' ht.lines hrun,
          ht.loaded.mono (files_grow hmoves) (queries_grow hmoves)⟩
      have hwithin := indifferent_within provider file source
      refine (keeps_expandLines hwithin hsplice ?_ [] _ [] s' ?_ hlines).lines
      · intro tokens htokens
        obtain ⟨k, cs, hcs, rfl⟩ := exists_lineTokens_of_content htokens
        exact keeps_emitTokens_lineTokens hcs
      · refine ⟨hs.mono rfl ?_ (List.suffix_cons _ _), hfile, _, _, List.suffix_refl _, hload⟩
        rcases hfiles with rfl | rfl
        · exact List.prefix_refl _
        · exact List.prefix_append _ _

/-! ### Whole expansions -/

/-- The items come in lines, which are those of the sources that were loaded. -/
structure InLines (provider : Provider) (files : List String) (queries : List Query)
    (items : List (Located Item)) : Prop where
  /-- The first item does not end a line. -/
  starts : ∀ item ∈ items.head?, item.value ≠ .lineEnd
  /-- No line is empty. -/
  apart : items.IsChain fun item next => ¬(item.value = .lineEnd ∧ next.value = .lineEnd)
  /-- The last item ends a line. -/
  ends : ∀ item ∈ items.getLast?, item.value = .lineEnd
  /-- Up to its end, each line is one line of a source, and all of it. -/
  lines : ∃ lines : List (List (Located Item)), items = lines.flatten ∧
    ∀ line ∈ lines, ∃ file k, LineOf provider files queries file k line

theorem LineOf.head? {file k : Nat} {line : List (Located Item)}
    (h : LineOf provider files queries file k line) :
    ∃ item, line.head? = some item ∧ item.value ≠ .lineEnd := by
  obtain ⟨content, loc, rfl, hcontent⟩ := h.closed
  obtain ⟨item, rest, rfl⟩ := List.exists_cons_of_ne_nil hcontent.nonempty
  exact ⟨item, rfl, hcontent.noEnd item List.mem_cons_self⟩

theorem LineOf.isChain {file k : Nat} {line : List (Located Item)}
    (h : LineOf provider files queries file k line) :
    line.IsChain fun item next => ¬(item.value = .lineEnd ∧ next.value = .lineEnd) := by
  obtain ⟨content, loc, rfl, hcontent⟩ := h.closed
  refine List.Pairwise.isChain (List.pairwise_append.mpr ⟨?_, by simp, ?_⟩)
  · refine List.pairwise_of_forall_mem_list fun item hitem next _ hends => ?_
    exact hcontent.noEnd item hitem hends.1
  · intro item hitem next _ hends
    exact hcontent.noEnd item hitem hends.1

theorem MadeOfLines.inLines (h : MadeOfLines provider s) :
    InLines provider s.files s.queries s.items.toList := by
  have hends := h.getLast?
  obtain ⟨lines, hitems, hlines⟩ := h
  rw [hitems] at hends ⊢
  refine ⟨?_, ?_, hends, lines, rfl, hlines⟩
  · cases lines with
    | nil => simp
    | cons line lines =>
      obtain ⟨file, k, hline⟩ := hlines line List.mem_cons_self
      obtain ⟨first, hfirst, hvalue⟩ := hline.head?
      rw [List.flatten_cons, List.head?_append, hfirst]
      simpa using hvalue
  · have hne : [] ∉ lines := by
      intro hmem
      obtain ⟨file, k, hline⟩ := hlines [] hmem
      obtain ⟨first, hfirst, -⟩ := hline.head?
      cases hfirst
    refine (List.isChain_flatten hne).mpr ⟨fun line hmem => ?_, ?_⟩
    · obtain ⟨file, k, hline⟩ := hlines line hmem
      exact hline.isChain
    · -- behind the end of a line there is something on the next one
      refine List.Pairwise.isChain (List.pairwise_of_forall_mem_list fun line _ next hnext => ?_)
      obtain ⟨file, k, hline⟩ := hlines next hnext
      obtain ⟨first, hfirst, hvalue⟩ := hline.head?
      intro last _ item hitem hboth
      obtain rfl : first = item := Option.some.inj (hfirst.symm.trans hitem)
      exact hvalue hboth.2

/-- **Lines stay lines.** If an expansion succeeds, its items do not begin with the end of a line,
no two ends of lines stand side by side, and the last item ends a line. The items up to the end of a
line carry the same file and line number: they are all that this line emits, and nothing else is
among them, whichever files were included and whichever blocks left out around it. -/
theorem run_inLines {root : String} {constants : Table Constant} {items : List (Located Item)}
    (h : run provider root { constants } = .ok items s) :
    InLines provider s.files s.queries items := by
  obtain ⟨t, hfile, rfl, rfl⟩ := run_eq_ok h
  have hlines : MadeOfLines provider t :=
    keeps_expandWithin_madeOfLines provider none maxDepth none root _ () t ⟨[], rfl, by simp⟩ hfile
  exact hlines.inLines

/-- A file that is included in a block and does not close its last line, and lines with nothing on
them or nothing left on them. -/
def brokenFiles : Table String :=
  ⟨[("main", "first N ; note\n\n#if N\n#include \"part\"\n#endif\nGone ; too\nlast (N + 1), x"),
    ("part", "\r\none\r\n#ifdef Other\nno\n#endif\n  two: Gone")]⟩

def brokenConstants : Table Constant := ⟨[("N", .number 2), ("Gone", .empty)]⟩

/-- What is emitted for these files, with the numbers of the file and of the line. -/
def brokenItems : List (Option (Nat × Nat) × Item) :=
  [(some (0, 1), .word "first"), (some (0, 1), .number 2), (some (0, 1), .lineEnd),
    (some (1, 2), .word "one"), (some (1, 2), .lineEnd),
    (some (1, 6), .word "two"), (some (1, 6), .separator ':'), (some (1, 6), .lineEnd),
    (some (0, 7), .word "last"), (some (0, 7), .number 3), (some (0, 7), .separator ','),
    (some (0, 7), .word "x"), (some (0, 7), .lineEnd)]

/-- The lines around the included file and its own lines stay apart. -/
theorem run_inLines_broken :
    ∃ items s, run (.ofTable brokenFiles) "main" { constants := brokenConstants } = .ok items s ∧
      items.map (fun item => (item.loc.map fun loc => (loc.file, loc.line), item.value)) =
        brokenItems ∧
      InLines (.ofTable brokenFiles) s.files s.queries items := by
  have hitems : (match run (.ofTable brokenFiles) "main" { constants := brokenConstants } with
      | .ok items _ => items.map fun item =>
        (item.loc.map fun loc => (loc.file, loc.line), item.value)
      | .error _ _ => []) = brokenItems := by
    decide +kernel
  cases hrun : run (.ofTable brokenFiles) "main" { constants := brokenConstants } with
  | error e s =>
    rw [hrun] at hitems
    cases hitems
  | ok items s =>
    rw [hrun] at hitems
    exact ⟨items, s, rfl, hitems, run_inLines hrun⟩

end StackAsm.Expansion
