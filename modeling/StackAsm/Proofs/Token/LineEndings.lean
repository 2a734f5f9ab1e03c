import StackAsm.Proofs.Token.Steps

/-!
# Line ends in their several forms

A text may end its lines in any of three forms, and may mix them. Unified, all of them are line
feeds. A carriage return takes the lexer where a line feed takes it, whatever is being read, and
what the lexer then remembers of it matters only to a line feed, which it passes over without a
change. So the lexer goes through the same states in both texts, and every token is the same and
stands in the same place.
-/

namespace StackAsm.Token

/-! ### Unified texts -/

/-- The text with one line feed for every carriage return and line feed that stand together. -/
def joinPairs : List Char → List Char
  | '\r' :: '\n' :: cs => '\n' :: joinPairs cs
  | c :: cs => c :: joinPairs cs
  | [] => []

/-- The text with a line feed for every line end: for the pairs of characters, and then for every
carriage return that remains. -/
def unified (cs : List Char) : List Char :=
  (joinPairs cs).map fun c => if c = '\r' then '\n' else c

/-- A carriage return before a pair is a line end of its own, and so is one behind a line feed. -/
example :
    unified ['a', '\r', '\r', '\n', 'b', '\n', '\r'] = ['a', '\n', '\n', 'b', '\n', '\n'] := by
  decide

theorem unified_cons {c : Char} {cs : List Char}
    (h : ∀ rest, c = '\r' → cs = '\n' :: rest → False) :
    unified (c :: cs) = (if c = '\r' then '\n' else c) :: unified cs := by
  rw [unified, joinPairs, List.map_cons]
  · rfl
  · exact h

theorem not_mem_unified (cs : List Char) : '\r' ∉ unified cs := by
  intro h
  obtain ⟨c, -, hc⟩ := List.mem_map.mp h
  split at hc
  · cases hc
  · contradiction

/-! ### The states of the lexer -/

namespace Lexer

/-- **The lexer goes through the same states** in a text with unified line ends, where a carriage
return before the text has to be one by itself. -/
theorem foldl_read_unified (cs : List Char) (l : Lexer) (afterReturn : Bool)
    (h : afterReturn = true → cs.head? ≠ some '\n') :
    (cs.foldl read (l, afterReturn)).1 = ((unified cs).foldl read (l, false)).1 := by
  induction cs using joinPairs.induct generalizing l afterReturn with
  | case1 cs ih =>
    -- the pair is one line end: its second character changes nothing
    have hunified : unified ('\r' :: '\n' :: cs) = '\n' :: unified cs := rfl
    rw [hunified, List.foldl_cons, List.foldl_cons, List.foldl_cons, read_eq (by simp) l,
      read_eq (by simp) l, after_return]
    exact ih (l.after '\n') false (by simp)
  | case2 c cs hpair ih =>
    have hread : read (l, afterReturn) c = (l.after c, c == '\r') :=
      read_eq (fun hafter hc => h hafter (congrArg some hc)) l
    rw [unified_cons hpair, List.foldl_cons, List.foldl_cons, hread]
    by_cases hc : c = '\r'
    · subst hc
      rw [if_pos rfl, read_eq (by simp) l, after_return]
      refine ih (l.after '\n') true fun _ hhead => ?_
      obtain ⟨rest, rfl⟩ := List.head?_eq_some_iff.mp hhead
      exact hpair rest rfl rfl
    · rw [if_neg hc, read_eq (by simp) l, beq_false_of_ne hc]
      exact ih (l.after c) false (by simp)
  | case3 => rfl

/-- Without carriage returns there is nothing to remember of them. -/
theorem foldl_read_of_not_mem {cs : List Char} (h : '\r' ∉ cs) (l : Lexer) :
    cs.foldl read (l, false) = (cs.foldl after l, false) := by
  induction cs generalizing l with
  | nil => rfl
  | cons c cs ih =>
    obtain ⟨hc, hcs⟩ := not_or.mp (mt List.mem_cons.mpr h)
    rw [List.foldl_cons, read_eq (by simp) l, beq_false_of_ne (Ne.symm hc), ih hcs]
    rfl

/-- A text is read as the unified one is, character by character. -/
theorem foldl_read_eq_unified (cs : List Char) (l : Lexer) :
    (cs.foldl read (l, false)).1 = (unified cs).foldl after l := by
  rw [foldl_read_unified cs l false (by simp), foldl_read_of_not_mem (not_mem_unified cs)]

end Lexer

/-! ### Their tokens -/

/-- The text with a line feed for every line end. -/
def unifyLineEnds (source : String) : String := String.ofList (unified source.toList)

/-- **The forms of line ends are interchangeable**: a text with unified line ends has the tokens of
the text, in the same places. -/
theorem tokenize_unifyLineEnds (file : Nat) (source : String) :
    tokenize file (unifyLineEnds source) = tokenize file source := by
  have hstates := Lexer.foldl_read_unified source.toList (.ofFile file) false (by simp)
  rw [tokenize, tokenize, unifyLineEnds, String.toList_ofList, hstates]

end StackAsm.Token
