import StackAsm.Proofs.Declaration
import StackAsm.Proofs.Declaration.Effect
import StackAsm.Proofs.Pool

/-!
# Reading a program line by line

A line after the header either declares something, and then nothing of it is left over, or is put
aside. Of a line that is put aside only the texts are touched: each is registered in the pool, and
a reference to it takes its place. So the lines of a program that is read make up a sequence of
such steps, from the session of its header to the one that is laid out.
-/

namespace StackAsm.Declaration

/-! ### Steps -/

/-- The texts of some items are registered in a pool; what is put aside refers to them there. -/
inductive Stores : Pool → List (Located Item) → Pool → List (Located Item) → Prop where
  | nil (pool : Pool) : Stores pool [] pool []
  | text {pool pool₁ pool' : Pool} {item : Located Item} {items stored : List (Located Item)}
      {content : String} {index : UInt8} (value : item.value = .text content)
      (registered : pool.register (utf8 content) = .ok (index, pool₁))
      (rest : Stores pool₁ items pool' stored) :
      Stores pool (item :: items) pool' (item.withValue (.constant index .string) :: stored)
  | other {pool pool' : Pool} {item : Located Item} {items stored : List (Located Item)}
      (value : ∀ content, item.value ≠ .text content) (rest : Stores pool items pool' stored) :
      Stores pool (item :: items) pool' (item :: stored)

/-- What becomes of the session by a line, and what is put aside of it. -/
inductive LineRead (session : Session) :
    List (Located Item) → Session → List (Located Item) → Prop where
  /-- The line declares something. -/
  | declared {session' : Session} {head : Located Item} {rest : List (Located Item)}
      {directive : String} {keyword : Keyword} (value : head.value = .directive directive)
      (known : Keyword.ofName? directive = some keyword)
      (effect : Effect session keyword (rest.map (·.value)) [] session') :
      LineRead session (head :: rest) session' []
  /-- The line is put aside, with its end. -/
  | deferred {head : Located Item} {rest stored : List (Located Item)} {pool : Pool}
      (loc : Option Location)
      (plain : ∀ directive, head.value = .directive directive → Keyword.ofName? directive = none)
      (stores : Stores session.pool (head :: rest) pool stored) :
      LineRead session (head :: rest) { session with pool } (stored ++ [⟨loc, .lineEnd⟩])

/-- What becomes of the session by lines, and what is put aside of them. -/
inductive Reading :
    Session → List (List (Located Item)) → Session → List (Located Item) → Prop where
  | nil (session : Session) : Reading session [] session []
  | cons {session session₁ session' : Session} {line : List (Located Item)}
      {lines : List (List (Located Item))} {first rest : List (Located Item)}
      (read : LineRead session line session₁ first)
      (reading : Reading session₁ lines session' rest) :
      Reading session (line :: lines) session' (first ++ rest)

/-! ### Lines that are read -/

theorem deferItem_eq_ok {s s' : State} {item : Located Item} {u : Unit}
    (h : deferItem item s = .ok u s') :
    ∃ pool stored, Stores s.session.pool [item] pool [stored] ∧
      s'.session = { s.session with pool } ∧ s'.deferred = s.deferred.push stored := by
  obtain ⟨loc, value⟩ := item
  cases value with
  | text content =>
    obtain ⟨_, _, hget, h⟩ := estate_bind_eq_ok.mp h
    cases hget
    dsimp only at h
    cases hregister : s.session.pool.register (utf8 content) with
    | error e =>
      rw [hregister] at h
      cases h
    | ok p =>
      rw [hregister] at h
      cases h
      exact ⟨p.2, _, .text rfl hregister (.nil _), rfl, rfl⟩
  | _ =>
    cases h
    exact ⟨s.session.pool, _, .other (by simp) (.nil _), rfl, rfl⟩

theorem Stores.cons {pool pool₁ pool' : Pool} {item stored : Located Item}
    {items rest : List (Located Item)} (h : Stores pool [item] pool₁ [stored])
    (hrest : Stores pool₁ items pool' rest) :
    Stores pool (item :: items) pool' (stored :: rest) := by
  cases h with
  | text value registered hnil =>
    cases hnil
    exact .text value registered hrest
  | other value hnil =>
    cases hnil
    exact .other value hrest

theorem modify_eq_ok {s s' : State} {f : State → State} {u : PUnit}
    (h : (modify f : Declare PUnit) s = .ok u s') : s' = f s := by
  cases h
  rfl

theorem forM_deferItem_eq_ok {s s' : State} {items : List (Located Item)} {u : PUnit}
    (h : items.forM deferItem s = .ok u s') :
    ∃ pool stored, Stores s.session.pool items pool stored ∧
      s'.session = { s.session with pool } ∧ s'.deferred.toList = s.deferred.toList ++ stored := by
  induction items generalizing s with
  | nil =>
    cases h
    exact ⟨_, [], .nil _, rfl, by simp⟩
  | cons item items ih =>
    obtain ⟨_, s₁, hitem, h⟩ := estate_bind_eq_ok.mp h
    obtain ⟨pool₁, stored, hstores, hsession, hdeferred⟩ := deferItem_eq_ok hitem
    obtain ⟨pool, rest, hrest, hsession', hdeferred'⟩ := ih h
    rw [hsession] at hrest hsession'
    refine ⟨pool, stored :: rest, hstores.cons hrest, hsession', ?_⟩
    rw [hdeferred', hdeferred, Array.toList_push, List.append_assoc, List.singleton_append]

theorem lineRead_deferLine {s s' : State} {head : Located Item} {rest : List (Located Item)}
    {u : Unit}
    (hplain : ∀ directive, head.value = .directive directive → Keyword.ofName? directive = none)
    (h : deferLine head rest s = .ok u s') :
    ∃ put, LineRead s.session (head :: rest) s'.session put ∧
      s'.deferred.toList = s.deferred.toList ++ put := by
  obtain ⟨_, s₁, hitems, hend⟩ := estate_bind_eq_ok.mp h
  obtain ⟨pool, stored, hstores, hsession, hdeferred⟩ := forM_deferItem_eq_ok hitems
  rw [modify_eq_ok hend, hsession, Array.toList_push, hdeferred, List.append_assoc]
  exact ⟨_, .deferred _ hplain hstores, rfl⟩

theorem expectEnd_eq_ok {args : Arguments} {u : Unit} (h : args.expectEnd = .ok u) :
    args.values = [] := by
  unfold Arguments.expectEnd at h
  split at h
  · next hrest => simp [Arguments.values, hrest]
  · cases h

theorem lineRead_declareLine {s s' : State} {keyword : Keyword} {head : Located Item}
    {rest : List (Located Item)} {directive : String} {u : Unit}
    (hvalue : head.value = .directive directive) (hknown : Keyword.ofName? directive = some keyword)
    (h : declareLine keyword head rest s = .ok u s') :
    LineRead s.session (head :: rest) s'.session [] ∧ s'.deferred = s.deferred := by
  rw [declareLine_eq] at h
  dsimp only at h
  split at h
  · cases h
  · next declaration args hread =>
    split at h
    · cases h
    · next after happlied =>
      split at h
      · cases h
      · next hend =>
        cases h
        have heffect := effect_of_read hread happlied
        rw [expectEnd_eq_ok hend] at heffect
        exact ⟨.declared hvalue hknown heffect, rfl⟩

theorem readLine_directive (loc : Option Location) (name : String) (rest : List (Located Item)) :
    readLine ⟨loc, .directive name⟩ rest =
      if (headerKind? name).isSome then throw ⟨loc, .duplicateHeader⟩
      else
        match Keyword.ofName? name with
        | some keyword => declareLine keyword ⟨loc, .directive name⟩ rest
        | none => deferLine ⟨loc, .directive name⟩ rest := rfl

theorem lineRead_readLine {s s' : State} {head : Located Item} {rest : List (Located Item)}
    {u : Unit} (h : readLine head rest s = .ok u s') :
    ∃ put, LineRead s.session (head :: rest) s'.session put ∧
      s'.deferred.toList = s.deferred.toList ++ put := by
  obtain ⟨loc, value⟩ := head
  cases value with
  | directive name =>
    rw [readLine_directive] at h
    by_cases hheader : (headerKind? name).isSome
    · rw [if_pos hheader] at h
      cases h
    · rw [if_neg hheader] at h
      cases hknown : Keyword.ofName? name with
      | some keyword =>
        rw [hknown] at h
        obtain ⟨hread, hdeferred⟩ := lineRead_declareLine rfl hknown h
        exact ⟨[], hread, by rw [hdeferred, List.append_nil]⟩
      | none =>
        rw [hknown] at h
        refine lineRead_deferLine ?_ h
        rintro _ ⟨⟩
        exact hknown
  | _ => exact lineRead_deferLine (by simp) h

/-- Lines that are read are read one after the other. -/
theorem reading_readLines {lines : List (List (Located Item))} {s s' : State} {u : Unit}
    (hlines : [] ∉ lines) (h : readLines lines s = .ok u s') :
    ∃ put, Reading s.session lines s'.session put ∧
      s'.deferred.toList = s.deferred.toList ++ put := by
  induction lines generalizing s with
  | nil =>
    cases h
    exact ⟨[], .nil _, by simp⟩
  | cons line lines ih =>
    cases line with
    | nil => exact absurd List.mem_cons_self hlines
    | cons head rest =>
      obtain ⟨_, s₁, hline, h⟩ := estate_bind_eq_ok.mp h
      obtain ⟨first, hread, hdeferred⟩ := lineRead_readLine hline
      obtain ⟨put, hreading, hdeferred'⟩ := ih (fun hmem => hlines (List.mem_cons_of_mem _ hmem)) h
      refine ⟨first ++ put, .cons hread hreading, ?_⟩
      rw [hdeferred', hdeferred, List.append_assoc]

/-- What names the kind of a container declares nothing else. -/
theorem ofName?_of_headerKind? {name : String} {kind : ContainerKind}
    (h : headerKind? name = some kind) : Keyword.ofName? name = none := by
  unfold headerKind? at h
  split at h
  · rfl
  · rfl
  · rfl
  · rfl
  · cases h

theorem readLine_keyword {name : String} {keyword : Keyword}
    (h : Keyword.ofName? name = some keyword) (loc : Option Location)
    (rest : List (Located Item)) :
    readLine ⟨loc, .directive name⟩ rest = declareLine keyword ⟨loc, .directive name⟩ rest := by
  have hheader : (headerKind? name).isSome = false := by
    cases hkind : headerKind? name with
    | none => rfl
    | some kind => simp [ofName?_of_headerKind? hkind] at h
  rw [readLine_directive, hheader, h]
  rfl

theorem readHeader_eq_ok {head : Located Item} {rest : List (Located Item)} {type : ContainerType}
    (h : readHeader head rest = .ok type) :
    ∃ directive, head.value = .directive directive ∧ Keyword.ofName? directive = none := by
  obtain ⟨loc, value⟩ := head
  cases value with
  | directive name =>
    cases hkind : headerKind? name with
    | none =>
      unfold readHeader at h
      dsimp only at h
      rw [hkind] at h
      cases h
    | some kind => exact ⟨name, rfl, ofName?_of_headerKind? hkind⟩
  | _ => cases h

/-- **A program that is read is a header and lines that are read**, where the header declares
nothing else. -/
theorem reading_readProgram {items deferred : List (Located Item)} {session : Session}
    {events : List Event} (h : readProgram items = (.ok (session, deferred), events)) :
    ∃ head rest lines type directive, Item.lines items = (head :: rest) :: lines ∧
      head.value = .directive directive ∧ Keyword.ofName? directive = none ∧
      Reading { type } lines session deferred := by
  obtain ⟨head, rest, lines, type, s, hlines, hheader, hread, rfl, rfl, -⟩ :=
    readProgram_eq_ok_iff.mp h
  obtain ⟨directive, hvalue, hnone⟩ := readHeader_eq_ok hheader
  have hne : [] ∉ lines := by
    intro hmem
    have hmem' : [] ∈ Item.lines items := by
      rw [hlines]
      exact List.mem_cons_of_mem _ hmem
    simp [Item.lines] at hmem'
  obtain ⟨put, hreading, hdeferred⟩ := reading_readLines hne hread
  rw [List.nil_append] at hdeferred
  rw [hdeferred]
  exact ⟨head, rest, lines, type, directive, hlines, hvalue, hnone, hreading⟩

end StackAsm.Declaration
