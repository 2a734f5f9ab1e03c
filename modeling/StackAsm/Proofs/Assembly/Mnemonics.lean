import StackAsm.Proofs.Declaration.Names
import StackAsm.Proofs.Layout.Symbols

/-!
# Names and mnemonics

A name is given to something only if it is no mnemonic, in whatever case it is written. Nothing that
is given a name later makes a mnemonic of it but an extension. The name of an extension has to be
free as well; but it is compared as it is written with the names that refer to something, while the
mnemonic that comes of it is found in every case. So an extension can take a name over that a line
above it has declared in another case, and in no other way does a name become a mnemonic.
-/

namespace StackAsm

namespace InstructionSet

/-- An extension is found under its name in every case, and all that was found before still is. -/
theorem isSome_find?_extend {set set' : InstructionSet} {i : Instruction}
    (h : set.extend i = .ok set') (name : String) :
    (set'.find? name).isSome ↔ (set.find? name).isSome ∨ i.name = Text.lowercase name := by
  obtain ⟨-, -, -, rfl⟩ := (extend_eq_ok_iff set set' i).mp h
  rw [find?, withName?, insert, List.find?_append, Option.isSome_or, Bool.or_eq_true]
  simp [find?, withName?]

end InstructionSet

namespace Declaration

variable {session session' : Session} {line put : List (Located Item)}
  {lines : List (List (Located Item))} {name : String}

/-! ### Lines that add instructions -/

/-- A line that consists of the items adds an instruction under the name, as it is written. -/
def Adds (mnemonic : String) (items : List Item) : Prop :=
  ∃ directive c rest, items = .directive directive :: .word mnemonic :: .separator c :: rest ∧
    Keyword.ofName? directive = some .instruction

theorem Adds.unique {mnemonic other : String} {items : List Item} (h : Adds mnemonic items)
    (h' : Adds other items) : other = mnemonic := by
  obtain ⟨_, _, _, rfl, -⟩ := h
  obtain ⟨_, _, _, heq, -⟩ := h'
  cases heq
  rfl

/-- A line that starts with no keyword of a declaration adds no instruction. -/
theorem not_adds_of_plain {head : Located Item} {rest : List (Located Item)}
    (plain : ∀ directive, head.value = .directive directive → Keyword.ofName? directive = none) :
    ∀ mnemonic, ¬Adds mnemonic ((head :: rest).map (·.value)) := by
  rintro mnemonic ⟨directive, c, items, hitems, hknown⟩
  have hnone := plain directive (List.cons.inj hitems).1
  rw [hknown] at hnone
  cases hnone

/-- A line adds an instruction under a free name, or leaves the instructions alone. -/
theorem LineRead.adds (h : LineRead session line session' put) :
    (session'.instructionSet = session.instructionSet ∧
        ∀ mnemonic, ¬Adds mnemonic (line.map (·.value))) ∨
      ∃ mnemonic i, Adds mnemonic (line.map (·.value)) ∧ session.isTaken mnemonic = false ∧
        i.name = Text.lowercase mnemonic ∧
        session.instructionSet.extend i = .ok session'.instructionSet := by
  cases h with
  | @declared _ head rest directive keyword value known effect =>
    have hnot (hkeyword : keyword ≠ .instruction) (items : List Item) :
        ∀ mnemonic, ¬Adds mnemonic (.directive directive :: items) := by
      rintro mnemonic ⟨_, c, _, hitems, hknown⟩
      cases hitems
      exact hkeyword (Option.some.inj (known.symm.trans hknown))
    rw [List.map_cons, value]
    generalize rest.map (·.value) = items at effect
    cases effect with
    | constant kind => exact .inl ⟨rfl, hnot (by cases kind <;> simp [constantKeyword]) _⟩
    | slot slot => exact .inl ⟨rfl, hnot (by cases slot.optional <;> simp [slotKeyword]) _⟩
    | external => exact .inl ⟨rfl, hnot (by simp) _⟩
    | instruction name c i set more _ free mnemonic extended =>
      exact .inr ⟨name, i, ⟨directive, c, more, rfl, known⟩, free, mnemonic, extended⟩
    | described _ _ _ _ describes =>
      refine .inl ⟨rfl, hnot ?_ _⟩
      rintro rfl
      cases describes
  | deferred _ plain stores => exact .inl ⟨rfl, not_adds_of_plain plain⟩

/-- A line makes mnemonics of all spellings of the name that it adds an instruction under. -/
theorem LineRead.isSome_find?_iff (h : LineRead session line session' put) (name : String) :
    (session'.instructionSet.find? name).isSome ↔
      (session.instructionSet.find? name).isSome ∨
        ∃ mnemonic, Adds mnemonic (line.map (·.value)) ∧
          Text.lowercase mnemonic = Text.lowercase name := by
  rcases h.adds with ⟨hsame, hnot⟩ | ⟨mnemonic, i, hadds, -, hname, hextend⟩
  · rw [hsame]
    constructor
    · exact .inl
    · rintro (hfound | ⟨mnemonic, hadds, -⟩)
      · exact hfound
      · exact absurd hadds (hnot mnemonic)
  · rw [InstructionSet.isSome_find?_extend hextend, hname]
    refine or_congr_right ⟨fun heq => ⟨mnemonic, hadds, heq⟩, ?_⟩
    rintro ⟨other, hother, heq⟩
    rwa [← hadds.unique hother]

theorem Reading.isSome_find?_iff (h : Reading session lines session' put) (name : String) :
    (session'.instructionSet.find? name).isSome ↔
      (session.instructionSet.find? name).isSome ∨
        ∃ line ∈ lines, ∃ mnemonic, Adds mnemonic (line.map (·.value)) ∧
          Text.lowercase mnemonic = Text.lowercase name := by
  induction h with
  | nil => simp
  | cons read _ ih => rw [ih, read.isSome_find?_iff, List.exists_mem_cons_iff, or_assoc]

/-! ### Names that are taken over -/

/-- A line that consists of the items adds an instruction under another spelling of the name. -/
def TakesOver (name : String) (items : List Item) : Prop :=
  ∃ mnemonic, Adds mnemonic items ∧ mnemonic ≠ name ∧ Text.lowercase mnemonic = Text.lowercase name

/-- A line declares the name, with the types and constants of the session, and one of the lines
below adds an instruction under another spelling of it. -/
def Shadowed (session : Session) (lines : List (List (Located Item))) (name : String) : Prop :=
  ∃ before line after r, lines = before ++ line :: after ∧
    Names session.type.width session.pool name (line.map (·.value)) r ∧
    ∃ later ∈ after, TakesOver name (later.map (·.value))

/-- What a name refers to stays while a line is read. -/
theorem LineRead.get?_of_get? (h : LineRead session line session' put)
    (hpool : session.pool.WellFormed) {r : Reference}
    (hget : session.references.get? name = some r) : session'.references.get? name = some r := by
  rcases h.names hpool with ⟨hsame, -⟩ | ⟨given, r', hfree, hinsert, -⟩
  · rw [hsame, hget]
  · rw [hinsert, Table.get?_insert, if_neg (Session.ne_of_free hfree hget), hget]

/-- A name that refers to something becomes a mnemonic only by being taken over. -/
theorem Reading.exists_takesOver (h : Reading session lines session' put)
    (hpool : session.pool.WellFormed) {r : Reference}
    (hget : session.references.get? name = some r)
    (hbefore : session.instructionSet.find? name = none)
    (hfound : (session'.instructionSet.find? name).isSome) :
    ∃ line ∈ lines, TakesOver name (line.map (·.value)) := by
  induction h with
  | nil =>
    rw [hbefore] at hfound
    cases hfound
  | @cons session session₁ session' line lines first rest read reading ih =>
    rw [List.exists_mem_cons_iff]
    cases hnext : session₁.instructionSet.find? name with
    | none =>
      exact .inr (ih (read.grows.wellFormed hpool) (read.get?_of_get? hpool hget) hnext hfound)
    | some i =>
      -- the line has just made a mnemonic of the name
      have hadded := (read.isSome_find?_iff name).mp (by rw [hnext]; rfl)
      rw [hbefore] at hadded
      obtain ⟨mnemonic, hadds, hname⟩ := hadded.resolve_left (by simp)
      refine .inl ⟨mnemonic, hadds, ?_, hname⟩
      rcases read.adds with ⟨-, hnot⟩ | ⟨other, _, hother, hfree, -⟩
      · exact absurd hadds (hnot mnemonic)
      · rw [hadds.unique hother] at hfree
        exact (Session.ne_of_free hfree hget).symm

theorem Names.not_adds {w : Width} {pool : Pool} {items : List Item} {r : Reference}
    (h : Names w pool name items r) (mnemonic : String) : ¬Adds mnemonic items := by
  rintro ⟨_, _, _, rfl, hadds⟩
  obtain ⟨_, _, keyword, hitems, hknown, hne, -⟩ := h.exists_keyword
  cases hitems
  exact hne (Option.some.inj (hknown.symm.trans hadds))

theorem Shadowed.cons (h : Shadowed session lines name) (line : List (Located Item)) :
    Shadowed session (line :: lines) name := by
  obtain ⟨before, declaring, after, r, rfl, hshadowed⟩ := h
  exact ⟨line :: before, declaring, after, r, rfl, hshadowed⟩

/-- A line that gives a name to something leaves a name that is no mnemonic. -/
theorem LineRead.names_of_get? (h : LineRead session line session' put)
    (hpool : session.pool.WellFormed) {r : Reference}
    (hnew : session.references.get? name = none)
    (hget : session'.references.get? name = some r) :
    Names session.type.width session'.pool name (line.map (·.value)) r ∧
      session'.instructionSet.find? name = none := by
  rcases h.names hpool with ⟨hsame, -⟩ | ⟨given, r', hfree, hinsert, hnames⟩
  · rw [hsame, hnew] at hget
    cases hget
  · rw [hinsert, Table.get?_insert, hnew] at hget
    split at hget
    · next hname =>
      subst hname
      cases hget
      refine ⟨hnames, ?_⟩
      rcases h.adds with ⟨hset, -⟩ | ⟨mnemonic, _, hadds, -⟩
      · rw [hset]
        exact Session.find?_of_free hfree
      · exact absurd hadds (hnames.not_adds mnemonic)
    · cases hget

/-- A name that was declared by one of the lines and has become a mnemonic is shadowed. -/
theorem Reading.shadowed (h : Reading session lines session' put)
    (hpool : session.pool.WellFormed) {r : Reference}
    (hnew : session.references.get? name = none)
    (hget : session'.references.get? name = some r)
    (hfound : (session'.instructionSet.find? name).isSome) : Shadowed session' lines name := by
  induction h with
  | nil =>
    rw [hnew] at hget
    cases hget
  | @cons session session₁ session' line lines first rest read reading ih =>
    have hpool₁ := read.grows.wellFormed hpool
    cases hnext : session₁.references.get? name with
    | none => exact (ih hpool₁ hnext hget hfound).cons line
    | some r₁ =>
      obtain ⟨hnames, hnone⟩ := read.names_of_get? hpool hnew hnext
      rw [← read.type_eq, ← reading.type_eq] at hnames
      exact ⟨[], line, lines, r₁, rfl, hnames.of_grows reading.grows,
        reading.exists_takesOver hpool₁ hnext hnone hfound⟩

/-- What is shadowed is a mnemonic. -/
theorem Reading.isSome_find?_of_shadowed (h : Reading session lines session' put)
    (hname : Shadowed session' lines name) : (session'.instructionSet.find? name).isSome := by
  obtain ⟨before, line, after, r, rfl, -, later, hlater, mnemonic, hadds, -, heq⟩ := hname
  refine (h.isSome_find?_iff name).mpr (.inr ⟨later, ?_, mnemonic, hadds, heq⟩)
  exact List.mem_append_right _ (List.mem_cons_of_mem _ hlater)

end Declaration

/-! ### Names of symbols -/

namespace Layout

variable {items : List (Located Item)}

/-- What a layout gives a name to is no mnemonic; all other names were there before. -/
theorem get?_layOut_cases (session : Session) (items : List (Located Item)) {name : String}
    {r : Reference} (h : (layOut session items).1.references.get? name = some r) :
    session.references.get? name = some r ∨ session.instructionSet.find? name = none := by
  have hrun := keeps_of_reflTransGen (P := fun s => s.instructionSet = session.instructionSet ∧
      ∀ name r, s.references.get? name = some r →
        session.references.get? name = some r ∨ session.instructionSet.find? name = none)
    (changes_layOut session items) ?_ ⟨rfl, fun _ _ => .inl⟩
  · exact hrun.2 name r h
  · rintro s s' hchange ⟨hset, hnames⟩
    refine ⟨hchange.declarations.2.1.trans hset, fun other r' hget => ?_⟩
    rcases hchange.heads_cases with ⟨-, hsame⟩ | ⟨opened, _, hfree, -, -, -, hinsert⟩
    · exact hnames other r' (hsame ▸ hget)
    · rw [hinsert, Table.get?_insert] at hget
      split at hget
      · next hother =>
        subst hother
        exact .inr (hset ▸ Session.find?_of_free hfree)
      · exact hnames other r' hget

end Layout

namespace Assembly

open Declaration Layout

/-- **Names are no mnemonics, unless an extension takes them over**: of a program whose declarations
are read, and after a layout of any items, a name that refers to something is a mnemonic exactly if
a line declares it and an instruction is added below under another spelling of the name. -/
theorem isMnemonic_iff_shadowed {items deferred : List (Located Item)} {declared : Session}
    {events : List Event} (h : readProgram items = (.ok (declared, deferred), events))
    (code : List (Located Item)) {name : String} {r : Reference}
    (hget : (layOut declared code).1.references.get? name = some r) :
    ((layOut declared code).1.instructionSet.find? name).isSome ↔
      Shadowed declared (Item.lines items) name := by
  obtain ⟨head, rest, lines, type, directive, hlines, hhead, hnone, hreading⟩ :=
    reading_readProgram h
  rw [(declarations_layOut declared code).2.1, hlines]
  constructor
  · intro hfound
    rcases get?_layOut_cases declared code hget with hdeclared | hfree
    · exact (hreading.shadowed Pool.wellFormed_empty rfl hdeclared hfound).cons (head :: rest)
    · rw [hfree] at hfound
      cases hfound
  · rintro ⟨before, line, after, r', hsplit, hnames, hlater⟩
    refine hreading.isSome_find?_of_shadowed ?_
    cases before with
    | nil =>
      -- the first line is the header, which declares no name
      obtain ⟨rfl, rfl⟩ := List.cons.inj hsplit
      obtain ⟨_, _, _, hitems, hknown, -⟩ := hnames.exists_keyword
      rw [List.map_cons, hhead] at hitems
      cases hitems
      rw [hnone] at hknown
      cases hknown
    | cons first before =>
      exact ⟨before, line, after, r', (List.cons.inj hsplit).2, hnames, hlater⟩

/-- A module is declared, an instruction added under another spelling of its name, and an external
symbol declared below. -/
def takeoverProgram : List (Located Item) :=
  List.map .nowhere
    [.directive "cwx", .separator ':', .number 16, .lineEnd,
      .directive "module", .word "BLIT", .separator ',', .number 1, .lineEnd,
      .directive "extinstr", .word "blit", .separator ',', .number 0x80, .lineEnd,
      .directive "extern", .word "beep", .separator ',', .number 2, .lineEnd]

/-- What is known once these declarations are read. -/
def takeoverDeclared : Session where
  type := ⟨.executable, .w16⟩
  instructionSet := .ofInstructions (Instruction.native ++ [⟨"blit", 0x80, []⟩])
  slots := [⟨"BLIT", 1, false⟩]
  references := ⟨[("beep", .external 2), ("BLIT", .slot 1)]⟩

/-- A symbol without code. -/
def takeoverCode : List (Located Item) :=
  List.map .nowhere [.directive "symbol", .word "main", .lineEnd]

/-- Of the three names only that of the module is taken over. -/
theorem isMnemonic_iff_shadowed_takeover :
    (readProgram takeoverProgram).1 = .ok (takeoverDeclared, []) ∧
      (layOut takeoverDeclared takeoverCode).1.references =
        ⟨[("main", .symbol 0), ("beep", .external 2), ("BLIT", .slot 1)]⟩ ∧
      Shadowed takeoverDeclared (Item.lines takeoverProgram) "BLIT" ∧
      ¬Shadowed takeoverDeclared (Item.lines takeoverProgram) "beep" ∧
      ¬Shadowed takeoverDeclared (Item.lines takeoverProgram) "main" := by
  have hread : readProgram takeoverProgram =
      (.ok (takeoverDeclared, []), (readProgram takeoverProgram).2) := by
    decide +kernel
  have hnames : (layOut takeoverDeclared takeoverCode).1.references =
      ⟨[("main", .symbol 0), ("beep", .external 2), ("BLIT", .slot 1)]⟩ := by
    decide +kernel
  have hset := (declarations_layOut takeoverDeclared takeoverCode).2.1
  have hget : ∀ name r, Table.get? ⟨[("main", .symbol 0), ("beep", .external 2),
      ("BLIT", .slot 1)]⟩ name = some r →
        (layOut takeoverDeclared takeoverCode).1.references.get? name = some r := by
    intro name r h
    rwa [hnames]
  have hblit := isMnemonic_iff_shadowed hread takeoverCode (hget "BLIT" (.slot 1) (by decide))
  have hbeep := isMnemonic_iff_shadowed hread takeoverCode (hget "beep" (.external 2) (by decide))
  have hmain := isMnemonic_iff_shadowed hread takeoverCode (hget "main" (.symbol 0) (by decide))
  rw [hset] at hblit hbeep hmain
  refine ⟨by rw [hread], hnames, hblit.mp (by decide +kernel), fun h => ?_, fun h => ?_⟩
  · exact absurd (hbeep.mpr h) (by decide +kernel)
  · exact absurd (hmain.mpr h) (by decide +kernel)

/-- Not every name that refers to something is kept apart from the mnemonics. -/
theorem takeover_not_apart :
    ¬∀ (items deferred : List (Located Item)) (declared : Session) (events : List Event),
      readProgram items = (.ok (declared, deferred), events) →
        ∀ (code : List (Located Item)) (name : String) (r : Reference),
          (layOut declared code).1.references.get? name = some r →
            (layOut declared code).1.instructionSet.find? name = none := by
  intro hall
  have hread : readProgram takeoverProgram =
      (.ok (takeoverDeclared, []), (readProgram takeoverProgram).2) := by
    decide +kernel
  have hnone := hall _ _ _ _ hread [] "BLIT" (.slot 1) (by decide)
  exact absurd hnone (by decide +kernel)

end Assembly

end StackAsm
