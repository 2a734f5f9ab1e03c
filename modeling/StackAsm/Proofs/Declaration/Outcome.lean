import StackAsm.Proofs.Declaration.Places
import StackAsm.Proofs.Declaration.Tables

/-!
# What reading the declarations of a program gives

The tables of a session and the items put aside fit together once all declarations are read. The
slots differ and are those that names refer to. The pool holds what the constants and the texts of
the program stand for, where the references to it say. The lines put aside are the lines that
declare nothing, with their texts replaced. The instructions are those of the machine and extensions
with opcodes of their own.
-/

namespace StackAsm.Declaration

variable {session session' : Session} {line put : List (Located Item)}
  {lines : List (List (Located Item))}

/-! ### Lines put aside -/

/-- How an item is put aside: in the place of a text stands a reference to its bytes in the pool,
and all else is left as it is. -/
inductive PutAside (pool : Pool) : Located Item → Located Item → Prop where
  | text (loc : Option Location) (content : String) (index : UInt8)
      (held : pool.get? index = some (utf8 content)) :
      PutAside pool ⟨loc, .text content⟩ ⟨loc, .constant index .string⟩
  | other (item : Located Item) (value : ∀ content, item.value ≠ .text content) :
      PutAside pool item item

theorem PutAside.of_grows {pool pool' : Pool} {item stored : Located Item}
    (hpool : pool.Grows pool') (h : PutAside pool item stored) : PutAside pool' item stored := by
  cases h with
  | text loc content index held => exact .text loc content index (hpool.get? held)
  | other item value => exact .other item value

theorem PutAside.ne_lineEnd {pool : Pool} {item stored : Located Item}
    (h : PutAside pool item stored) (hitem : item.value ≠ .lineEnd) : stored.value ≠ .lineEnd := by
  cases h with
  | text => exact nofun
  | other => exact hitem

/-- The line declares something. -/
def declares : List (Located Item) → Bool
  | ⟨_, .directive name⟩ :: _ => (Keyword.ofName? name).isSome
  | _ => false

theorem Stores.putAside {pool pool' : Pool} {items stored : List (Located Item)}
    (h : Stores pool items pool' stored) (hpool : pool.WellFormed) :
    List.Forall₂ (PutAside pool') items stored := by
  induction h with
  | nil => exact .nil
  | @text pool pool₁ pool' item items stored content index value registered rest ih =>
    obtain ⟨loc, _⟩ := item
    cases value
    have hheld := rest.grows.get? (hpool.get?_register registered)
    exact .cons (.text loc content index hheld)
      (ih ((Pool.grows_register registered).wellFormed hpool))
  | other value rest ih => exact .cons (.other _ value) (ih hpool)

theorem declares_of_plain {head : Located Item} {rest : List (Located Item)}
    (h : ∀ directive, head.value = .directive directive → Keyword.ofName? directive = none) :
    declares (head :: rest) = false := by
  obtain ⟨loc, value⟩ := head
  cases value with
  | directive name => simp [declares, h name rfl]
  | _ => rfl

/-- What is put aside of a line is its end or an item of the line. -/
theorem LineRead.put_cases (h : LineRead session line session' put)
    (hpool : session.pool.WellFormed) :
    ∀ stored ∈ put,
      stored.value = .lineEnd ∨ ∃ item ∈ line, PutAside session'.pool item stored := by
  cases h with
  | declared => simp
  | deferred loc plain stores =>
    refine List.forall_mem_append.mpr ⟨fun stored hstored => ?_, by simp⟩
    exact .inr (exists_of_forall₂ (stores.putAside hpool) hstored)

theorem Reading.put_cases (h : Reading session lines session' put)
    (hpool : session.pool.WellFormed) :
    ∀ stored ∈ put, stored.value = .lineEnd ∨
      ∃ line ∈ lines, ∃ item ∈ line, PutAside session'.pool item stored := by
  induction h with
  | nil => simp
  | cons read reading ih =>
    refine List.forall_mem_append.mpr ⟨fun stored hstored => ?_, fun stored hstored => ?_⟩
    · rcases read.put_cases hpool stored hstored with hend | ⟨item, hitem, haside⟩
      · exact .inl hend
      · exact .inr ⟨_, List.mem_cons_self, item, hitem, haside.of_grows reading.grows⟩
    · rcases ih (read.grows.wellFormed hpool) stored hstored with hend | ⟨line, hline, haside⟩
      · exact .inl hend
      · exact .inr ⟨line, List.mem_cons_of_mem _ hline, haside⟩

/-- **The lines put aside are those that declare nothing**, one by one and item by item. -/
theorem Reading.lines_put (h : Reading session lines session' put)
    (hpool : session.pool.WellFormed) (hlines : ∀ line ∈ lines, Item.IsLine line) :
    List.Forall₂ (List.Forall₂ (PutAside session'.pool)) (lines.filter (!declares ·))
      (Item.lines put) := by
  induction h with
  | nil => exact .nil
  | @cons session session₁ session' line lines first rest read reading ih =>
    obtain ⟨hline, hrest⟩ := List.forall_mem_cons.mp hlines
    have hlater := ih (read.grows.wellFormed hpool) hrest
    cases read with
    | @declared _ head _ directive keyword value known effect =>
      obtain ⟨loc, _⟩ := head
      cases value
      rw [List.filter_cons_of_neg (by simp [declares, known])]
      exact hlater
    | @deferred head tail stored pool loc plain stores =>
      rw [List.filter_cons_of_pos (by simp [declares_of_plain plain])]
      have haside := (stores.putAside hpool).imp fun _ _ => PutAside.of_grows reading.grows
      have hstored : Item.IsLine stored := by
        refine ⟨?_, fun item hitem => ?_⟩
        · rintro rfl
          cases haside
        · obtain ⟨source, hsource, hput⟩ := exists_of_forall₂ haside hitem
          exact hput.ne_lineEnd (hline.noEnd source hsource)
      rw [List.append_assoc]
      show List.Forall₂ _ _ (Item.lines (stored ++ ⟨loc, .lineEnd⟩ :: rest))
      rw [Item.lines_append_lineEnd hstored]
      exact .cons haside hlater

/-! ### What every line keeps -/

/-- What every declaration keeps, and every change of the pool, is kept while lines are read. -/
theorem Reading.keeps {P : Session → Prop} (h : Reading session lines session' put)
    (heffect : ∀ {session session' : Session} {keyword : Keyword} {items left : List Item},
      Effect session keyword items left session' → P session → P session')
    (hpool : ∀ (session : Session) (pool : Pool), P session → P { session with pool })
    (hstart : P session) : P session' := by
  induction h with
  | nil => exact hstart
  | cons read _ ih =>
    refine ih ?_
    cases read with
    | declared _ _ effect => exact heffect effect hstart
    | deferred _ _ _ => exact hpool _ _ hstart

/-- Names of external symbols refer to indices in range. -/
def ExternalsInRange (session : Session) : Prop :=
  ∀ name index, session.references.get? name = some (.external index) →
    index.toNat ≤ Limit.symbolIndex

theorem ExternalsInRange.refer {name : String} {r : Reference} (h : ExternalsInRange session)
    (hr : ∀ index, r = .external index → index.toNat ≤ Limit.symbolIndex) :
    ExternalsInRange (session.refer name r) := by
  intro other index hget
  rw [Session.get?_refer] at hget
  split at hget
  · exact hr index (Option.some.inj hget)
  · exact h other index hget

theorem Effect.externalsInRange {keyword : Keyword} {items left : List Item}
    (h : Effect session keyword items left session') (hrange : ExternalsInRange session) :
    ExternalsInRange session' := by
  cases h with
  | constant kind name c content left index pool =>
    refine ExternalsInRange.refer ?_ nofun
    exact hrange
  | slot slot =>
    refine ExternalsInRange.refer ?_ nofun
    exact hrange
  | external name c n index left value inRange =>
    refine hrange.refer ?_
    rintro _ ⟨⟩
    exact inRange
  | _ => exact hrange

/-- The instructions are those of the machine and extensions in the extended range. -/
def Extended (session : Session) : Prop :=
  ∃ added, session.instructionSet.instructions = Instruction.native ++ added ∧
    ∀ i ∈ added, 0x80 ≤ i.opcode

theorem Effect.extended {keyword : Keyword} {items left : List Item}
    (h : Effect session keyword items left session') (hset : Extended session) :
    Extended session' := by
  cases h with
  | instruction name c i instructionSet items left free mnemonic extended =>
    obtain ⟨added, hadded, hrange⟩ := hset
    obtain ⟨hextended, -, -, rfl⟩ := (InstructionSet.extend_eq_ok_iff _ _ _).mp extended
    refine ⟨added ++ [i], by rw [InstructionSet.insert, hadded, List.append_assoc], ?_⟩
    exact List.forall_mem_append.mpr
      ⟨hrange, List.forall_mem_singleton.mpr (of_decide_eq_true hextended)⟩
  | _ => exact hset

/-! ### Programs -/

/-- The session and the items put aside are what a reader of the program may rely on. -/
structure Consistent (items : List (Located Item)) (session : Session)
    (deferred : List (Located Item)) : Prop where
  slotIndex : ∀ slot ∈ session.slots, slot.index.toNat ≤ 15
  slotIndices : (session.slots.map (·.index)).Nodup
  slotNames : (session.slots.map (·.name)).Nodup
  /-- Names of modules are short and plain. -/
  slotName : ∀ slot ∈ session.slots,
    slot.name.utf8ByteSize ≤ 6 ∧ ∀ c ∈ slot.name.toList, c.toNat < 128
  /-- The names that refer to a slot are those of the modules. -/
  modules : ∀ name index, session.references.get? name = some (.slot index) ↔
    ∃ slot ∈ session.slots, slot.name = name ∧ slot.index = index
  externals : ∀ name index, session.references.get? name = some (.external index) →
    index.toNat ≤ 254
  poolSize : session.pool.entries.length ≤ 255
  poolFilled : [] ∉ session.pool.entries
  poolDistinct : session.pool.entries.Nodup
  /-- The name of a constant refers to the bytes of the literals on the line that declares it. -/
  constants : ∀ name index kind, session.references.get? name = some (.constant index kind) →
    index.toNat < session.pool.entries.length ∧
      ∃ line ∈ Item.lines items, ∃ directive c content,
        line.map (·.value) = .directive directive :: .word name :: .separator c :: content ∧
          Keyword.ofName? directive = some (constantKeyword kind) ∧
          session.pool.entries[index.toNat]? =
            some (content.flatMap (kind.literalBytes session.type.width))
  /-- The lines put aside are those after the header that declare nothing. -/
  lines : List.Forall₂ (List.Forall₂ (PutAside session.pool))
    ((Item.lines items).tail.filter (!declares ·)) (Item.lines deferred)
  /-- A reference among the items put aside stands for the bytes of a text of the program. -/
  texts : ∀ stored ∈ deferred, ∀ index kind, stored.value = .constant index kind →
    index.toNat < session.pool.entries.length ∧ kind = .string ∧
      ∃ content, ⟨stored.loc, .text content⟩ ∈ items ∧
        session.pool.entries[index.toNat]? = some (utf8 content)
  noText : ∀ stored ∈ deferred, ∀ content, stored.value ≠ .text content
  extensions : ∃ added, session.instructionSet.instructions = Instruction.native ++ added ∧
    ∀ i ∈ added, 0x80 ≤ i.opcode
  opcodes : (session.instructionSet.instructions.map (·.opcode)).Nodup

/-- Slots with different indices have different names, since a name refers to one of them. -/
theorem Tables.nodup_names (h : Tables session) (hslots : Apart session.slots) :
    (session.slots.map (·.name)).Nodup := by
  refine List.pairwise_map.mpr ((List.pairwise_map.mp hslots.distinct).imp_of_mem ?_)
  intro slot other hslot hother hne hname
  have hget := h.slotReferred slot hslot
  rw [hname, h.slotReferred other hother] at hget
  exact hne (Reference.slot.inj (Option.some.inj hget)).symm

theorem Tables.get?_slot_iff (h : Tables session) (name : String) (index : UInt8) :
    session.references.get? name = some (.slot index) ↔
      ∃ slot ∈ session.slots, slot.name = name ∧ slot.index = index := by
  refine ⟨h.slotNamed name index, ?_⟩
  rintro ⟨slot, hslot, rfl, rfl⟩
  exact h.slotReferred slot hslot

theorem isModuleName_iff (name : String) : isModuleName name = true ↔
    name.utf8ByteSize ≤ Limit.moduleName ∧ ∀ c ∈ name.toList, c.toNat < 128 := by
  simp [isModuleName]

/-- The name of a constant is given by a line, and the pool holds the bytes of its literals. -/
theorem Reading.exists_constant_line {type : ContainerType}
    (h : Reading { type } lines session put) {name : String} {index : UInt8} {kind : ConstantKind}
    (hget : session.references.get? name = some (.constant index kind)) :
    index.toNat < session.pool.entries.length ∧
      ∃ line ∈ lines, ∃ directive c content,
        line.map (·.value) = .directive directive :: .word name :: .separator c :: content ∧
          Keyword.ofName? directive = some (constantKeyword kind) ∧
          session.pool.entries[index.toNat]? =
            some (content.flatMap (kind.literalBytes session.type.width)) := by
  have hcases := (h.get?_eq_some_iff Pool.wellFormed_empty name _).mp hget
  rcases hcases with hnever | ⟨line, hline, hnames⟩
  · cases hnever
  · rw [← h.type_eq] at hnames
    generalize hvalues : line.map (·.value) = values at hnames
    cases hnames with
    | constant directive _ c content _ keyword held =>
      exact ⟨Pool.lt_size_of_get? held, line, hline, directive, c, content, hvalues, keyword, held⟩

/-- An item put aside that comes from a source is no text, and a reference only in its place. -/
theorem PutAside.of_source {pool : Pool} {item stored : Located Item}
    (h : PutAside pool item stored) (hsource : Item.IsSource item) :
    (∀ content, stored.value ≠ .text content) ∧
      ∀ index kind, stored.value = .constant index kind →
        kind = .string ∧ ∃ content, item = ⟨stored.loc, .text content⟩ ∧
          pool.get? index = some (utf8 content) := by
  cases h with
  | text loc content index held =>
    refine ⟨nofun, ?_⟩
    rintro _ _ ⟨⟩
    exact ⟨rfl, content, rfl, held⟩
  | other _ value => exact ⟨value, fun index kind hvalue => absurd hvalue (hsource index kind)⟩

/-- **The first reading of a program gives consistent tables.** For items without references to
the pool, it never fails because there are too many modules; and where it succeeds, slots, names,
pool, items put aside and instructions fit together. -/
theorem consistent_readProgram (items : List (Located Item))
    (hsource : ∀ item ∈ items, Item.IsSource item) :
    (∀ loc, (readProgram items).1 ≠ .error ⟨loc, .tooManySlots⟩) ∧
      ∀ session deferred, (readProgram items).1 = .ok (session, deferred) →
        Consistent items session deferred := by
  refine ⟨readProgram_ne_tooManySlots items, fun session deferred hread => ?_⟩
  have hslots := apart_of_readProgram hread
  have hread' : readProgram items = (.ok (session, deferred), (readProgram items).2) :=
    Prod.ext hread rfl
  obtain ⟨head, rest, lines, type, -, hlines, -, -, hreading⟩ :=
    reading_readProgram hread'
  have hempty := Pool.wellFormed_empty
  have htables := hreading.tables (tables_empty type)
  have hmem : ∀ line ∈ lines, line ∈ Item.lines items := by
    intro line hline
    rw [hlines]
    exact List.mem_cons_of_mem _ hline
  have hput : ∀ stored ∈ deferred, stored.value = .lineEnd ∨
      ∃ item ∈ items, PutAside session.pool item stored := by
    intro stored hstored
    rcases hreading.put_cases hempty stored hstored with hend | ⟨line, hline, item, hitem, haside⟩
    · exact .inl hend
    · exact .inr ⟨item, Item.mem_of_mem_lines (hmem line hline) item hitem, haside⟩
  refine
    { slotIndex := hslots.inRange
      slotIndices := hslots.distinct
      slotNames := htables.nodup_names hslots
      slotName := fun slot hslot => (isModuleName_iff _).mp (htables.slotName slot hslot)
      modules := htables.get?_slot_iff
      externals := hreading.keeps Effect.externalsInRange (fun _ _ h => h) nofun
      poolSize := htables.pool.size_le
      poolFilled := htables.pool.filled
      poolDistinct := htables.pool.distinct
      constants := ?constants
      lines := ?lines
      texts := ?texts
      noText := ?noText
      extensions := hreading.keeps (P := Extended) Effect.extended (fun _ _ h => h)
        ⟨[], by rw [List.append_nil]; rfl, by simp⟩
      opcodes := (coherent_readProgram hread').opcodes }
  case constants =>
    intro name index kind hget
    obtain ⟨hindex, line, hline, hdeclares⟩ := hreading.exists_constant_line hget
    exact ⟨hindex, line, hmem line hline, hdeclares⟩
  case lines =>
    rw [hlines, List.tail_cons]
    exact hreading.lines_put hempty fun line hline => Item.isLine_of_mem_lines (hmem line hline)
  case texts =>
    intro stored hstored index kind hstoredValue
    rcases hput stored hstored with hend | ⟨item, hitem, haside⟩
    · rw [hend] at hstoredValue
      cases hstoredValue
    · obtain ⟨hkind, content, rfl, hheld⟩ :=
        (haside.of_source (hsource item hitem)).2 index kind hstoredValue
      exact ⟨Pool.lt_size_of_get? hheld, hkind, content, hitem, hheld⟩
  case noText =>
    intro stored hstored
    rcases hput stored hstored with hend | ⟨item, hitem, haside⟩
    · simp [hend]
    · exact (haside.of_source (hsource item hitem)).1

/-- A program with two modules, an external symbol, constants of each kind, an extension, and a line
that is put aside with its text. -/
def declaringProgram : List (Located Item) :=
  List.map .nowhere
    [.directive "cwx", .separator ':', .number 16, .lineEnd,
      .directive "module", .word "CON", .separator ',', .number 0, .lineEnd,
      .directive "optmodule", .word "DSK", .separator ',', .number 15, .lineEnd,
      .directive "extern", .word "beep", .separator ',', .number 254, .lineEnd,
      .directive "data", .word "bytes", .separator ',', .number 1, .separator ',', .bracketOpen,
        .text "ab", .bracketClose, .lineEnd,
      .directive "vals", .word "words", .separator ',', .number 258, .lineEnd,
      .directive "str", .word "hello", .separator ',', .text "hi", .lineEnd,
      .directive "extinstr", .word "blit", .separator ',', .number 0x80, .lineEnd,
      .word "print", .text "hi", .separator ',', .text "ab", .lineEnd]

/-- What is known once these declarations are read. -/
def declaringSession : Session where
  type := ⟨.executable, .w16⟩
  instructionSet := .ofInstructions (Instruction.native ++ [⟨"blit", 0x80, []⟩])
  slots := [⟨"CON", 0, false⟩, ⟨"DSK", 15, true⟩]
  pool := ⟨[[1, 97, 98], [2, 1], [104, 105], [97, 98]]⟩
  references :=
    ⟨[("hello", .constant 2 .string), ("words", .constant 1 .values), ("bytes", .constant 0 .data),
      ("beep", .external 254), ("DSK", .slot 15), ("CON", .slot 0)]⟩

/-- What is put aside of it. -/
def declaringDeferred : List (Located Item) :=
  List.map .nowhere
    [.word "print", .constant 2 .string, .separator ',', .constant 3 .string, .lineEnd]

theorem consistent_readProgram_declaring :
    (∀ item ∈ declaringProgram, Item.IsSource item) ∧
      (readProgram declaringProgram).1 = .ok (declaringSession, declaringDeferred) ∧
      Consistent declaringProgram declaringSession declaringDeferred := by
  have hsource : ∀ item ∈ declaringProgram, Item.IsSource item := by
    simp [declaringProgram, Item.IsSource, Located.nowhere]
  have hread : (readProgram declaringProgram).1 = .ok (declaringSession, declaringDeferred) := by
    decide +kernel
  exact ⟨hsource, hread, (consistent_readProgram _ hsource).2 _ _ hread⟩

end StackAsm.Declaration
