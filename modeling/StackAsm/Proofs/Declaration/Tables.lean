import StackAsm.Proofs.Declaration.Names
import StackAsm.Proofs.Item

/-!
# The tables of a session

Slots, pool and references as they are once the declarations of a program are read: the slots are
few enough and in range, their names are plain, and they are exactly the slots that names refer to.
The items put aside refer to constants that the pool holds.
-/

namespace StackAsm.Declaration

/-- What holds of the tables while declarations are read. -/
structure Tables (session : Session) : Prop where
  pool : session.pool.WellFormed
  slotCount : session.slots.length ≤ Limit.slots
  slotIndex : ∀ slot ∈ session.slots, slot.index.toNat ≤ Limit.slotIndex
  slotName : ∀ slot ∈ session.slots, isModuleName slot.name
  /-- The name of a slot refers to it. -/
  slotReferred : ∀ slot ∈ session.slots,
    session.references.get? slot.name = some (.slot slot.index)
  /-- A name that refers to a slot is the name of one. -/
  slotNamed : ∀ name index, session.references.get? name = some (.slot index) →
    ∃ slot ∈ session.slots, slot.name = name ∧ slot.index = index
  /-- No name refers to a symbol yet. -/
  noSymbol : ∀ name position, session.references.get? name ≠ some (.symbol position)

theorem tables_empty (type : ContainerType) : Tables { type } where
  pool := Pool.wellFormed_empty
  slotCount := Nat.zero_le _
  slotIndex := by simp
  slotName := by simp
  slotReferred := by simp
  slotNamed := by intro name index h; cases h
  noSymbol := by intro name position h; cases h

variable {session session' : Session} {line put : List (Located Item)}
  {lines : List (List (Located Item))}

/-- A name for something other than a slot or a symbol changes nothing about the slots. -/
theorem Tables.refer {name : String} {r : Reference} (h : Tables session)
    (hfree : session.isTaken name = false) (hslot : ∀ index, r ≠ .slot index)
    (hsymbol : ∀ position, r ≠ .symbol position) : Tables (session.refer name r) where
  pool := h.pool
  slotCount := h.slotCount
  slotIndex := h.slotIndex
  slotName := h.slotName
  slotReferred := fun slot hmem => Session.get?_refer_of_free hfree (h.slotReferred slot hmem)
  slotNamed := by
    intro other index hget
    rw [Session.get?_refer] at hget
    split at hget
    · exact absurd (Option.some.inj hget) (hslot index)
    · exact h.slotNamed other index hget
  noSymbol := by
    intro other position hget
    rw [Session.get?_refer] at hget
    split at hget
    · exact hsymbol position (Option.some.inj hget)
    · exact h.noSymbol other position hget

theorem Tables.withPool {pool : Pool} (h : Tables session) (hpool : pool.WellFormed) :
    Tables { session with pool } := { h with pool := hpool }

/-- A module takes its slot under a free name. -/
theorem Tables.addSlot {slot : Slot} (h : Tables session)
    (hfree : session.isTaken slot.name = false) (hindex : slot.index.toNat ≤ Limit.slotIndex)
    (hname : isModuleName slot.name) (hroom : session.slots.length < Limit.slots) :
    Tables ({ session with slots := session.slots ++ [slot] }.refer slot.name
      (.slot slot.index)) where
  pool := h.pool
  slotCount := by
    show (session.slots ++ [slot]).length ≤ Limit.slots
    rw [List.length_append]
    exact hroom
  slotIndex := List.forall_mem_append.mpr ⟨h.slotIndex, by simpa using hindex⟩
  slotName := List.forall_mem_append.mpr ⟨h.slotName, by simpa using hname⟩
  slotReferred := by
    refine List.forall_mem_append.mpr ⟨fun other hmem => ?_, ?_⟩
    · exact Session.get?_refer_of_free hfree (h.slotReferred other hmem)
    · intro other hmem
      rw [List.mem_singleton.mp hmem, Session.get?_refer, if_pos rfl]
  slotNamed := by
    intro name index hget
    rw [Session.get?_refer] at hget
    split at hget
    · next hname' =>
      cases hget
      exact ⟨slot, by simp [Session.refer], hname'.symm, rfl⟩
    · obtain ⟨other, hmem, hother⟩ := h.slotNamed name index hget
      exact ⟨other, List.mem_append_left _ hmem, hother⟩
  noSymbol := by
    intro name position hget
    rw [Session.get?_refer] at hget
    split at hget
    · cases hget
    · exact h.noSymbol name position hget

theorem Effect.tables {keyword : Keyword} {items left : List Item}
    (h : Effect session keyword items left session') (ht : Tables session) : Tables session' := by
  cases h with
  | constant kind name c content _ index pool free registered =>
    have hpool := (Pool.grows_register registered).wellFormed ht.pool
    exact (ht.withPool hpool).refer free (by simp) (by simp)
  | slot slot c n _ index inRange plain unclaimed room free =>
    exact ht.addSlot free inRange plain room
  | external name c n index _ value inRange free => exact ht.refer free (by simp) (by simp)
  | instruction => exact { ht with }
  | described => exact { ht with }

theorem LineRead.tables (h : LineRead session line session' put) (ht : Tables session) :
    Tables session' := by
  cases h with
  | declared _ _ effect => exact effect.tables ht
  | deferred _ _ stores => exact ht.withPool (stores.grows.wellFormed ht.pool)

theorem Reading.tables (h : Reading session lines session' put) (ht : Tables session) :
    Tables session' := by
  induction h with
  | nil => exact ht
  | cons read _ ih => exact ih (read.tables ht)

theorem tables_readProgram {items deferred : List (Located Item)} {events : List Event}
    (h : readProgram items = (.ok (session, deferred), events)) : Tables session := by
  obtain ⟨_, _, _, type, _, _, _, _, hreading⟩ := reading_readProgram h
  exact hreading.tables (tables_empty type)

/-! ### Items put aside -/

theorem Stores.held {pool pool' : Pool} {items stored : List (Located Item)}
    (h : Stores pool items pool' stored) (hpool : pool.WellFormed)
    (hsource : ∀ item ∈ items, Item.IsSource item) :
    ∀ item ∈ stored, ∀ index kind, item.value = .constant index kind →
      ∃ bytes, pool'.get? index = some bytes := by
  induction h with
  | nil => simp
  | @text pool pool₁ pool' item items stored content index value registered rest ih =>
    refine List.forall_mem_cons.mpr ⟨?_, ?_⟩
    · rintro _ _ ⟨⟩
      exact ⟨_, rest.grows.get? (hpool.get?_register registered)⟩
    · exact ih ((Pool.grows_register registered).wellFormed hpool) fun item hmem =>
        hsource item (List.mem_cons_of_mem _ hmem)
  | @other pool pool' item items stored value rest ih =>
    refine List.forall_mem_cons.mpr ⟨?_, ?_⟩
    · intro index kind hvalue
      exact absurd hvalue (hsource item List.mem_cons_self index kind)
    · exact ih hpool fun item hmem => hsource item (List.mem_cons_of_mem _ hmem)

theorem LineRead.held (h : LineRead session line session' put) (hpool : session.pool.WellFormed)
    (hsource : ∀ item ∈ line, Item.IsSource item) :
    ∀ item ∈ put, ∀ index kind, item.value = .constant index kind →
      ∃ bytes, session'.pool.get? index = some bytes := by
  cases h with
  | declared => simp
  | deferred loc plain stores =>
    refine List.forall_mem_append.mpr ⟨stores.held hpool hsource, ?_⟩
    simp

/-- What is put aside of a program without references to the pool refers to constants that the
pool holds in the end. -/
theorem Reading.held (h : Reading session lines session' put) (hpool : session.pool.WellFormed)
    (hsource : ∀ line ∈ lines, ∀ item ∈ line, Item.IsSource item) :
    ∀ item ∈ put, ∀ index kind, item.value = .constant index kind →
      ∃ bytes, session'.pool.get? index = some bytes := by
  induction h with
  | nil => simp
  | cons read reading ih =>
    refine List.forall_mem_append.mpr ⟨?_, ?_⟩
    · intro item hmem index kind hvalue
      obtain ⟨bytes, hbytes⟩ :=
        read.held hpool (hsource _ List.mem_cons_self) item hmem index kind hvalue
      exact ⟨bytes, reading.grows.get? hbytes⟩
    · exact ih (read.grows.wellFormed hpool) fun line hmem =>
        hsource line (List.mem_cons_of_mem _ hmem)

end StackAsm.Declaration
