import StackAsm.Proofs.Declaration.Effect
import StackAsm.Proofs.Item

/-!
# Where and why declarations fail

Whatever is wrong with a declaration is reported at an item of its line. If all items of a program
stand in `L`, so do the errors of reading it and the items that are put aside; only a program
without any line has nothing to point at.

One thing is never wrong. A module asks for a slot in range that no other module has. There are
sixteen such slots, and a container may have sixteen modules. So a module that asks for a free slot
finds room for it: the check that there is room never fails, whatever program is read.
-/

namespace StackAsm.Declaration

/-! ### Slots that are taken -/

/-- The slots are in range, and no two modules have the same. -/
structure Apart (slots : List Slot) : Prop where
  distinct : (slots.map (·.index)).Nodup
  inRange : ∀ slot ∈ slots, slot.index.toNat ≤ Limit.slotIndex

theorem apart_nil : Apart [] := ⟨List.nodup_nil, by simp⟩

/-- A slot that no module has is not among those taken. -/
theorem notMem_indices {slots : List Slot} {index : UInt8}
    (hfree : ∀ other ∈ slots, other.index ≠ index) : index ∉ slots.map (·.index) := by
  intro hmem
  obtain ⟨other, hother, heq⟩ := List.mem_map.mp hmem
  exact hfree other hother heq

/-- Another module takes a slot that is in range and free. -/
theorem Apart.concat {slots : List Slot} {slot : Slot} (h : Apart slots)
    (hfree : ∀ other ∈ slots, other.index ≠ slot.index)
    (hrange : slot.index.toNat ≤ Limit.slotIndex) : Apart (slots ++ [slot]) where
  distinct := by
    rw [List.map_append, List.map_singleton]
    refine h.distinct.append (List.nodup_singleton _) ?_
    exact List.disjoint_singleton.mpr (notMem_indices hfree)
  inRange := List.forall_mem_append.mpr ⟨h.inRange, by simpa using hrange⟩

/-- While a slot in range is free, not all of them are taken. -/
theorem Apart.length_lt {slots : List Slot} {index : UInt8} (h : Apart slots)
    (hfree : ∀ other ∈ slots, other.index ≠ index) (hrange : index.toNat ≤ Limit.slotIndex) :
    slots.length < Limit.slots := by
  -- the free one and those taken are different, so together they are sixteen at most
  have hnodup : (index :: slots.map (·.index)).Nodup :=
    List.nodup_cons.mpr ⟨notMem_indices hfree, h.distinct⟩
  have hle : ∀ i ∈ index :: slots.map (·.index), i.toNat ≤ Limit.slotIndex := by
    refine List.forall_mem_cons.mpr ⟨hrange, ?_⟩
    exact List.forall_mem_map.mpr h.inRange
  have hlength := Width.length_le_of_nodup_bytes hnodup hle
  rw [List.length_cons, List.length_map] at hlength
  exact hlength

theorem Effect.apart {session session' : Session} {keyword : Keyword} {items left : List Item}
    (h : Effect session keyword items left session') (hslots : Apart session.slots) :
    Apart session'.slots := by
  cases h with
  | slot slot c n _ index inRange plain unclaimed => exact hslots.concat unclaimed inRange
  | _ => exact hslots

/-! ### Reading arguments -/

variable {L : Option Location → Prop}

/-- The error stands in `L`, and is not that there are too many modules. -/
structure Refused (L : Option Location → Prop) (e : Located Error) : Prop where
  loc : L e.loc
  value : e.value ≠ .tooManySlots

/-- The arguments stand in `L`. -/
structure Arguments.Within (L : Option Location → Prop) (args : Arguments) : Prop where
  last : L args.last
  rest : ∀ item ∈ args.rest, L item.loc

/-- Arguments that stand in `L` are read to a result with `P`, or refused in `L`, and never because
there are too many modules. -/
def Stays (L : Option Location → Prop) {α : Type} (P : α → Prop) (x : Read α) : Prop :=
  ∀ args, args.Within L → Lands (fun p => P p.1 ∧ p.2.Within L) (Refused L) (x args)

namespace Stays

variable {α β : Type} {P : α → Prop} {Q : β → Prop} {x : Read α}

theorem pure {a : α} (h : P a) : Stays L P (Pure.pure a) := fun _ hargs => ⟨h, hargs⟩

theorem throw {e : Located Error} (h : Refused L e) : Stays L P (throw e) := fun _ _ => h

theorem bind {f : α → Read β} (hx : Stays L P x) (hf : ∀ a, P a → Stays L Q (f a)) :
    Stays L Q (x >>= f) :=
  fun args hargs => (hx args hargs).bind fun p hp => hf p.1 hp.1 p.2 hp.2

theorem map {f : α → β} (hx : Stays L P x) : Stays L (fun _ => True) (f <$> x) := by
  rw [map_eq_pure_bind]
  exact hx.bind fun _ _ => .pure trivial

theorem get_bind {f : Arguments → Read β} (hf : ∀ args, args.Within L → Stays L Q (f args)) :
    Stays L Q (get >>= f) := fun args hargs => hf args hargs args hargs

theorem lift {y : Except (Located Error) α} (h : Lands P (Refused L) y) :
    Stays L P (liftM y : Read α) :=
  fun _ hargs => h.bind fun _ ha => ⟨ha, hargs⟩

/-- What follows a check may rely on it. -/
theorem guard {c : Prop} [Decidable c] {e : Located Error} {k : PUnit → Read β}
    (he : c → Refused L e) (hk : ¬c → Stays L Q (k ())) :
    Stays L Q (if c then MonadExcept.throw e >>= k else k ()) := by
  by_cases h : c
  · rw [if_pos h]
    exact fun _ _ => he h
  · rw [if_neg h]
    exact hk h

theorem mapM {f : α → Read β} {xs : List α} (h : ∀ a ∈ xs, Stays L Q (f a)) :
    Stays L (fun _ => True) (xs.mapM f) := by
  induction xs with
  | nil => exact .pure trivial
  | cons a xs ih =>
    obtain ⟨ha, hxs⟩ := List.forall_mem_cons.mp h
    rw [List.mapM_cons]
    exact ha.bind fun _ _ => (ih hxs).bind fun _ _ => .pure trivial

end Stays

/-- An item of the wrong kind is refused where it stands. -/
theorem refused_unexpected {item : Located Item} (h : L item.loc) (expected : String) :
    Refused L (unexpected item expected) := ⟨h, nofun⟩

theorem stays_readItem (expected : String) :
    Stays L (fun item => L item.loc) (readItem expected) := by
  rintro ⟨last, rest⟩ ⟨hlast, hrest⟩
  cases rest with
  | nil => exact ⟨hlast, nofun⟩
  | cons item rest =>
    obtain ⟨hitem, hrest⟩ := List.forall_mem_cons.mp hrest
    exact ⟨hitem, hlast, hrest⟩

theorem stays_readName : Stays L (fun name => L name.loc) readName := by
  refine (stays_readItem _).bind fun item hitem => ?_
  split
  · exact .pure hitem
  · exact .throw (refused_unexpected hitem _)

theorem stays_readNumber (expected : String) :
    Stays L (fun n => L n.loc) (readNumber expected) := by
  refine (stays_readItem _).bind fun item hitem => ?_
  split
  · exact .pure hitem
  · exact .throw (refused_unexpected hitem _)

theorem stays_readByte (expected : String) : Stays L (fun _ => True) (readByte expected) := by
  refine (stays_readNumber _).bind fun n hn => ?_
  split
  · exact .pure trivial
  · exact .throw ⟨hn, nofun⟩

theorem stays_readText : Stays L (fun _ => True) readText := by
  refine (stays_readItem _).bind fun item hitem => ?_
  split
  · exact .pure trivial
  · exact .throw (refused_unexpected hitem _)

theorem stays_readSeparator : Stays L (fun _ => True) readSeparator := by
  refine (stays_readItem _).bind fun item hitem => ?_
  split
  · exact .pure trivial
  · exact .throw (refused_unexpected hitem _)

theorem stays_readMore : Stays L (fun _ => True) readMore := by
  refine .get_bind fun args _ => ?_
  split
  · exact .pure trivial
  · exact stays_readSeparator.bind fun _ _ => .pure trivial

theorem lands_expectEnd {args : Arguments} (h : args.Within L) :
    Lands (fun _ => True) (Refused L) args.expectEnd := by
  unfold Arguments.expectEnd
  split
  · trivial
  · next item rest hrest => exact refused_unexpected (h.rest item (by simp [hrest])) _

theorem lands_elementsInto {last : Option Location} (hlast : L last) {items : List (Located Item)}
    (hitems : ∀ item ∈ items, L item.loc) (done : Array (Located Item))
    (hdone : ∀ item ∈ done, L item.loc) (depth : Nat) (place : Place) :
    Lands (fun elements => ∀ item ∈ elements, L item.loc) (Refused L)
      (elementsInto last done depth place items) := by
  induction items generalizing done depth place with
  | nil =>
    cases place with
    | beforeValue => exact ⟨hlast, nofun⟩
    | afterValue =>
      show Lands _ _ (if depth = 0 then .ok done else .error _)
      split
      · exact hdone
      · exact ⟨hlast, nofun⟩
  | cons item items ih =>
    obtain ⟨hitem, hrest⟩ := List.forall_mem_cons.mp hitems
    have hpush : ∀ other ∈ done.push item, L other.loc := by
      intro other hother
      rcases Array.mem_push.mp hother with hold | rfl
      · exact hdone other hold
      · exact hitem
    obtain ⟨loc, value⟩ := item
    cases place with
    | beforeValue =>
      cases value with
      | bracketOpen => exact ih hrest done hdone (depth + 1) .beforeValue
      | number n => exact ih hrest _ hpush depth .afterValue
      | text content => exact ih hrest _ hpush depth .afterValue
      | _ => exact ⟨hitem, nofun⟩
    | afterValue =>
      cases value with
      | separator c => exact ih hrest done hdone depth .beforeValue
      | bracketClose =>
        show Lands _ _ (if depth = 0 then .error _
          else elementsInto last done (depth - 1) .afterValue items)
        split
        · exact ⟨hitem, nofun⟩
        · exact ih hrest done hdone (depth - 1) .afterValue
      | _ => exact ⟨hitem, nofun⟩

theorem stays_readElements :
    Stays L (fun elements => ∀ item ∈ elements, L item.loc) readElements := by
  rintro ⟨last, rest⟩ ⟨hlast, hrest⟩
  refine (lands_elementsInto hlast hrest #[] (by simp) 0 .beforeValue).bind fun elements h => ?_
  exact ⟨fun item hitem => h item (Array.mem_toList_iff.mp hitem), hlast, by simp⟩

theorem stays_readVersion (full : Bool) : Stays L (fun _ => True) (readVersion full) := by
  have htooShort : Stays L (fun _ => True)
      (do throw ⟨(← get).last, .unexpectedEnd "a separator"⟩ : Read Triple) :=
    .get_bind fun args hargs => .throw ⟨hargs.last, nofun⟩
  unfold readVersion
  refine (stays_readByte _).bind fun first _ => stays_readMore.bind fun more _ => ?_
  split
  · exact htooShort
  · refine (stays_readByte _).bind fun second _ => stays_readMore.bind fun more _ => ?_
    split
    · split
      · exact htooShort
      · exact .pure trivial
    · exact (stays_readByte _).bind fun third _ => .pure trivial

/-! ### Declarations -/

section

variable {session : Session}

theorem stays_requireFree {name : Located String} (h : L name.loc) :
    Stays L (fun _ => True) (requireFree session name) := by
  unfold requireFree
  split
  · exact .throw ⟨h, nofun⟩
  · exact .pure trivial

theorem lands_dataBytes {item : Located Item} (h : L item.loc) :
    Lands (fun _ => True) (Refused L) (dataBytes item) := by
  unfold dataBytes
  split
  · split
    · trivial
    · exact ⟨h, nofun⟩
  · trivial
  · exact ⟨h, nofun⟩

theorem lands_valueBytes (w : Width) {item : Located Item} (h : L item.loc) :
    Lands (fun _ => True) (Refused L) (valueBytes w item) := by
  unfold valueBytes
  split
  · split
    · trivial
    · exact ⟨h, nofun⟩
  · exact ⟨h, nofun⟩

theorem stays_readBytes {bytesOf : Located Item → Except (Located Error) Bytes}
    (h : ∀ item, L item.loc → Lands (fun _ => True) (Refused L) (bytesOf item)) :
    Stays L (fun _ => True) (readBytes bytesOf) := by
  refine stays_readElements.bind fun elements helements => ?_
  have hall : ∀ item ∈ elements, Stays L (fun _ => True) (liftM (bytesOf item) : Read Bytes) :=
    fun item hitem => .lift (h item (helements item hitem))
  exact (Stays.mapM hall).bind fun _ _ => .pure trivial

theorem stays_readConstant (kind : ConstantKind) :
    Stays L (fun _ => True) (readConstant session kind) := by
  refine stays_readName.bind fun name hname => (stays_requireFree hname).bind fun _ _ => ?_
  refine stays_readSeparator.bind fun _ _ => ?_
  cases kind with
  | string => exact stays_readText.map.bind fun _ _ => .pure trivial
  | data =>
    exact (stays_readBytes fun item hitem => lands_dataBytes hitem).bind fun _ _ => .pure trivial
  | values =>
    exact (stays_readBytes fun item hitem => lands_valueBytes _ hitem).bind
      fun _ _ => .pure trivial

/-- A module that asks for a free slot finds room, since the slots taken are different ones. -/
theorem stays_readSlot (hslots : Apart session.slots) {head : Option Location} (hhead : L head)
    (optional : Bool) : Stays L (fun _ => True) (readSlot session head optional) := by
  refine stays_readName.bind fun name hname => stays_readSeparator.bind fun _ _ => ?_
  refine (stays_readNumber _).bind fun index hindex => ?_
  refine .guard (fun _ => ⟨hhead, nofun⟩) fun _ => ?_
  refine .guard (fun _ => ⟨hindex, nofun⟩) fun hrange => ?_
  refine .guard (fun _ => ⟨hindex, nofun⟩) fun hunclaimed => .guard (fun hfull => ?_) fun _ => ?_
  · simp only [Bool.not_eq_true', Bool.not_eq_false, Bool.and_eq_true, decide_eq_true_eq] at hrange
    have hbyte := Width.toNat_lowByte hrange.1 (Int.le_trans hrange.2 (by decide))
    have hle : index.value.toUInt64.toUInt8.toNat ≤ Limit.slotIndex := by
      have hhigh := hrange.2
      omega
    have hroom := hslots.length_lt (by simpa using hunclaimed) hle
    exact absurd hfull (Nat.not_le.mpr hroom)
  · exact (stays_requireFree hname).bind fun _ _ => .pure trivial

theorem stays_readExternal : Stays L (fun _ => True) (readExternal session) := by
  refine stays_readName.bind fun name hname => stays_readSeparator.bind fun _ _ => ?_
  refine (stays_readNumber _).bind fun index hindex => .guard (fun _ => ⟨hindex, nofun⟩) fun _ => ?_
  exact (stays_requireFree hname).bind fun _ _ => .pure trivial

theorem lands_contractsFrom {last : Option Location} (hlast : L last)
    {items : List (Located Item)} (h : ∀ item ∈ items, L item.loc) :
    Lands (fun _ => True) (Refused L) (contractsFrom last items) := by
  fun_induction contractsFrom last items with
  | case1 => trivial
  | case2 => exact ⟨hlast, by simp⟩
  | case3 separator _ item items _ _ _ contract _ ih =>
    exact (ih fun other hother => h other (by simp [hother])).map fun _ _ => trivial
  | case4 separator _ item => exact ⟨h item (by simp), by simp [Located.withValue]⟩
  | case5 separator _ item => exact refused_unexpected (h item (by simp)) _
  | case6 separator => exact refused_unexpected (h separator (by simp)) _

theorem stays_readInstruction : Stays L (fun _ => True) (readInstruction session) := by
  refine stays_readName.bind fun name hname => stays_readSeparator.bind fun _ _ => ?_
  refine (stays_readByte _).bind fun opcode _ => .get_bind fun args hargs => ?_
  refine (Stays.lift (lands_contractsFrom hargs.last hargs.rest)).bind fun contracts _ => ?_
  refine Stays.bind (P := fun _ => True) (fun _ _ => ⟨trivial, hargs.last, by simp⟩) fun _ _ => ?_
  exact (stays_requireFree hname).bind fun _ _ => .pure trivial

theorem stays_read (hslots : Apart session.slots) {head : Option Location} (hhead : L head)
    (keyword : Keyword) : Stays L (fun _ => True) (keyword.read session head) := by
  cases keyword with
  | data => exact stays_readConstant .data
  | string => exact stays_readConstant .string
  | values => exact stays_readConstant .values
  | slot => exact stays_readSlot hslots hhead _
  | optionalSlot => exact stays_readSlot hslots hhead _
  | external => exact stays_readExternal
  | instruction => exact stays_readInstruction
  | title => exact stays_readText.map
  | author => exact stays_readText.map
  | description => exact stays_readText.map
  | version => exact (stays_readVersion _).map
  | runtime => exact (stays_readVersion _).map
  | resources => exact (stays_readVersion _).map

end

/-! ### Programs -/

/-- The items put aside stand in `L`, and the slots are apart. -/
structure State.Within (L : Option Location → Prop) (s : State) : Prop where
  deferred : ∀ item ∈ s.deferred, L item.loc
  slots : Apart s.session.slots

theorem within_ofLine {head : Located Item} {rest : List (Located Item)} (hhead : L head.loc)
    (hrest : ∀ item ∈ rest, L item.loc) : (Arguments.ofLine head rest).Within L where
  last := by
    unfold Arguments.ofLine
    cases hlast : rest.getLast? with
    | none => exact hhead
    | some last => exact hrest last (List.mem_of_getLast? hlast)
  rest := hrest

theorem lands_readHeader {head : Located Item} {rest : List (Located Item)} (hhead : L head.loc)
    (hrest : ∀ item ∈ rest, L item.loc) :
    Lands (fun _ => True) (Refused L) (readHeader head rest) := by
  unfold readHeader
  extract_lets kind?
  cases kind? with
  | none => exact ⟨hhead, nofun⟩
  | some kind =>
    have hbits : Stays L (fun bits => L bits.loc)
        (do readSeparator; readNumber "a bit width" : Read (Located Int64)) :=
      stays_readSeparator.bind fun _ _ => stays_readNumber _
    refine (hbits _ (within_ofLine hhead hrest)).bind fun p hp => ?_
    obtain ⟨bits, args⟩ := p
    dsimp only
    split
    · exact ⟨hp.1, nofun⟩
    · exact ⟨hp.1, nofun⟩
    · exact (lands_expectEnd hp.2).bind fun _ _ => trivial

section

variable {α : Type} {P : α → Prop}

theorem upholds_report (events : List Event) :
    Upholds (State.Within L) (fun _ => True) (Refused L) (report events) :=
  .modify fun _ hs => ⟨hs.deferred, hs.slots⟩

theorem upholds_orFail {x : Except (Located Error) α} (h : Lands P (Refused L) x) :
    Upholds (State.Within L) P (Refused L) (orFail x) := by
  cases x with
  | ok a => exact .pure h
  | error e => exact .throw h

end

theorem State.Within.push {s : State} (h : s.Within L) (pool : Pool) {item : Located Item}
    (hitem : L item.loc) :
    State.Within L
      { s with session := { s.session with pool }, deferred := s.deferred.push item } where
  deferred other hother := by
    rcases Array.mem_push.mp hother with hold | rfl
    · exact h.deferred other hold
    · exact hitem
  slots := h.slots

theorem upholds_deferItem {item : Located Item} (h : L item.loc) :
    Upholds (State.Within L) (fun _ => True) (Refused L) (deferItem item) := by
  unfold deferItem
  split
  · refine .get_bind fun s _ => ?_
    dsimp only
    split
    · exact .throw ⟨h, nofun⟩
    · next index pool _ => exact .modify fun s hs => hs.push pool h
  · exact .modify fun s hs => hs.push s.session.pool h

theorem upholds_deferLine {head : Located Item} {rest : List (Located Item)} (hhead : L head.loc)
    (hrest : ∀ item ∈ rest, L item.loc) :
    Upholds (State.Within L) (fun _ => True) (Refused L) (deferLine head rest) := by
  have hitems : ∀ items : List (Located Item), (∀ item ∈ items, L item.loc) →
      Upholds (State.Within L) (fun _ => True) (Refused L) (items.forM deferItem) := by
    intro items h
    induction items with
    | nil => exact .pure trivial
    | cons item items ih =>
      obtain ⟨hitem, hitems⟩ := List.forall_mem_cons.mp h
      exact (upholds_deferItem hitem).bind fun _ _ => ih hitems
  refine (hitems _ (List.forall_mem_cons.mpr ⟨hhead, hrest⟩)).bind fun _ _ => ?_
  have hlast : L (rest.getLast?.getD head).loc := (within_ofLine hhead hrest).last
  exact .modify fun s hs => hs.push s.session.pool hlast

/-- A declaration that was read fails for other reasons than that there are too many modules. -/
theorem apply_ne_tooManySlots {session : Session} {declaration : Declaration} {e : Error}
    (h : declaration.apply session = .error e) : e ≠ .tooManySlots := by
  cases declaration with
  | constant kind name bytes =>
    simp only [apply] at h
    split at h
    · cases h
      simp
    · cases h
  | instruction i =>
    simp only [apply] at h
    split at h
    · cases h
      simp
    · cases h
  | _ => cases h

theorem upholds_declareLine (keyword : Keyword) {head : Located Item}
    {rest : List (Located Item)} (hhead : L head.loc) (hrest : ∀ item ∈ rest, L item.loc) :
    Upholds (State.Within L) (fun _ => True) (Refused L) (declareLine keyword head rest) := by
  unfold declareLine
  refine (upholds_report _).bind fun _ _ => .get_bind fun s hs => ?_
  have hstays := stays_read hs.slots hhead keyword _ (within_ofLine hhead hrest)
  refine (upholds_orFail hstays.and_eq_ok).bind ?_
  rintro ⟨declaration, args⟩ ⟨⟨-, hargs⟩, hread⟩
  have happly : Lands (fun _ => True) (Refused L)
      ((declaration.apply s.session).mapError head.withValue) := by
    cases happlied : declaration.apply s.session with
    | ok after => trivial
    | error e => exact ⟨hhead, apply_ne_tooManySlots happlied⟩
  refine (upholds_orFail happly.and_eq_ok).bind fun after hafter => ?_
  have hslots := (effect_of_read hread (except_mapError_eq_ok.mp hafter.2)).apart hs.slots
  refine (upholds_report _).bind fun _ _ => ?_
  refine Upholds.bind (.modify fun s hs => ⟨hs.deferred, hslots⟩) fun _ _ => ?_
  exact upholds_orFail (lands_expectEnd hargs)

theorem upholds_readLine {head : Located Item} {rest : List (Located Item)} (hhead : L head.loc)
    (hrest : ∀ item ∈ rest, L item.loc) :
    Upholds (State.Within L) (fun _ => True) (Refused L) (readLine head rest) := by
  unfold readLine
  split
  · split
    · exact .throw ⟨hhead, nofun⟩
    · split
      · exact upholds_declareLine _ hhead hrest
      · exact upholds_deferLine hhead hrest
  · exact upholds_deferLine hhead hrest

theorem upholds_readLines {lines : List (List (Located Item))}
    (h : ∀ line ∈ lines, ∀ item ∈ line, L item.loc) :
    Upholds (State.Within L) (fun _ => True) (Refused L) (readLines lines) := by
  induction lines with
  | nil => exact .pure trivial
  | cons line lines ih =>
    obtain ⟨hline, hlines⟩ := List.forall_mem_cons.mp h
    cases line with
    | nil => exact ih hlines
    | cons head rest =>
      obtain ⟨hhead, hrest⟩ := List.forall_mem_cons.mp hline
      exact (upholds_readLine hhead hrest).bind fun _ _ => ih hlines

/-- A program whose items stand in `L` is read to items that do and to slots that are apart, or
refused in `L` for another reason than that there are too many modules, unless it has no lines. -/
theorem lands_readProgram {items : List (Located Item)} (h : ∀ item ∈ items, L item.loc) :
    Lands (fun p => (∀ item ∈ p.2, L item.loc) ∧ Apart p.1.slots)
      (fun e => Refused L e ∨
        Item.lines items = [] ∧ e = .nowhere (.unexpectedEnd "the header"))
      (readProgram items).1 := by
  have hlines : ∀ line ∈ Item.lines items, ∀ item ∈ line, L item.loc :=
    fun line hline item hitem => h item (Item.mem_of_mem_lines hline item hitem)
  unfold readProgram
  split
  · next hnil => exact .inr ⟨hnil, rfl⟩
  · next hempty =>
    -- no line is empty
    have hmem : [] ∈ Item.lines items := by rw [hempty]; exact List.mem_cons_self
    have hne := (List.mem_filter.mp hmem).2
    simp at hne
  · next head rest lines heq =>
    rw [heq] at hlines
    obtain ⟨hline, hlines⟩ := List.forall_mem_cons.mp hlines
    obtain ⟨hhead, hrest⟩ := List.forall_mem_cons.mp hline
    have hheader := lands_readHeader hhead hrest
    split
    · next e herror =>
      rw [herror] at hheader
      exact .inl hheader
    · next type _ =>
      have hread := upholds_readLines hlines
        { session := { type }, events := #[.header type] } ⟨by simp, apart_nil⟩
      split
      · next e s herror =>
        rw [herror] at hread
        exact .inl hread
      · next s hok =>
        rw [hok] at hread
        obtain ⟨-, hdeferred, hslots⟩ := hread
        exact ⟨fun item hitem => hdeferred item (Array.mem_toList_iff.mp hitem), hslots⟩

/-- No program is refused because there are too many modules. -/
theorem readProgram_ne_tooManySlots (items : List (Located Item)) (loc : Option Location) :
    (readProgram items).1 ≠ .error ⟨loc, .tooManySlots⟩ := by
  intro herror
  have hanywhere : ∀ item ∈ items, True := fun _ _ => trivial
  have hlands := lands_readProgram (L := fun _ => True) hanywhere
  rw [herror] at hlands
  rcases hlands with hrefused | ⟨-, hheader⟩
  · exact hrefused.value rfl
  · cases hheader

theorem apart_of_readProgram {items deferred : List (Located Item)} {session : Session}
    (h : (readProgram items).1 = .ok (session, deferred)) : Apart session.slots := by
  have hanywhere : ∀ item ∈ items, True := fun _ _ => trivial
  have hlands := lands_readProgram (L := fun _ => True) hanywhere
  rw [h] at hlands
  exact hlands.2

end StackAsm.Declaration
