import StackAsm.Proofs.Container.RoundTrip
import StackAsm.Proofs.Effects

/-!
# Every container has one form

Whatever a reader makes of some bytes, the bytes it has taken are those that writing it gives: no
bit of the flags is ignored, and no length has a second form. So the bytes of a container that is
read are the only ones it is read from. They are what it is written as, too, with one exception: the
length of the name of a module is checked in writing and not in reading.
-/

namespace StackAsm.Container

/-! ### Fields -/

theorem readBytes_eq_ok {what : String} {n : Nat} {bs x rest : Bytes}
    (h : readBytes what n bs = .ok (x, rest)) : x.length = n ∧ bs = x ++ rest := by
  unfold readBytes at h
  dsimp only at h
  split at h
  · next hlength =>
    cases h
    exact ⟨hlength, (List.take_append_drop n bs).symm⟩
  · cases h

theorem readByte_eq_ok {what : String} {b : UInt8} {bs rest : Bytes}
    (h : readByte what bs = .ok (b, rest)) : bs = [b] ++ rest := by
  cases bs with
  | nil => cases h
  | cons b' bs =>
    cases h
    rfl

/-- A number has one form at a width. -/
theorem readNumber_eq_ok {w : Width} {what : String} {n : UInt64} {bs rest : Bytes}
    (h : readNumber w what bs = .ok (n, rest)) : n.toNat < w.range ∧ bs = w.encode n ++ rest := by
  obtain ⟨x, mid, hx, hread⟩ := stateT_bind_eq_ok.mp h
  obtain ⟨hlength, hbs⟩ := readBytes_eq_ok hx
  obtain ⟨m, hdecode, hlt, hencode⟩ := Width.exists_decode hlength
  rw [hdecode] at hread
  cases hread
  exact ⟨hlt, by rw [hencode, hbs]⟩

theorem readTriple_eq_ok {what : String} {t : Triple} {bs rest : Bytes}
    (h : readTriple what bs = .ok (t, rest)) : bs = t.toList ++ rest := by
  unfold readTriple at h
  split at h
  · cases h
    rfl
  · cases h

/-! ### Reading what would have been written -/

section

variable {α : Type} {r : Reader α} {steps : α → List Step} {refused : α → Option WriteError}

/-- Whatever the reader makes of some bytes, it has taken the bytes of the steps of writing it off
the front, and the first check among these steps that fails is the one of `refused`, if any. -/
def Recovers (r : Reader α) (steps : α → List Step) (refused : α → Option WriteError) : Prop :=
  ∀ ⦃bs x rest⦄, r bs = .ok (x, rest) →
    refusal (steps x) = refused x ∧ bs = output (steps x) ++ rest

/-- Values one after the other are refused for the first of them that is. -/
theorem Recovers.many (h : Recovers r steps refused) {n : Nat} {bs rest : Bytes} {xs : List α}
    (hread : readMany r n bs = .ok (xs, rest)) :
    xs.length = n ∧ refusal (xs.flatMap steps) = xs.findSome? refused ∧
      bs = output (xs.flatMap steps) ++ rest := by
  induction n generalizing bs xs with
  | zero =>
    cases hread
    exact ⟨rfl, rfl, rfl⟩
  | succ n ih =>
    obtain ⟨x, mid, hx, hread⟩ := stateT_bind_eq_ok.mp hread
    obtain ⟨xs', mid', hxs, hread⟩ := stateT_bind_eq_ok.mp hread
    cases hread
    obtain ⟨hrefusal, rfl⟩ := h hx
    obtain ⟨hlength, hrefusals, rfl⟩ := ih hxs
    refine ⟨by rw [List.length_cons, hlength], ?_, ?_⟩
    · rw [List.flatMap_cons, refusal_append, hrefusal, hrefusals, List.findSome?_cons]
      cases refused x <;> rfl
    · rw [List.flatMap_cons, output_append, List.append_assoc]

/-- The steps of writing a table: its number of entries, and the entries. -/
def tableSteps (steps : α → List Step) (limit : Nat) (e : Nat → WriteError) (xs : List α) :
    List Step :=
  countSteps xs.length limit (e xs.length) ++ xs.flatMap steps

/-- The count in front of a table is the number of entries that are read. -/
theorem Recovers.table (h : Recovers r steps refused) {what : String} {limit : Nat}
    (e : Nat → WriteError) {count : UInt8} {bs mid rest : Bytes} {xs : List α}
    (hlimit : count.toNat ≤ limit) (hcount : readByte what bs = .ok (count, mid))
    (hread : readMany r count.toNat mid = .ok (xs, rest)) :
    refusal (tableSteps steps limit e xs) = xs.findSome? refused ∧
      bs = output (tableSteps steps limit e xs) ++ rest := by
  obtain ⟨hlength, hrefusal, hmid⟩ := h.many hread
  constructor
  · have hfits : refusal (countSteps xs.length limit (e xs.length)) = none := by
      rw [refusal_eq_none_iff, accepted_countSteps, hlength]
      exact hlimit
    rw [tableSteps, refusal_append, hfits, Option.none_or, hrefusal]
  · rw [readByte_eq_ok hcount, hmid, tableSteps, output_append, output_countSteps, hlength,
      UInt8.ofNat_toNat, List.append_assoc]

end

/-- A length has one form. -/
theorem recovers_blob (w : Width) (what what' : String) :
    Recovers (readBlob w what) (blobSteps w what') fun _ => none := by
  intro bs x rest h
  obtain ⟨length, mid, hlength, hread⟩ := stateT_bind_eq_ok.mp h
  obtain ⟨hlt, rfl⟩ := readNumber_eq_ok hlength
  obtain ⟨hx, rfl⟩ := readBytes_eq_ok hread
  have hfits := (w.fitsLength_iff length.toNat).mpr hlt
  constructor
  · simp [blobSteps, hx, hfits]
  · simp [blobSteps, hx]

theorem toNat_ofNat_of_ascii : ∀ n < 128, (Char.ofNat n).toNat = n := by
  decide

/-- The text that is made of bytes of plain ASCII is plain and has these bytes. -/
theorem isAscii_ofList {bs : Bytes} (h : bs.all (· < 128)) :
    isAscii (String.ofList (bs.map fun b => Char.ofNat b.toNat)) ∧
      asciiBytes (String.ofList (bs.map fun b => Char.ofNat b.toNat)) = bs := by
  have hchar : ∀ b ∈ bs, b.toNat < 128 ∧ (Char.ofNat b.toNat).toNat = b.toNat := by
    intro b hb
    have hb' := of_decide_eq_true (List.all_eq_true.mp h b hb)
    have hlt : b.toNat < 128 := UInt8.lt_iff_toNat_lt.mp hb'
    exact ⟨hlt, toNat_ofNat_of_ascii _ hlt⟩
  constructor
  · rw [isAscii, String.toList_ofList, List.all_map, List.all_eq_true]
    intro b hb
    simp [hchar b hb]
  · rw [asciiBytes, String.toList_ofList, List.map_map]
    refine (List.map_congr_left fun b hb => ?_).trans (List.map_id _)
    simp [(hchar b hb).2]

theorem recovers_text (w : Width) (what what' : String) :
    Recovers (readText w what) (textSteps w what') fun _ => none := by
  intro bs s rest h
  obtain ⟨bytes, mid, hblob, h⟩ := stateT_bind_eq_ok.mp h
  obtain ⟨hplain, h⟩ := stateT_ite_eq_ok.mp h
  cases h
  obtain ⟨hascii, hbytes⟩ := isAscii_ofList hplain
  obtain ⟨hrefusal, rfl⟩ := recovers_blob w what what' hblob
  constructor
  · rw [textSteps, hbytes, refusal_append, refusal_require, if_pos hascii, hrefusal]
    rfl
  · rw [textSteps, hbytes, output_append, output_require, List.nil_append]

/-! ### Parts -/

theorem eq_kindTag_of_kindOfTag? {b : UInt8} {kind : ContainerKind} (h : kindOfTag? b = some kind) :
    b = kindTag kind := by
  unfold kindOfTag? at h
  split at h
  · next hb =>
    cases h
    exact hb
  · split at h
    · next hb =>
      cases h
      exact hb
    · cases h

/-- The flags have no bit to spare: they are those of the type. -/
theorem recovers_type : Recovers readType typeSteps fun _ => none := by
  intro bs type rest h
  obtain ⟨start, mid, hstart, h⟩ := stateT_bind_eq_ok.mp h
  obtain ⟨hmagic, h⟩ := stateT_guard_eq_ok.mp h
  obtain ⟨tag, mid', htag, h⟩ := stateT_bind_eq_ok.mp h
  obtain ⟨htagStart, h⟩ := stateT_guard_eq_ok.mp h
  cases hkind : kindOfTag? tag.third with
  | none =>
    rw [hkind] at h
    cases h
  | some kind =>
    rw [hkind] at h
    obtain ⟨flags, mid'', hflags, h⟩ := stateT_bind_eq_ok.mp h
    cases hwidth : widthOfFlags? flags with
    | none =>
      rw [hwidth] at h
      cases h
    | some width =>
      rw [hwidth] at h
      obtain ⟨hwritten, h⟩ := stateT_ite_eq_ok.mp h
      cases h
      refine ⟨rfl, ?_⟩
      have htagBytes : tag.toList = tagStart ++ [kindTag kind] := by
        rw [← not_ne_iff.mp htagStart, ← eq_kindTag_of_kindOfTag? hkind]
        rfl
      rw [(readBytes_eq_ok hstart).2, readTriple_eq_ok htag, readByte_eq_ok hflags,
        not_ne_iff.mp hmagic, htagBytes, hwritten]
      simp [typeSteps]

theorem recovers_metadata (w : Width) :
    Recovers (readMetadata w) (metadataSteps w) fun _ => none := by
  intro bs m rest h
  obtain ⟨title, mid, htitle, h⟩ := stateT_bind_eq_ok.mp h
  obtain ⟨description, mid, hdescription, h⟩ := stateT_bind_eq_ok.mp h
  obtain ⟨author, mid, hauthor, h⟩ := stateT_bind_eq_ok.mp h
  obtain ⟨version, mid, hversion, h⟩ := stateT_bind_eq_ok.mp h
  obtain ⟨runtime, mid, hruntime, h⟩ := stateT_bind_eq_ok.mp h
  obtain ⟨resources, mid, hresources, h⟩ := stateT_bind_eq_ok.mp h
  cases h
  obtain ⟨htitle, hbs⟩ := recovers_text w "title" "title" htitle
  obtain ⟨hdescription, hbs'⟩ := recovers_text w "description" "description" hdescription
  obtain ⟨hauthor, hbs''⟩ := recovers_text w "author" "author" hauthor
  constructor
  · simp [metadataSteps, htitle, hdescription, hauthor]
  · rw [hbs, hbs', hbs'', readTriple_eq_ok hversion, readTriple_eq_ok hruntime,
      readTriple_eq_ok hresources]
    simp [metadataSteps]

/-- A byte is what is left of it without the optional bit, together with this bit if it is set. -/
theorem optionalBit_join : ∀ n < 256,
    (if slotIsOptional (UInt8.ofNat n) then slotIndex (UInt8.ofNat n) ||| optionalBit
      else slotIndex (UInt8.ofNat n)) = UInt8.ofNat n := by
  decide +kernel

theorem slotByte_join (name : String) (raw : UInt8) :
    slotByte ⟨name, slotIndex raw, slotIsOptional raw⟩ = raw := by
  have hbits := optionalBit_join raw.toNat raw.toNat_lt
  rwa [UInt8.ofNat_toNat] at hbits

/-- Whether the name of the module is longer than names may be in writing. -/
def hasLongName (slot : Slot) : Bool := Limit.moduleName < slot.name.utf8ByteSize

/-- Why writing refuses a slot that was read: only its name may be too long. -/
def slotRefusal (slot : Slot) : Option WriteError :=
  if hasLongName slot then some (.moduleNameTooLong slot.name) else none

theorem recovers_slot (w : Width) : Recovers (readSlot w) (slotSteps w) slotRefusal := by
  intro bs slot rest h
  obtain ⟨raw, mid, hraw, h⟩ := stateT_bind_eq_ok.mp h
  obtain ⟨hindex, h⟩ := stateT_guard_eq_ok.mp h
  obtain ⟨name, mid', hname, h⟩ := stateT_bind_eq_ok.mp h
  cases h
  obtain ⟨hrefusal, hmid⟩ := recovers_text w "module name" "module name" hname
  constructor
  · by_cases hlong : name.utf8ByteSize ≤ Limit.moduleName
    · simp [slotSteps, hrefusal, Nat.not_lt.mp hindex, slotRefusal, hasLongName, hlong]
    · simp [slotSteps, Nat.not_lt.mp hindex, slotRefusal, hasLongName, hlong, Nat.not_le.mp hlong]
  · rw [readByte_eq_ok hraw, hmid]
    simp [slotSteps, slotByte_join]

theorem recovers_symbol (w : Width) : Recovers (readSymbol w) (symbolSteps w) fun _ => none := by
  intro bs entry rest h
  obtain ⟨index, mid, hindex, h⟩ := stateT_bind_eq_ok.mp h
  obtain ⟨hlimit, h⟩ := stateT_guard_eq_ok.mp h
  obtain ⟨body, mid', hbody, h⟩ := stateT_bind_eq_ok.mp h
  cases h
  obtain ⟨hrefusal, hmid⟩ := recovers_blob w "symbol table" "symbol body" hbody
  constructor
  · simp [symbolSteps, hrefusal, Nat.not_lt.mp hlimit]
  · rw [readByte_eq_ok hindex, hmid]
    simp [symbolSteps]

/-! ### Tables -/

theorem recovers_slots (w : Width) :
    Recovers (readSlots w) (tableSteps (slotSteps w) Limit.slots .tooManySlots)
      (·.findSome? slotRefusal) := by
  intro bs slots rest h
  obtain ⟨count, mid, hcount, h⟩ := stateT_bind_eq_ok.mp h
  obtain ⟨hlimit, h⟩ := stateT_guard_eq_ok.mp h
  exact (recovers_slot w).table .tooManySlots (Nat.not_lt.mp hlimit) hcount h

theorem recovers_constants (w : Width) :
    Recovers (readConstants w)
      (tableSteps (blobSteps w "constant") Limit.constants .tooManyConstants) fun _ => none := by
  intro bs constants rest h
  obtain ⟨count, mid, hcount, h⟩ := stateT_bind_eq_ok.mp h
  -- a count is a byte, and so many constants may be written
  have hlimit : count.toNat ≤ Limit.constants := Nat.le_of_lt_succ count.toNat_lt
  obtain ⟨hrefusal, hbs⟩ :=
    (recovers_blob w "constant table" "constant").table .tooManyConstants hlimit hcount h
  exact ⟨hrefusal.trans (List.findSome?_eq_none_iff.mpr fun _ _ => rfl), hbs⟩

theorem recovers_symbols (w : Width) :
    Recovers (readSymbols w) (tableSteps (symbolSteps w) Limit.symbols .tooManySymbols)
      fun _ => none := by
  intro bs symbols rest h
  obtain ⟨count, mid, hcount, h⟩ := stateT_bind_eq_ok.mp h
  have hlimit : count.toNat ≤ Limit.symbols := Nat.le_of_lt_succ count.toNat_lt
  obtain ⟨hrefusal, hbs⟩ := (recovers_symbol w).table .tooManySymbols hlimit hcount h
  exact ⟨hrefusal.trans (List.findSome?_eq_none_iff.mpr fun _ _ => rfl), hbs⟩

/-! ### Containers -/

theorem steps_eq_tables (c : Container) :
    c.steps = typeSteps c.type ++ (metadataSteps c.type.width c.metadata ++
      (tableSteps (slotSteps c.type.width) Limit.slots .tooManySlots c.slots ++
        (tableSteps (blobSteps c.type.width "constant") Limit.constants .tooManyConstants
            c.constants ++
          tableSteps (symbolSteps c.type.width) Limit.symbols .tooManySymbols c.symbols))) := by
  simp only [steps, tableSteps, List.append_assoc]

/-- Of a container that is read, writing can refuse nothing but the name of a module. -/
theorem recovers_parts : Recovers readParts steps (·.slots.findSome? slotRefusal) := by
  intro bs c rest h
  obtain ⟨type, mid, htype, h⟩ := stateT_bind_eq_ok.mp h
  obtain ⟨metadata, mid, hmetadata, h⟩ := stateT_bind_eq_ok.mp h
  obtain ⟨slots, mid, hslots, h⟩ := stateT_bind_eq_ok.mp h
  obtain ⟨constants, mid, hconstants, h⟩ := stateT_bind_eq_ok.mp h
  obtain ⟨symbols, mid, hsymbols, h⟩ := stateT_bind_eq_ok.mp h
  cases h
  obtain ⟨htype, hbs⟩ := recovers_type htype
  obtain ⟨hmetadata, hbs'⟩ := recovers_metadata type.width hmetadata
  obtain ⟨hslots, hmid⟩ := recovers_slots type.width hslots
  obtain ⟨hconstants, hmid'⟩ := recovers_constants type.width hconstants
  obtain ⟨hsymbols, hmid''⟩ := recovers_symbols type.width hsymbols
  rw [steps_eq_tables]
  constructor
  · simp [htype, hmetadata, hslots, hconstants, hsymbols]
  · rw [hbs, hbs', hmid, hmid', hmid'']
    simp only [output_append, List.append_assoc]

/-- All bytes have to be used up. -/
theorem ofBytes_eq_ok_iff {bs : Bytes} {c : Container} :
    ofBytes bs = .ok c ↔ readParts bs = .ok (c, []) := by
  unfold ofBytes
  cases readParts bs with
  | error e => simp [Bind.bind, Except.bind]
  | ok p =>
    obtain ⟨c', rest⟩ := p
    cases rest with
    | nil => simp [Bind.bind, Except.bind, Pure.pure, Except.pure]
    | cons b rest => simp [Bind.bind, Except.bind, throw, throwThe, MonadExceptOf.throw]

theorem recovers_ofBytes {bs : Bytes} {c : Container} (h : ofBytes bs = .ok c) :
    refusal c.steps = c.slots.findSome? slotRefusal ∧ bs = output c.steps := by
  have hparts := recovers_parts (ofBytes_eq_ok_iff.mp h)
  rwa [List.append_nil] at hparts

theorem findSome?_slotRefusal (slots : List Slot) :
    slots.findSome? slotRefusal =
      (slots.find? hasLongName).map fun slot => .moduleNameTooLong slot.name := by
  induction slots with
  | nil => rfl
  | cons slot slots ih =>
    rw [List.findSome?_cons, List.find?_cons, slotRefusal]
    cases hasLongName slot with
    | false => exact ih
    | true => rfl

/-- **What is read is written the same**: the bytes of a container that is read are those it is
written as. It is refused only for the first name of a module that is too long, which reading does
not check. -/
theorem toBytes_ofBytes {bytes : Bytes} {c : Container} (h : ofBytes bytes = .ok c) :
    c.toBytes = match c.slots.find? hasLongName with
      | none => .ok bytes
      | some slot => .error (.moduleNameTooLong slot.name) := by
  obtain ⟨hrefusal, rfl⟩ := recovers_ofBytes h
  rw [toBytes_eq, hrefusal, findSome?_slotRefusal]
  cases c.slots.find? hasLongName <;> rfl

/-- An executable that needs a module with a name of seven letters. -/
def longNamed : Container where
  type := ⟨.executable, .w8⟩
  metadata := {}
  slots := [⟨"console", 0, false⟩]
  constants := []
  symbols := []

/-- The bytes that it is read from. -/
def longNamedBytes : Bytes :=
  [0xCA, 0xFE, 0x43, 0x57, 0x58, 0x00, 0, 0, 0, 0, 0, 0, 0, 0, 0, 0, 0, 0,
    1, 0x00, 7, 99, 111, 110, 115, 111, 108, 101, 0, 0]

/-- The bytes of the sample library. -/
def sampleLibraryBytes : Bytes :=
  [0xCA, 0xFE, 0x43, 0x57, 0x4C, 0x01, 2, 105, 111, 0, 0, 1, 2, 255, 0, 0, 0, 0, 0, 0,
    1, 0x2F, 4, 99, 111, 114, 101, 2, 1, 0xFF, 0, 1, 254, 1, 0x01]

/-- A library that is written again, and an executable that is not. -/
theorem toBytes_ofBytes_samples :
    (ofBytes sampleLibraryBytes = .ok sampleLibrary.withoutNames ∧
        sampleLibrary.withoutNames.toBytes = .ok sampleLibraryBytes) ∧
      ofBytes longNamedBytes = .ok longNamed ∧
        longNamed.toBytes = .error (.moduleNameTooLong "console") :=
  have hsample : ofBytes sampleLibraryBytes = .ok sampleLibrary.withoutNames := by decide
  have hlong : ofBytes longNamedBytes = .ok longNamed := by decide
  ⟨⟨hsample, toBytes_ofBytes hsample⟩, hlong, toBytes_ofBytes hlong⟩

/-- Not all that is read can be written. -/
theorem longNamed_not_written :
    ¬∀ (bytes : Bytes) (c : Container), ofBytes bytes = .ok c → c.toBytes = .ok bytes := by
  intro hall
  have hread : ofBytes longNamedBytes = .ok longNamed := by decide
  have hrefused : longNamed.toBytes = .error (.moduleNameTooLong "console") := by decide
  have hwritten := hall longNamedBytes longNamed hread
  rw [hrefused] at hwritten
  cases hwritten

/-- **Containers are canonical**: a container is read from no two sequences of bytes, be they
written by the assembler or not. -/
theorem ofBytes_injective {x y : Bytes} {c : Container} (hx : ofBytes x = .ok c)
    (hy : ofBytes y = .ok c) : x = y := by
  obtain ⟨-, rfl⟩ := recovers_ofBytes hx
  obtain ⟨-, rfl⟩ := recovers_ofBytes hy
  rfl

/-- The executable that cannot be written is read from the bytes of its steps alone. -/
theorem ofBytes_injective_longNamed :
    ofBytes longNamedBytes = .ok longNamed ∧ ofBytes (output longNamed.steps) = .ok longNamed ∧
      longNamedBytes = output longNamed.steps :=
  have hread : ofBytes longNamedBytes = .ok longNamed := by decide
  have hsteps : ofBytes (output longNamed.steps) = .ok longNamed := by decide
  ⟨hread, hsteps, ofBytes_injective hread hsteps⟩

end StackAsm.Container
