import StackAsm.Container.Reader
import StackAsm.Proofs.Container.Writer
import StackAsm.Proofs.Width

/-!
# Reading back what was written

Each part of a container is read back from the bytes its steps write, whatever follows them. So a
container that can be written is read back whole, but for the names of its symbols, which are not
written.
-/

namespace StackAsm.Container

/-! ### Reading a value off the front -/

section

variable {α β : Type} {r : Reader α} {f : α → Reader β} {bs bs' : Bytes} {x : α} {y : β}

/-- The reader takes exactly the bytes `bs` off the front and makes `x` of them. -/
def Reads (r : Reader α) (bs : Bytes) (x : α) : Prop := ∀ rest, r (bs ++ rest) = .ok (x, rest)

theorem Reads.pure (x : α) : Reads (Pure.pure x) [] x := fun _ => rfl

theorem Reads.bind (h : Reads r bs x) (h' : Reads (f x) bs' y) : Reads (r >>= f) (bs ++ bs') y := by
  intro rest
  have hr : (r >>= f) (bs ++ (bs' ++ rest)) = f x (bs' ++ rest) := by
    simp only [Bind.bind, StateT.bind, h (bs' ++ rest), Except.bind]
  rw [List.append_assoc, hr, h' rest]

/-- What follows may read nothing more. -/
theorem Reads.bind_nil (h : Reads r bs x) (h' : Reads (f x) [] y) : Reads (r >>= f) bs y := by
  have := h.bind h'
  rwa [List.append_nil] at this

/-- As many values as were written are read back, each as `g` says. -/
theorem Reads.many {write : α → Bytes} {g : α → β} {r : Reader β} {xs : List α}
    (h : ∀ x ∈ xs, Reads r (write x) (g x)) :
    Reads (readMany r xs.length) (xs.flatMap write) (xs.map g) := by
  induction xs with
  | nil => exact Reads.pure []
  | cons x xs ih =>
    have hx := h x List.mem_cons_self
    have hxs := ih fun y hy => h y (List.mem_cons_of_mem x hy)
    exact hx.bind (hxs.bind_nil (Reads.pure _))

end

/-! ### Fields -/

theorem reads_bytes (what : String) (bs : Bytes) : Reads (readBytes what bs.length) bs bs := by
  intro rest
  simp [readBytes]

theorem reads_byte (what : String) (b : UInt8) : Reads (readByte what) [b] b := fun _ => rfl

theorem reads_triple (what : String) (t : Triple) : Reads (readTriple what) t.toList t :=
  fun _ => rfl

/-- A number is read back up to the bits above the width. -/
theorem reads_number (w : Width) (what : String) (v : UInt64) :
    Reads (readNumber w what) (w.encode v) (w.mask v) := by
  have hbytes := reads_bytes what (w.encode v)
  have hdecode := w.decode_encode_append v []
  rw [Width.length_encode] at hbytes
  rw [List.append_nil] at hdecode
  refine hbytes.bind_nil ?_
  rw [hdecode]
  exact Reads.pure _

/-- A length and as many bytes are read back if the length fits. -/
theorem reads_blob {w : Width} (what : String) {bs : Bytes} (h : w.fitsLength bs.length) :
    Reads (readBlob w what) (w.encode (UInt64.ofNat bs.length) ++ bs) bs := by
  have hlt := (w.fitsLength_iff _).mp h
  have hlength : (w.mask (UInt64.ofNat bs.length)).toNat = bs.length := by
    rw [Width.toNat_mask, UInt64.toNat_ofNat',
      Nat.mod_eq_of_lt (Nat.lt_of_lt_of_le hlt w.range_le_size), Nat.mod_eq_of_lt hlt]
  refine (reads_number w what _).bind ?_
  rw [hlength]
  exact reads_bytes what bs

theorem toNat_asciiByte {c : Char} (h : c.toNat < 128) : (UInt8.ofNat c.toNat).toNat = c.toNat := by
  rw [UInt8.toNat_ofNat', Nat.mod_eq_of_lt (by omega)]

theorem all_asciiBytes {s : String} (h : isAscii s) : (asciiBytes s).all (· < 128) := by
  simp only [isAscii, List.all_eq_true, decide_eq_true_eq] at h
  simp only [asciiBytes, List.all_eq_true, List.mem_map, decide_eq_true_eq]
  rintro b ⟨c, hc, rfl⟩
  rw [UInt8.lt_iff_toNat_lt, toNat_asciiByte (h c hc)]
  exact h c hc

theorem ofList_asciiBytes {s : String} (h : isAscii s) :
    String.ofList ((asciiBytes s).map fun b => Char.ofNat b.toNat) = s := by
  simp only [isAscii, List.all_eq_true, decide_eq_true_eq] at h
  have hmap : (asciiBytes s).map (fun b => Char.ofNat b.toNat) = s.toList := by
    rw [asciiBytes, List.map_map]
    refine (List.map_congr_left fun c hc => ?_).trans (List.map_id _)
    simp only [Function.comp, toNat_asciiByte (h c hc), Char.ofNat_toNat, id]
  rw [hmap, String.ofList_toList]

/-- A plain text is read back. -/
theorem reads_text {w : Width} (what : String) {s : String} (hs : isAscii s)
    (h : w.fitsLength (asciiBytes s).length) :
    Reads (readText w what)
      (w.encode (UInt64.ofNat (asciiBytes s).length) ++ asciiBytes s) s := by
  refine (reads_blob what h).bind_nil ?_
  rw [if_pos (all_asciiBytes hs), ofList_asciiBytes hs]
  exact Reads.pure s

/-! ### Parts -/

theorem reads_type (type : ContainerType) : Reads readType (output (typeSteps type)) type := by
  intro rest
  obtain ⟨kind, width⟩ := type
  cases kind <;> cases width <;> rfl

theorem reads_textSteps {w : Width} (what : String) {what' s : String}
    (h : Accepted (textSteps w what' s)) :
    Reads (readText w what) (output (textSteps w what' s)) s := by
  simp only [textSteps, blobSteps, accepted_append, accepted_require] at h
  simpa [textSteps, blobSteps] using reads_text what h.1 h.2.1

theorem reads_blobSteps {w : Width} (what : String) {what' : String} {bs : Bytes}
    (h : Accepted (blobSteps w what' bs)) :
    Reads (readBlob w what) (output (blobSteps w what' bs)) bs := by
  simp only [blobSteps, accepted_append, accepted_require] at h
  simpa [blobSteps] using reads_blob what h.1

theorem reads_metadata {w : Width} {m : Metadata} (h : Accepted (metadataSteps w m)) :
    Reads (readMetadata w) (output (metadataSteps w m)) m := by
  simp only [metadataSteps, accepted_append] at h
  obtain ⟨⟨⟨htitle, hdescription⟩, hauthor⟩, -⟩ := h
  have hread : Reads (readMetadata w)
      (output (textSteps w "title" m.title) ++ (output (textSteps w "description" m.description) ++
        (output (textSteps w "author" m.author) ++
          (m.version.toList ++ (m.runtime.toList ++ m.resources.toList))))) m := by
    refine (reads_textSteps "title" htitle).bind ?_
    refine (reads_textSteps "description" hdescription).bind ?_
    refine (reads_textSteps "author" hauthor).bind ?_
    refine (reads_triple "version" m.version).bind ?_
    refine (reads_triple "runtime version" m.runtime).bind ?_
    exact (reads_triple "resource sizes" m.resources).bind_nil (Reads.pure m)
  simpa [metadataSteps] using hread

/-- The optional bit lies above the indices. -/
theorem optionalBit_above : ∀ n < 16,
    slotIndex (UInt8.ofNat n) = UInt8.ofNat n ∧ slotIsOptional (UInt8.ofNat n) = false ∧
      slotIndex (UInt8.ofNat n ||| optionalBit) = UInt8.ofNat n ∧
      slotIsOptional (UInt8.ofNat n ||| optionalBit) = true := by
  decide

/-- The byte of a slot holds its index and whether it is optional. -/
theorem slotByte_split {slot : Slot} (h : slot.index.toNat ≤ Limit.slotIndex) :
    slotIndex (slotByte slot) = slot.index ∧ slotIsOptional (slotByte slot) = slot.optional := by
  have hbits := optionalBit_above slot.index.toNat (Nat.lt_succ_of_le h)
  rw [UInt8.ofNat_toNat] at hbits
  obtain ⟨hindex, hplain, hindex', hoptional⟩ := hbits
  unfold slotByte
  cases slot.optional with
  | false => exact ⟨hindex, hplain⟩
  | true => exact ⟨hindex', hoptional⟩

theorem reads_slot {w : Width} {slot : Slot} (h : Accepted (slotSteps w slot)) :
    Reads (readSlot w) (output (slotSteps w slot)) slot := by
  simp only [slotSteps, accepted_append, accepted_require, decide_eq_true_eq] at h
  obtain ⟨⟨⟨hindex, -⟩, -⟩, hname⟩ := h
  obtain ⟨hi, ho⟩ := slotByte_split hindex
  have hread : Reads (readSlot w)
      ([slotByte slot] ++ output (textSteps w "module name" slot.name)) slot := by
    refine (reads_byte "slot table" (slotByte slot)).bind ?_
    simp only [hi, ho, if_neg (Nat.not_lt.mpr hindex)]
    exact (reads_textSteps "module name" hname).bind_nil (Reads.pure slot)
  simpa [slotSteps] using hread

theorem reads_symbol {w : Width} {symbol : SymbolEntry} (h : Accepted (symbolSteps w symbol)) :
    Reads (readSymbol w) (output (symbolSteps w symbol)) { symbol with name := none } := by
  simp only [symbolSteps, accepted_append, accepted_require, decide_eq_true_eq] at h
  obtain ⟨⟨hindex, -⟩, hbody⟩ := h
  have hread : Reads (readSymbol w)
      ([symbol.index] ++ output (blobSteps w "symbol body" symbol.body))
      { symbol with name := none } := by
    refine (reads_byte "symbol table" symbol.index).bind ?_
    simp only [if_neg (Nat.not_lt.mpr hindex)]
    exact (reads_blobSteps "symbol table" hbody).bind_nil (Reads.pure _)
  simpa [symbolSteps] using hread

/-! ### Tables -/

theorem output_countSteps (n limit : Nat) (e : WriteError) :
    output (countSteps n limit e) = [UInt8.ofNat n] := by
  simp [countSteps]

/-- A count of at most 255 fits its byte. -/
theorem toNat_count {n : Nat} (h : n ≤ 255) : (UInt8.ofNat n).toNat = n := by
  rw [UInt8.toNat_ofNat', Nat.mod_eq_of_lt (by omega)]

theorem reads_slots {w : Width} {slots : List Slot} (hn : slots.length ≤ Limit.slots)
    (h : ∀ slot ∈ slots, Accepted (slotSteps w slot)) :
    Reads (readSlots w)
      ([UInt8.ofNat slots.length] ++
        slots.flatMap fun slot => output (slotSteps w slot)) slots := by
  have hcount : (UInt8.ofNat slots.length).toNat = slots.length :=
    toNat_count (Nat.le_trans hn (by decide))
  refine (reads_byte "slot table" _).bind ?_
  simp only [hcount, if_neg (Nat.not_lt.mpr hn)]
  have hmany := Reads.many (g := id) fun slot hslot => reads_slot (h slot hslot)
  rwa [List.map_id] at hmany

theorem reads_constants {w : Width} {constants : List Bytes}
    (hn : constants.length ≤ Limit.constants)
    (h : ∀ bs ∈ constants, Accepted (blobSteps w "constant" bs)) :
    Reads (readConstants w)
      ([UInt8.ofNat constants.length] ++
        constants.flatMap fun bs => output (blobSteps w "constant" bs)) constants := by
  refine (reads_byte "constant table" _).bind ?_
  rw [toNat_count hn]
  have hmany := Reads.many (g := id) fun bs hbs => reads_blobSteps "constant table" (h bs hbs)
  rwa [List.map_id] at hmany

theorem reads_symbols {w : Width} {symbols : List SymbolEntry}
    (hn : symbols.length ≤ Limit.symbols)
    (h : ∀ symbol ∈ symbols, Accepted (symbolSteps w symbol)) :
    Reads (readSymbols w)
      ([UInt8.ofNat symbols.length] ++
        symbols.flatMap fun symbol => output (symbolSteps w symbol))
      (symbols.map fun symbol => { symbol with name := none }) := by
  refine (reads_byte "symbol table" _).bind ?_
  rw [toNat_count hn]
  exact Reads.many fun symbol hsymbol => reads_symbol (h symbol hsymbol)

/-! ### Containers -/

/-- The container without the names of its symbols. -/
def withoutNames (c : Container) : Container :=
  { c with symbols := c.symbols.map fun symbol => { symbol with name := none } }

theorem reads_steps {c : Container} (h : Accepted c.steps) :
    Reads readParts (output c.steps) c.withoutNames := by
  simp only [steps, accepted_append, accepted_countSteps, accepted_flatMap] at h
  obtain ⟨⟨⟨⟨⟨⟨⟨-, hmetadata⟩, hnslots⟩, hslots⟩, hnconstants⟩, hconstants⟩, hnsymbols⟩,
    hsymbols⟩ := h
  have hread : Reads readParts
      (output (typeSteps c.type) ++ (output (metadataSteps c.type.width c.metadata) ++
        (([UInt8.ofNat c.slots.length] ++
            c.slots.flatMap fun slot => output (slotSteps c.type.width slot)) ++
          (([UInt8.ofNat c.constants.length] ++
              c.constants.flatMap fun bs => output (blobSteps c.type.width "constant" bs)) ++
            ([UInt8.ofNat c.symbols.length] ++
              c.symbols.flatMap fun symbol => output (symbolSteps c.type.width symbol))))))
      c.withoutNames := by
    refine (reads_type c.type).bind ?_
    refine (reads_metadata hmetadata).bind ?_
    refine (reads_slots hnslots hslots).bind ?_
    refine (reads_constants hnconstants hconstants).bind ?_
    exact (reads_symbols hnsymbols hsymbols).bind_nil (Reads.pure c.withoutNames)
  simpa only [steps, output_append, output_countSteps, output_flatMap, List.append_assoc]
    using hread

/-- **Reading inverts writing**: whatever container is written, of any width and either kind, is
read back from its bytes, all but the names of its symbols. -/
theorem ofBytes_toBytes (c : Container) (bytes : Bytes) (h : c.toBytes = .ok bytes) :
    ofBytes bytes = .ok c.withoutNames := by
  obtain ⟨hacc, rfl⟩ := (toBytes_eq_ok_iff c bytes).mp h
  have hread := reads_steps hacc []
  rw [List.append_nil] at hread
  simp only [ofBytes, hread]
  rfl

/-- A library of 8 bits with an optional module in the last slot, an empty constant and a symbol
of the last index. -/
def sampleLibrary : Container where
  type := ⟨.library, .w8⟩
  metadata := { title := "io", version := ⟨1, 2, 255⟩ }
  slots := [⟨"core", 15, true⟩]
  constants := [[0xFF], []]
  symbols := [⟨some "main", 254, [0x01]⟩]

theorem ofBytes_toBytes_sampleLibrary :
    sampleLibrary.toBytes =
        .ok [0xCA, 0xFE, 0x43, 0x57, 0x4C, 0x01, 2, 105, 111, 0, 0, 1, 2, 255, 0, 0, 0, 0, 0, 0,
          1, 0x2F, 4, 99, 111, 114, 101, 2, 1, 0xFF, 0, 1, 254, 1, 0x01] ∧
      ofBytes [0xCA, 0xFE, 0x43, 0x57, 0x4C, 0x01, 2, 105, 111, 0, 0, 1, 2, 255, 0, 0, 0, 0, 0, 0,
          1, 0x2F, 4, 99, 111, 114, 101, 2, 1, 0xFF, 0, 1, 254, 1, 0x01] =
        .ok { sampleLibrary with symbols := [⟨none, 254, [0x01]⟩] } :=
  ⟨by decide, ofBytes_toBytes sampleLibrary _ (by decide)⟩

end StackAsm.Container
