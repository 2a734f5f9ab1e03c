import StackAsm.Proofs.Container.Writer
import StackAsm.Proofs.Width
import Mathlib.Data.String.Basic

/-!
# Why a container is refused

Writing checks the sizes of the tables and their indices, and it checks texts and sequences of
bytes one by one. If the tables are within their limits, only the latter can fail: a container can
be written exactly if its texts are plain and nothing in it is too long for its width.
-/

namespace StackAsm.Container

/-! ### Checks -/

theorem reject_of_refusal {steps : List Step} {e : WriteError} (h : refusal steps = some e) :
    .reject e ∈ steps := by
  obtain ⟨step, hmem, he⟩ := List.exists_of_findSome?_eq_some h
  cases step with
  | write bytes => cases he
  | reject e' =>
    cases he
    exact hmem

/-- What writing refuses with, if it does, is one of the checks that failed. -/
theorem reject_of_toBytes {c : Container} {e : WriteError} (h : c.toBytes = .error e) :
    .reject e ∈ c.steps := by
  rw [toBytes_eq] at h
  cases hrefusal : refusal c.steps with
  | none =>
    rw [hrefusal] at h
    cases h
  | some e' =>
    rw [hrefusal] at h
    cases h
    exact reject_of_refusal hrefusal

theorem exists_toBytes_iff (c : Container) :
    (∃ bytes, c.toBytes = .ok bytes) ↔ Accepted c.steps := by
  constructor
  · rintro ⟨bytes, h⟩
    exact ((toBytes_eq_ok_iff c bytes).mp h).1
  · intro h
    exact ⟨_, (toBytes_eq_ok_iff c _).mpr ⟨h, rfl⟩⟩

theorem fitsLength_iff (w : Width) (n : Nat) : w.fitsLength n = true ↔ n ≤ 2 ^ w.bits - 1 := by
  have hpos := Nat.two_pow_pos w.bits
  rw [Width.fitsLength_iff, Width.range_eq_two_pow]
  omega

theorem utf8Len_of_ascii {cs : List Char} (h : (cs.all fun c => c.toNat < 128) = true) :
    String.utf8Len cs = cs.length := by
  induction cs with
  | nil => rfl
  | cons c cs ih =>
    rw [List.all_cons, Bool.and_eq_true, decide_eq_true_eq] at h
    have hone : c.utf8Size = 1 := by
      rw [Char.utf8Size_eq_one_iff, UInt32.le_iff_toNat_le]
      exact Nat.le_of_lt_succ h.1
    rw [List.length_cons, String.utf8Len_cons, ih h.2, hone]

/-- A plain text has as many bytes as characters. -/
theorem length_asciiBytes {s : String} (h : isAscii s = true) :
    (asciiBytes s).length = s.utf8ByteSize := by
  rw [asciiBytes, List.length_map, ← utf8Len_of_ascii h, ← String.utf8ByteSize_ofList,
    String.ofList_toList]

theorem accepted_blobSteps (w : Width) (what : String) (bytes : Bytes) :
    Accepted (blobSteps w what bytes) ↔ bytes.length ≤ 2 ^ w.bits - 1 := by
  simp [blobSteps, fitsLength_iff]

theorem accepted_textSteps (w : Width) (what s : String) :
    Accepted (textSteps w what s) ↔ isAscii s = true ∧ s.utf8ByteSize ≤ 2 ^ w.bits - 1 := by
  rw [textSteps, accepted_append, accepted_require, accepted_blobSteps]
  refine and_congr_right fun h => ?_
  rw [length_asciiBytes h]

/-- A sequence of bytes is refused only for its length. -/
theorem reject_blobSteps {w : Width} {what : String} {bytes : Bytes} {e : WriteError}
    (h : .reject e ∈ blobSteps w what bytes) : e = .tooLong what bytes.length := by
  unfold blobSteps require at h
  split at h
  · simp at h
  · simpa using h

/-- A text is refused if it is not plain, or for its length. -/
theorem reject_textSteps {w : Width} {what s : String} {e : WriteError}
    (h : .reject e ∈ textSteps w what s) :
    e = .notAscii what ∨ ∃ length, e = .tooLong what length := by
  rcases List.mem_append.mp h with hplain | hblob
  · unfold require at hplain
    split at hplain
    · cases hplain
    · exact .inl (Step.reject.inj (List.mem_singleton.mp hplain))
  · exact .inr ⟨_, reject_blobSteps hblob⟩

/-! ### Tables within their limits -/

/-- The tables of the container are small enough, and their indices and names as they have to
be. -/
structure WithinLimits (c : Container) : Prop where
  slotCount : c.slots.length ≤ Limit.slots
  slotIndex : ∀ slot ∈ c.slots, slot.index.toNat ≤ Limit.slotIndex
  slotName : ∀ slot ∈ c.slots, isAscii slot.name = true ∧ slot.name.utf8ByteSize ≤ Limit.moduleName
  constantCount : c.constants.length ≤ Limit.constants
  symbolCount : c.symbols.length ≤ Limit.symbols
  symbolIndex : ∀ entry ∈ c.symbols, entry.index.toNat ≤ Limit.symbolIndex

/-- The texts of the container by what they are. -/
def texts (c : Container) : List (String × String) :=
  [("title", c.metadata.title), ("description", c.metadata.description),
    ("author", c.metadata.author)]

/-- The sequences of bytes in the container by what they are. -/
def blobs (c : Container) : List (String × Bytes) :=
  c.constants.map (("constant", ·)) ++ c.symbols.map (("symbol body", ·.body))

theorem accepted_slotSteps {w : Width} {slot : Slot} (hindex : slot.index.toNat ≤ Limit.slotIndex)
    (hplain : isAscii slot.name = true) (hshort : slot.name.utf8ByteSize ≤ Limit.moduleName) :
    Accepted (slotSteps w slot) := by
  have hfits : slot.name.utf8ByteSize ≤ 2 ^ w.bits - 1 :=
    Nat.le_trans hshort (by cases w <;> decide)
  simp only [slotSteps, accepted_append, accepted_require, accepted_textSteps]
  simp [hindex, hshort, hplain, hfits]

theorem reject_mem_symbolSteps {w : Width} {entry : SymbolEntry}
    (hindex : entry.index.toNat ≤ Limit.symbolIndex) (e : WriteError) :
    .reject e ∈ symbolSteps w entry ↔ .reject e ∈ blobSteps w "symbol body" entry.body := by
  simp [symbolSteps, require, hindex]

/-- **Tables within their limits are not refused**: what is refused of such a container is one of
its texts or sequences of bytes. -/
theorem WithinLimits.reject_mem_steps {c : Container} (h : WithinLimits c) (e : WriteError) :
    .reject e ∈ c.steps ↔
      (∃ p ∈ c.texts, .reject e ∈ textSteps c.type.width p.1 p.2) ∨
        ∃ p ∈ c.blobs, .reject e ∈ blobSteps c.type.width p.1 p.2 := by
  have htype : .reject e ∉ typeSteps c.type := by simp [typeSteps]
  have hmetadata : .reject e ∈ metadataSteps c.type.width c.metadata ↔
      ∃ p ∈ c.texts, .reject e ∈ textSteps c.type.width p.1 p.2 := by
    simp [metadataSteps, texts]
  have hslotCount := (accepted_countSteps c.slots.length Limit.slots
    (.tooManySlots c.slots.length)).mpr h.slotCount e
  have hslots : .reject e ∉ c.slots.flatMap (slotSteps c.type.width) := by
    refine (accepted_flatMap _ _).mpr (fun slot hslot => ?_) e
    exact accepted_slotSteps (h.slotIndex slot hslot) (h.slotName slot hslot).1
      (h.slotName slot hslot).2
  have hconstantCount := (accepted_countSteps c.constants.length Limit.constants
    (.tooManyConstants c.constants.length)).mpr h.constantCount e
  have hsymbolCount := (accepted_countSteps c.symbols.length Limit.symbols
    (.tooManySymbols c.symbols.length)).mpr h.symbolCount e
  have hbodies : .reject e ∈ c.symbols.flatMap (symbolSteps c.type.width) ↔
      ∃ entry ∈ c.symbols, .reject e ∈ blobSteps c.type.width "symbol body" entry.body := by
    rw [List.mem_flatMap]
    exact exists_congr fun entry => and_congr_right fun hentry =>
      reject_mem_symbolSteps (h.symbolIndex entry hentry) e
  have hblobs : (∃ p ∈ c.blobs, .reject e ∈ blobSteps c.type.width p.1 p.2) ↔
      (∃ bytes ∈ c.constants, .reject e ∈ blobSteps c.type.width "constant" bytes) ∨
        ∃ entry ∈ c.symbols, .reject e ∈ blobSteps c.type.width "symbol body" entry.body := by
    simp [blobs, or_and_right, exists_or]
  -- what cannot be refused drops out of the steps
  rw [steps, hblobs, ← hmetadata, ← hbodies, ← List.mem_flatMap]
  simp only [List.mem_append, htype, hslotCount, hslots, hconstantCount, hsymbolCount, false_or,
    or_false, or_assoc]

theorem WithinLimits.accepted_iff {c : Container} (h : WithinLimits c) :
    Accepted c.steps ↔
      (∀ p ∈ c.texts, Accepted (textSteps c.type.width p.1 p.2)) ∧
        ∀ p ∈ c.blobs, Accepted (blobSteps c.type.width p.1 p.2) := by
  simp only [Accepted, h.reject_mem_steps, not_or, not_exists, not_and, forall_and]
  exact and_congr ⟨fun hall p hp e => hall e p hp, fun hall e p hp => hall p hp e⟩
    ⟨fun hall p hp e => hall e p hp, fun hall e p hp => hall p hp e⟩

end StackAsm.Container
