import StackAsm.Proofs.Assembly
import StackAsm.Proofs.Container.Refusals

/-!
# What is assembled can be written

The limits of a container are checked twice: when a declaration is read or a symbol opened, and
when the container is written. What passes the first check passes the second, so that of an
assembled container nothing can be refused but its texts, if they are not plain or too long, and
constants and code that are too long for the width.
-/

namespace StackAsm.Assembly

open Container (isAscii WithinLimits)

/-- The tables of an assembled container are within their limits. -/
theorem Passes.withinLimits {items deferred : List (Located Item)} {declared session : Session}
    {container : Container} (h : Passes items deferred declared session container) :
    WithinLimits container := by
  obtain ⟨indices, hlinked⟩ := h.exists_linked
  obtain ⟨-, -, hslots, hconstants⟩ := h.container_declarations
  have hrange := h.inRange_indices hlinked
  refine ⟨?_, ?_, ?_, ?_, ?_, ?_⟩
  · rw [hslots]
    exact h.tables.slotCount
  · rw [hslots]
    exact h.tables.slotIndex
  · intro slot hslot
    rw [hslots] at hslot
    have hname := h.tables.slotName slot hslot
    rw [Declaration.isModuleName, Bool.and_eq_true, decide_eq_true_eq] at hname
    exact ⟨hname.2, hname.1⟩
  · rw [hconstants]
    exact h.tables.pool.size_le
  · have hcount := Linking.length_le_of_nodup (h.nodup_indices hlinked) hrange
    rwa [← hlinked.map_index, List.length_map] at hcount
  · intro entry hentry
    refine hrange entry.index ?_
    rw [← hlinked.map_index]
    exact List.mem_map_of_mem hentry

/-- The container can be written: its texts are plain, and nothing is too long for the width. -/
structure Writable (container : Container) : Prop where
  plain : ∀ text ∈ [container.metadata.title, container.metadata.description,
    container.metadata.author], isAscii text = true
  texts : ∀ text ∈ [container.metadata.title, container.metadata.description,
    container.metadata.author], text.utf8ByteSize ≤ 2 ^ container.type.width.bits - 1
  constants : ∀ bytes ∈ container.constants, bytes.length ≤ 2 ^ container.type.width.bits - 1
  bodies : ∀ entry ∈ container.symbols, entry.body.length ≤ 2 ^ container.type.width.bits - 1

theorem writable_iff {container : Container} (h : WithinLimits container) :
    Writable container ↔ Container.Accepted container.steps := by
  have htexts : [container.metadata.title, container.metadata.description,
      container.metadata.author] = container.texts.map Prod.snd := rfl
  rw [h.accepted_iff, Container.blobs, List.forall_mem_append, List.forall_mem_map,
    List.forall_mem_map]
  simp only [Container.accepted_textSteps, Container.accepted_blobSteps]
  constructor
  · rintro ⟨hplain, hshort, hconstants, hbodies⟩
    rw [htexts, List.forall_mem_map] at hplain hshort
    exact ⟨fun p hp => ⟨hplain p hp, hshort p hp⟩, hconstants, hbodies⟩
  · rintro ⟨hall, hconstants, hbodies⟩
    refine ⟨?_, ?_, hconstants, hbodies⟩
    · rw [htexts, List.forall_mem_map]
      exact fun p hp => (hall p hp).1
    · rw [htexts, List.forall_mem_map]
      exact fun p hp => (hall p hp).2

theorem write_eq_ok_iff (container : Container) (bytes : Bytes) :
    (write container).1 = .ok bytes ↔ container.toBytes = .ok bytes := by
  unfold write
  split
  · next e he => simp [he]
  · next bytes' hbytes => simp [hbytes]

theorem write_eq_error {container : Container} {d : Diagnostic}
    (h : (write container).1 = .error d) :
    ∃ e, container.toBytes = .error e ∧ d = ⟨.nowhere (.writing e), none⟩ := by
  unfold write at h
  split at h
  · next e he =>
    cases h
    exact ⟨e, he, rfl⟩
  · cases h

/-- **What is assembled can be written**, exactly if its texts are plain and its texts, constants
and code short enough for the width; and only for such a reason is it ever refused. -/
theorem write_build_iff {provider : Provider} {root : String} {defines : Table Constant}
    {container : Container} (h : (build provider root defines).1 = .ok container) :
    ((∃ bytes, (write container).1 = .ok bytes) ↔ Writable container) ∧
      ∀ d, (write container).1 = .error d →
        (∃ what ∈ ["title", "description", "author"],
            d = ⟨.nowhere (.writing (.notAscii what)), none⟩) ∨
          ∃ what ∈ ["title", "description", "author", "constant", "symbol body"], ∃ length,
            d = ⟨.nowhere (.writing (.tooLong what length)), none⟩ := by
  obtain ⟨items, s, -, hitems⟩ := build_eq_ok h
  obtain ⟨deferred, declared, session, hpasses⟩ := assembleItems_eq_ok hitems
  have hlimits := hpasses.withinLimits
  constructor
  · simp only [write_eq_ok_iff]
    rw [Container.exists_toBytes_iff, writable_iff hlimits]
  · intro d hd
    obtain ⟨e, he, rfl⟩ := write_eq_error hd
    rcases (hlimits.reject_mem_steps e).mp (Container.reject_of_toBytes he) with
      ⟨⟨what, text⟩, hp, hreject⟩ | ⟨⟨what, bytes⟩, hp, hreject⟩
    · have hwhat : what ∈ ["title", "description", "author"] :=
        List.mem_map_of_mem (f := Prod.fst) hp
      rcases Container.reject_textSteps hreject with rfl | ⟨length, rfl⟩
      · exact .inl ⟨what, hwhat, rfl⟩
      · exact .inr ⟨what, List.mem_append_left ["constant", "symbol body"] hwhat, length, rfl⟩
    · have hwhat : what = "constant" ∨ what = "symbol body" := by
        rcases List.mem_append.mp hp with hconstant | hbody
        · obtain ⟨_, _, heq⟩ := List.mem_map.mp hconstant
          exact .inl (Prod.mk.inj heq).1.symm
        · obtain ⟨_, _, heq⟩ := List.mem_map.mp hbody
          exact .inr (Prod.mk.inj heq).1.symm
      have hlength := Container.reject_blobSteps hreject
      refine .inr ⟨what, ?_, bytes.length, by rw [hlength]⟩
      rcases hwhat with rfl | rfl <;> simp

/-- A program at the limits of its tables, with a title that is not plain. -/
def sampleTitle : Provider :=
  .ofTable (Table.empty.insert "main.cws"
    ".cwx:16\n.title \"Café\"\n.module stdlib, 15\n.symbol main, 254\nhalt\n")

/-- The container of the program. -/
def sampleTitleContainer : Container where
  type := ⟨.executable, .w16⟩
  metadata := { title := "Café" }
  slots := [⟨"stdlib", 15, false⟩]
  constants := []
  symbols := [⟨some "main", 254, [0x01]⟩]

theorem write_build_iff_sample :
    (build sampleTitle "main.cws" {}).1 = .ok sampleTitleContainer ∧
      ((∃ bytes, (write sampleTitleContainer).1 = .ok bytes) ↔ Writable sampleTitleContainer) ∧
      ∀ d, (write sampleTitleContainer).1 = .error d →
        (∃ what ∈ ["title", "description", "author"],
            d = ⟨.nowhere (.writing (.notAscii what)), none⟩) ∨
          ∃ what ∈ ["title", "description", "author", "constant", "symbol body"], ∃ length,
            d = ⟨.nowhere (.writing (.tooLong what length)), none⟩ := by
  have hbuild : (build sampleTitle "main.cws" {}).1 = .ok sampleTitleContainer := by
    decide +kernel
  exact ⟨hbuild, write_build_iff hbuild⟩

end StackAsm.Assembly
