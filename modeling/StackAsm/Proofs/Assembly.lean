import StackAsm.Assembly
import StackAsm.Proofs.Declaration.Tables
import StackAsm.Proofs.Expansion.Emission
import StackAsm.Proofs.Linking
import StackAsm.Proofs.Operand

/-!
# The passes of an assembly

A container is assembled if declarations, layout and linking succeed one after the other. What the
passes establish is collected here for the program as a whole: what the declarations say stays as
it is up to the container, the symbols are numbered and well placed, and the names that refer to
something else than a symbol are those that the lines of the program declare.
-/

namespace StackAsm.Assembly

/-- The passes over the items succeed: reading them declares `declared` and puts `deferred` aside,
laying these out completes the session, and linking it gives the container. -/
structure Passes (items deferred : List (Located Item)) (declared session : Session)
    (container : Container) : Prop where
  read : (Declaration.readProgram items).1 = .ok (declared, deferred)
  laidOut : (Layout.layOut declared deferred).1 = session
  finished : (Layout.layOut declared deferred).2.1 = none
  linked : (Linking.link session).1 = .ok container

theorem assembleItems_eq_ok {items : List (Located Item)} {container : Container}
    (h : (assembleItems items).1 = .ok container) :
    ∃ deferred declared session, Passes items deferred declared session container := by
  unfold assembleItems at h
  split at h
  · cases h
  · next declared deferred _ hread =>
    split at h
    · cases h
    · next session _ hlayout =>
      exact ⟨deferred, declared, session, by rw [hread], by rw [hlayout], by rw [hlayout],
        except_mapError_eq_ok.mp h⟩

theorem build_eq_ok {provider : Provider} {root : String} {defines : Table Constant}
    {container : Container} (h : (build provider root defines).1 = .ok container) :
    ∃ items s, Expansion.run provider root { constants := defines } = .ok items s ∧
      (assembleItems items).1 = .ok container := by
  unfold build at h
  split at h
  · cases h
  · next items s hrun => exact ⟨items, s, hrun, except_mapError_eq_ok.mp h⟩

namespace Passes

variable {items deferred : List (Located Item)} {declared session : Session}
  {container : Container}

theorem read_eq (h : Passes items deferred declared session container) :
    Declaration.readProgram items =
      (.ok (declared, deferred), (Declaration.readProgram items).2) := by
  rw [← h.read]

theorem exists_linked (h : Passes items deferred declared session container) :
    ∃ indices, Linking.Linked session indices container :=
  Linking.linked_of_link h.linked

/-- The declarations stay as they were read. -/
theorem declarations (h : Passes items deferred declared session container) :
    session.type = declared.type ∧ session.instructionSet = declared.instructionSet ∧
      session.metadata = declared.metadata ∧ session.slots = declared.slots ∧
      session.pool = declared.pool := by
  rw [← h.laidOut]
  exact Layout.declarations_layOut declared deferred

/-- The container has the declarations as they were read. -/
theorem container_declarations (h : Passes items deferred declared session container) :
    container.type = declared.type ∧ container.metadata = declared.metadata ∧
      container.slots = declared.slots ∧ container.constants = declared.pool.entries := by
  obtain ⟨indices, hlinked⟩ := h.exists_linked
  obtain ⟨htype, -, hmetadata, hslots, hpool⟩ := h.declarations
  rw [hlinked.type, hlinked.metadata, hlinked.slots, hlinked.constants, htype, hmetadata, hslots,
    hpool]
  exact ⟨rfl, rfl, rfl, rfl⟩

theorem coherent (h : Passes items deferred declared session container) :
    session.instructionSet.Coherent := by
  rw [h.declarations.2.1]
  exact Declaration.coherent_readProgram h.read_eq

theorem allWellPlaced (h : Passes items deferred declared session container) :
    Layout.AllWellPlaced session := by
  rw [← h.laidOut]
  exact Layout.allWellPlaced_layOut (Declaration.symbols_readProgram h.read_eq) deferred

/-- What a layout keeps holds of all symbols. -/
theorem forall_symbols {P : Symbol → Prop} (h : Passes items deferred declared session container)
    (hP : Layout.Kept declared.instructionSet declared.type.width deferred P) :
    ∀ symbol ∈ session.symbols, P symbol := by
  rw [← h.laidOut]
  exact Layout.forall_symbols_layOut (Declaration.symbols_readProgram h.read_eq) hP

/-- What holds of the length of all code holds of the size of every symbol. -/
theorem forall_size {P : Nat → Prop} (h : Passes items deferred declared session container)
    (hP : ∀ entry ∈ container.symbols, P entry.body.length) :
    ∀ symbol ∈ session.symbols, P symbol.size := by
  obtain ⟨indices, hlinked⟩ := h.exists_linked
  intro symbol hsymbol
  have hsize := List.mem_map_of_mem (f := Symbol.size) (Array.mem_toList_iff.mpr hsymbol)
  rw [← hlinked.map_size h.coherent h.allWellPlaced] at hsize
  obtain ⟨entry, hentry, heq⟩ := List.mem_map.mp hsize
  rw [← heq]
  exact hP entry hentry

theorem labelsPlaced (h : Passes items deferred declared session container) :
    ∀ symbol ∈ session.symbols, Layout.LabelsPlaced symbol :=
  h.forall_symbols (Layout.kept_labelsPlaced _ _ deferred)

/-! ### Names -/

theorem tables (h : Passes items deferred declared session container) :
    Declaration.Tables declared :=
  Declaration.tables_readProgram h.read_eq

theorem numbered (h : Passes items deferred declared session container) :
    Layout.Numbered session.references (Layout.heads session) := by
  rw [← h.laidOut]
  exact Layout.numbered_layOut deferred (Declaration.symbols_readProgram h.read_eq)
    h.tables.noSymbol

theorem get?_declared_iff (h : Passes items deferred declared session container) {r : Reference}
    (hr : ∀ position, r ≠ .symbol position) (name : String) :
    session.references.get? name = some r ↔ declared.references.get? name = some r := by
  rw [← h.laidOut, Layout.get?_layOut_eq_some_iff declared deferred hr]

/-- Other names than those of symbols refer to what the lines of the program say. -/
theorem get?_eq_some_iff (h : Passes items deferred declared session container) {r : Reference}
    (hr : ∀ position, r ≠ .symbol position) (name : String) :
    session.references.get? name = some r ↔
      ∃ line ∈ Item.lines items,
        Declaration.Names declared.type.width declared.pool name (line.map (·.value)) r := by
  obtain ⟨head, rest, lines, type, directive, hlines, hhead, hnone, hreading⟩ :=
    Declaration.reading_readProgram h.read_eq
  have htype : declared.type = type := hreading.type_eq
  rw [h.get?_declared_iff hr, hreading.get?_eq_some_iff Pool.wellFormed_empty, hlines,
    List.exists_mem_cons_iff, htype]
  constructor
  · rintro (hempty | hline)
    · cases hempty
    · exact .inr hline
  · rintro (hheader | hline)
    · -- the first line is the header
      obtain ⟨_, _, _, hitems, hknown, -⟩ := hheader.exists_keyword
      rw [List.map_cons, hhead] at hitems
      cases hitems
      rw [hnone] at hknown
      cases hknown
    · exact .inr hline

/-! ### Indices -/

theorem nodup_indices {indices : List UInt8}
    (h : Passes items deferred declared session container)
    (hlinked : Linking.Linked session indices container) : indices.Nodup := by
  refine Linking.nodup_indices ?_ hlinked.assigned
  have hdistinct := h.numbered.distinct
  rwa [Layout.heads, List.filterMap_map] at hdistinct

theorem inRange_indices {indices : List UInt8}
    (h : Passes items deferred declared session container)
    (hlinked : Linking.Linked session indices container) :
    ∀ index ∈ indices, index.toNat ≤ Limit.symbolIndex := by
  refine Linking.inRange_indices ?_ hlinked.assigned
  intro index hindex
  obtain ⟨symbol, hsymbol, hfixed⟩ := List.mem_filterMap.mp hindex
  exact h.numbered.inRange _ (List.mem_map_of_mem hsymbol) index hfixed

end Passes

end StackAsm.Assembly
