import StackAsm.Proofs.Assembly
import StackAsm.Proofs.Declaration.Places
import StackAsm.Proofs.Layout.Places

/-!
# Diagnostics point into loaded files

A failure of any step stands at an item, and items stand in files that were loaded; so a diagnostic
names a file that the provider has given. Nothing is pointed at if there is nothing to point at: the
first file could not be loaded, or no item is left of the sources.
-/

namespace StackAsm.Assembly

open Expansion

theorem lines_ne_nil_of_head {item : Located Item} (h : item.value ≠ .lineEnd)
    (items : List (Located Item)) : Item.lines (item :: items) ≠ [] := by
  rw [Item.lines, List.foldr_cons]
  unfold Item.consLine
  split
  · next hend => exact absurd hend h
  · simp
  · simp

/-- Items that stand in `L` are assembled, or refused in `L`, unless they form no line. -/
theorem lands_assembleItems {L : Option Location → Prop} {items : List (Located Item)}
    (h : ∀ item ∈ items, L item.loc) :
    Lands (fun _ => True)
      (fun e => L e.loc ∨
        Item.lines items = [] ∧ e = .nowhere (.declaration (.unexpectedEnd "the header")))
      (assembleItems items).1 := by
  have hread := Declaration.lands_readProgram h
  unfold assembleItems
  split
  · next e _ herror =>
    rw [herror] at hread
    rcases hread with hrefused | ⟨hlines, rfl⟩
    · exact .inl hrefused.loc
    · exact .inr ⟨hlines, rfl⟩
  · next session deferred _ hok =>
    rw [hok] at hread
    have hsession : session.Within L := by
      intro symbol hsymbol
      rw [Declaration.symbols_readProgram hok] at hsymbol
      exact absurd hsymbol (Array.not_mem_empty _)
    have hlayout := Layout.within_layOut hsession hread.1
    split
    · next e _ herror =>
      rw [herror] at hlayout
      exact .inl hlayout
    · next session' _ hdone =>
      rw [hdone] at hlayout
      have hlink := Linking.lands_link hlayout
      exact hlink.mapError fun e he => .inl he

/-- The diagnostics that point nowhere. -/
inductive Unplaced (provider : Provider) (root : String) (defines : Table Constant) :
    Diagnostic → Prop where
  /-- The first file could not be loaded. -/
  | unloaded (reason : String) (h : provider.load [] ⟨none, root⟩ = .error reason) :
      Unplaced provider root defines ⟨.nowhere (.expansion (.inclusion root reason)), none⟩
  /-- The sources leave no item. -/
  | empty (s : Expansion.State)
      (h : Expansion.run provider root { constants := defines } = .ok [] s) :
      Unplaced provider root defines
        ⟨.nowhere (.declaration (.unexpectedEnd "the header")), none⟩

/-- The diagnostic points into a file that is loaded in the state, under the name of a source that
the provider has given. -/
def Placed (provider : Provider) (s : Expansion.State) (d : Diagnostic) : Prop :=
  ∃ loc name, d.error.loc = some loc ∧ s.files[loc.file]? = some name ∧ d.file = some name ∧
    Answered provider s.queries name

theorem placed_ofError {provider : Provider} {s : Expansion.State} {e : Located Error}
    (hnamed : ∀ name ∈ s.files, Answered provider s.queries name)
    (h : PointsBelow s.files.length e.loc) : Placed provider s (.ofError s.files e) := by
  obtain ⟨loc, hloc, hlt⟩ := h
  have hname : s.files[loc.file]? = some s.files[loc.file] := List.getElem?_eq_getElem hlt
  refine ⟨loc, s.files[loc.file], hloc, hname, ?_, hnamed _ (List.getElem_mem hlt)⟩
  rw [Diagnostic.ofError, hloc]
  exact hname

/-- An expansion that fails does so in a loaded file, unless it could not load the first. -/
theorem run_eq_error {provider : Provider} {root : String} {defines : Table Constant}
    {e : Located Expansion.Error} {s : Expansion.State}
    (h : Expansion.run provider root { constants := defines } = .error e s) :
    Sound provider s ∧ (PointsBelow s.files.length e.loc ∨
      ∃ reason, provider.load [] ⟨none, root⟩ = .error reason ∧
        e = .nowhere (.inclusion root reason)) := by
  cases hfile : expandWithin provider none maxDepth none root { constants := defines } with
  | ok _ t =>
    rw [run_of_expandWithin hfile] at h
    cases h
  | error e' t =>
    rw [run_of_failed hfile] at h
    cases h
    have hsound : Sound provider s := by
      have hafter := sound_expandWithin provider none maxDepth none root defines
      rwa [hfile] at hafter
    refine ⟨hsound, ?_⟩
    obtain ⟨-, hfails⟩ :=
      moves_expandWithin provider none maxDepth none root { constants := defines }
    rcases hfails e s hfile with hbelow | ⟨hloc, hdepth | ⟨reason, hload, hvalue⟩⟩
    · exact .inl hbelow
    · cases hdepth
    · refine .inr ⟨reason, hload, ?_⟩
      obtain ⟨loc, value⟩ := e
      cases hloc
      cases hvalue
      rfl

/-- **Every diagnostic points into a loaded file**, under the name that the provider gave to it in
this run, unless the first file could not be loaded or no item is left of the sources. -/
theorem build_error_placed {provider : Provider} {root : String} {defines : Table Constant}
    {d : Diagnostic} (h : (build provider root defines).1 = .error d) :
    Unplaced provider root defines d ∨
      Placed provider (stateAfter (Expansion.run provider root { constants := defines })) d := by
  unfold build at h
  split at h
  · next e s hrun =>
    cases h
    rw [hrun]
    obtain ⟨hsound, hbelow | ⟨reason, hload, rfl⟩⟩ := run_eq_error hrun
    · exact .inr (placed_ofError hsound.named hbelow)
    · exact .inl (.unloaded reason hload)
  · next items s hrun =>
    obtain ⟨t, hfile, rfl, rfl⟩ := run_eq_ok hrun
    change expandWithin provider none maxDepth none root _ = _ at hfile
    have hsound : Sound provider t := by
      have hafter := sound_expandWithin provider none maxDepth none root defines
      rwa [hfile] at hafter
    have hitems := lands_assembleItems fun item hitem =>
      hsound.placed item (Array.mem_toList_iff.mp hitem)
    rw [hrun]
    cases hresult : (assembleItems t.items.toList).1 with
    | ok container =>
      simp only [hresult] at h
      cases h
    | error e =>
      rw [hresult] at hitems
      simp only [hresult] at h
      cases h
      rcases hitems with hbelow | ⟨hlines, rfl⟩
      · exact .inr (placed_ofError hsound.named hbelow)
      · -- items that form no line begin with the end of one, unless there are none
        have hnil : t.items.toList = [] := by
          cases hlist : t.items.toList with
          | nil => rfl
          | cons item items =>
            rw [hlist] at hlines
            have hfirst : t.items[0]? = some item := by
              rw [← Array.getElem?_toList, hlist]
              rfl
            exact absurd hlines (lines_ne_nil_of_head (hsound.started item hfirst) items)
        rw [hnil] at hrun
        exact .inl (.empty _ hrun)

/-- A program whose only instruction stands in an included file, outside of any symbol. -/
def sampleStray : Provider :=
  .ofTable ((Table.empty.insert "main.cws" ".cwl:16\n#define X\n#include \"lib.inc\"\n").insert
    "lib.inc" "; library\n  X nop\n")

theorem build_error_placed_sample :
    (build sampleStray "main.cws" {}).1 =
        .error ⟨.here ⟨1, 2, 5⟩ (.layout .outsideSymbol), some "lib.inc"⟩ ∧
      Placed sampleStray (stateAfter (Expansion.run sampleStray "main.cws" { constants := {} }))
        ⟨.here ⟨1, 2, 5⟩ (.layout .outsideSymbol), some "lib.inc"⟩ := by
  have hbuild : (build sampleStray "main.cws" {}).1 =
      .error ⟨.here ⟨1, 2, 5⟩ (.layout .outsideSymbol), some "lib.inc"⟩ := by decide +kernel
  refine ⟨hbuild, (build_error_placed hbuild).resolve_left fun h => ?_⟩
  cases h

end StackAsm.Assembly
