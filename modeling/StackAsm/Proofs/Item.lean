import StackAsm.Item
import Mathlib.Data.List.Basic

/-!
# Items and their lines

The lines of a sequence of items are made of its items, and lines that are put one after the other,
each with its end, are found again. An item that comes from a source never refers to the pool: only
the reading of declarations puts such references in the place of texts.
-/

namespace StackAsm.Item

/-- The item is no reference to the pool. -/
def IsSource (item : Located Item) : Prop := ∀ index kind, item.value ≠ .constant index kind

theorem mem_of_mem_consLine {item : Located Item} {lines : List (List (Located Item))}
    {line : List (Located Item)} (h : line ∈ consLine item lines) {x : Located Item}
    (hx : x ∈ line) : x = item ∨ ∃ other ∈ lines, x ∈ other := by
  unfold consLine at h
  split at h
  · rcases List.mem_cons.mp h with rfl | hmem
    · cases hx
    · exact .inr ⟨line, hmem, hx⟩
  · rw [List.mem_singleton.mp h] at hx
    exact .inl (List.mem_singleton.mp hx)
  · rcases List.mem_cons.mp h with rfl | hmem
    · rcases List.mem_cons.mp hx with rfl | hfirst
      · exact .inl rfl
      · exact .inr ⟨_, List.mem_cons_self, hfirst⟩
    · exact .inr ⟨line, List.mem_cons_of_mem _ hmem, hx⟩

/-- The lines of items are made of the items. -/
theorem mem_of_mem_lines {items line : List (Located Item)} (h : line ∈ lines items) :
    ∀ item ∈ line, item ∈ items := by
  have h' := List.mem_of_mem_filter h
  clear h
  induction items generalizing line with
  | nil => cases h'
  | cons first items ih =>
    intro item hitem
    rcases mem_of_mem_consLine h' hitem with rfl | ⟨other, hother, hmem⟩
    · exact List.mem_cons_self
    · exact List.mem_cons_of_mem _ (ih hother item hmem)

/-! ### Putting lines together -/

/-- A line with its end, which stands where the last item does. -/
def closeLine : List (Located Item) → List (Located Item)
  | [] => []
  | head :: rest => head :: rest ++ [(rest.getLast?.getD head).withValue .lineEnd]

/-- There are items, and none of them ends a line. -/
structure IsLine (line : List (Located Item)) : Prop where
  nonempty : line ≠ []
  noEnd : ∀ item ∈ line, item.value ≠ .lineEnd

theorem noEnd_consLine {item : Located Item} {lines : List (List (Located Item))}
    (h : ∀ line ∈ lines, ∀ item ∈ line, item.value ≠ .lineEnd) :
    ∀ line ∈ consLine item lines, ∀ item ∈ line, item.value ≠ .lineEnd := by
  unfold consLine
  split
  · exact List.forall_mem_cons.mpr ⟨by simp, h⟩
  · next hvalue => simpa using hvalue
  · next hvalue =>
    obtain ⟨hfirst, hrest⟩ := List.forall_mem_cons.mp h
    exact List.forall_mem_cons.mpr ⟨List.forall_mem_cons.mpr ⟨hvalue, hfirst⟩, hrest⟩

theorem isLine_of_mem_lines {items line : List (Located Item)} (h : line ∈ lines items) :
    IsLine line := by
  obtain ⟨hmem, hne⟩ := List.mem_filter.mp h
  have hend : ∀ line ∈ items.foldr consLine [], ∀ item ∈ line, item.value ≠ .lineEnd := by
    clear h hmem
    induction items with
    | nil => simp
    | cons item items ih => exact noEnd_consLine ih
  exact ⟨of_decide_eq_true hne, hend line hmem⟩

theorem foldr_consLine {line : List (Located Item)} (h : ∀ item ∈ line, item.value ≠ .lineEnd)
    (first : List (Located Item)) (rest : List (List (Located Item))) :
    line.foldr consLine (first :: rest) = (line ++ first) :: rest := by
  induction line with
  | nil => rfl
  | cons item line ih =>
    rw [List.foldr_cons, ih fun x hx => h x (List.mem_cons_of_mem _ hx)]
    obtain ⟨loc, value⟩ := item
    have hvalue := h _ List.mem_cons_self
    cases value with
    | lineEnd => exact absurd rfl hvalue
    | _ => rfl

/-- A line with its end in front of items is the first of their lines. -/
theorem lines_append_lineEnd {line : List (Located Item)} (h : IsLine line)
    (loc : Option Location) (items : List (Located Item)) :
    lines (line ++ ⟨loc, .lineEnd⟩ :: items) = line :: lines items := by
  have hfirst : (line ++ ⟨loc, .lineEnd⟩ :: items).foldr consLine [] =
      line :: items.foldr consLine [] := by
    rw [List.foldr_append]
    show line.foldr consLine ([] :: items.foldr consLine []) = _
    rw [foldr_consLine h.noEnd, List.append_nil]
  rw [lines, hfirst, lines]
  exact List.filter_cons_of_pos (decide_eq_true h.nonempty)

/-- Items before others leave all lines but the first alone. -/
theorem foldr_consLine_append (items : List (Located Item)) (first : List (Located Item))
    (rest : List (List (Located Item))) :
    ∃ first' rest', items.foldr consLine [first] = first' :: rest' ∧
      items.foldr consLine (first :: rest) = first' :: rest' ++ rest := by
  induction items with
  | nil => exact ⟨first, [], rfl, rfl⟩
  | cons item items ih =>
    obtain ⟨first', rest', hone, hmore⟩ := ih
    obtain ⟨loc, value⟩ := item
    rw [List.foldr_cons, List.foldr_cons, hone, hmore]
    cases value with
    | lineEnd => exact ⟨[], first' :: rest', rfl, rfl⟩
    | _ => exact ⟨_, rest', rfl, rfl⟩

/-- The lines of items that end with a line come before the lines of what follows. -/
theorem lines_append {items : List (Located Item)}
    (h : items.getLast?.map (·.value) = some .lineEnd) (more : List (Located Item)) :
    lines (items ++ more) = lines items ++ lines more := by
  obtain ⟨last, hlast, hend⟩ := Option.map_eq_some_iff.mp h
  obtain ⟨before, rfl⟩ := List.getLast?_eq_some_iff.mp hlast
  obtain ⟨loc, value⟩ := last
  cases hend
  obtain ⟨first, rest, hone, hmore⟩ := foldr_consLine_append before [] (more.foldr consLine [])
  have hitems : (before ++ [(⟨loc, .lineEnd⟩ : Located Item)]).foldr consLine [] = first :: rest := by
    rw [List.foldr_append]
    exact hone
  have hall : (before ++ [(⟨loc, .lineEnd⟩ : Located Item)] ++ more).foldr consLine [] =
      first :: rest ++ more.foldr consLine [] := by
    rw [List.foldr_append, List.foldr_append]
    exact hmore
  rw [lines, hall, List.filter_append, lines, hitems, lines]

/-- The lines of lines put together are these lines. -/
theorem lines_flatMap_closeLine {content : List (List (Located Item))}
    (h : ∀ line ∈ content, IsLine line) : lines (content.flatMap closeLine) = content := by
  induction content with
  | nil => rfl
  | cons line content ih =>
    obtain ⟨hline, hcontent⟩ := List.forall_mem_cons.mp h
    obtain ⟨head, rest, rfl⟩ := List.exists_cons_of_ne_nil hline.nonempty
    rw [List.flatMap_cons, closeLine, List.append_assoc]
    exact (lines_append_lineEnd hline _ _).trans (congrArg _ (ih hcontent))

end StackAsm.Item
