import StackAsm.Declaration.Arguments
import StackAsm.Proofs.Effects
import Mathlib.Data.List.Infix

/-!
# Lists of values

The rest of a line may be a list of values: literals with separators between them, and brackets
around them that group and mean nothing. Brackets may stand anywhere in front of a literal and close
anywhere behind one, as long as no more are closed than are open and none is left open at the end.
A list is read exactly if it is written like that, and what is read are its literals.
-/

namespace StackAsm

/-- The item is a number or a text. -/
def Item.isLiteral : Item → Bool
  | .number _ | .text _ => true
  | _ => false

namespace Declaration

/-- The error is that the pool refuses a constant. -/
def Error.isPool : Error → Bool
  | .pool _ => true
  | _ => false

/-! ### How lists are written -/

/-- A value of a list, with the numbers of brackets in front of it and behind it. -/
structure Element where
  opened : Nat
  value : Item
  closed : Nat

/-- How an element is written. -/
def Element.items (e : Element) : List Item :=
  List.replicate e.opened .bracketOpen ++ e.value :: List.replicate e.closed .bracketClose

/-- The items are one or more elements, with a separator between each two. -/
inductive Separated : List Element → List Item → Prop where
  | last (e : Element) : Separated [e] e.items
  | cons (e : Element) (c : Char) {elements : List Element} {items : List Item} :
      Separated elements items → Separated (e :: elements) (e.items ++ .separator c :: items)

/-- Where `depth` brackets are open in front of the items, none is closed that is not open, and in
the end all are closed. -/
structure Balanced (depth : Nat) (items : List Item) : Prop where
  nowhereBelow : ∀ front, front <+: items →
    front.count .bracketClose ≤ depth + front.count .bracketOpen
  closed : items.count .bracketClose = depth + items.count .bracketOpen

/-- The items are a list from the place on, whatever becomes of the brackets. -/
inductive Listed : Place → List Item → Prop where
  | opened {items : List Item} :
      Listed .beforeValue items → Listed .beforeValue (.bracketOpen :: items)
  | value {item : Item} {items : List Item} : item.isLiteral = true →
      Listed .afterValue items → Listed .beforeValue (item :: items)
  | closed {items : List Item} :
      Listed .afterValue items → Listed .afterValue (.bracketClose :: items)
  | separator (c : Char) {items : List Item} :
      Listed .beforeValue items → Listed .afterValue (.separator c :: items)
  | nil : Listed .afterValue []

variable {items : List Item} {depth : Nat}

/-! ### Brackets -/

instance : Decidable (Balanced depth items) :=
  decidable_of_iff
    ((∀ front ∈ items.inits, front.count .bracketClose ≤ depth + front.count .bracketOpen) ∧
      items.count .bracketClose = depth + items.count .bracketOpen)
    ⟨fun h => ⟨fun front hfront => h.1 front ((List.mem_inits _ _).mpr hfront), h.2⟩,
      fun h => ⟨fun front hfront => h.1 front ((List.mem_inits _ _).mp hfront), h.2⟩⟩

theorem balanced_nil_iff : Balanced depth [] ↔ depth = 0 := by
  constructor
  · rintro ⟨-, hclosed⟩
    simpa using hclosed.symm
  · rintro rfl
    exact ⟨by simp, rfl⟩

/-- What an item does to the depth in front of it is the depth in front of the others. -/
theorem balanced_cons_iff {depth' : Nat} {item : Item}
    (h : depth' + [item].count .bracketClose = depth + [item].count .bracketOpen) :
    Balanced depth (item :: items) ↔ Balanced depth' items := by
  have hcount (bracket : Item) (rest : List Item) :
      (item :: rest).count bracket = [item].count bracket + rest.count bracket := by
    rw [← List.count_append, List.singleton_append]
  constructor
  · rintro ⟨hbelow, hclosed⟩
    rw [hcount .bracketClose items, hcount .bracketOpen items] at hclosed
    refine ⟨fun front hfront => ?_, by omega⟩
    have hle := hbelow (item :: front) ((List.prefix_cons_inj item).mpr hfront)
    rw [hcount .bracketClose front, hcount .bracketOpen front] at hle
    omega
  · rintro ⟨hbelow, hclosed⟩
    constructor
    · intro front hfront
      rcases List.prefix_cons_iff.mp hfront with rfl | ⟨rest, rfl, hrest⟩
      · simp
      · have hle := hbelow rest hrest
        rw [hcount .bracketClose rest, hcount .bracketOpen rest]
        omega
    · rw [hcount .bracketClose items, hcount .bracketOpen items]
      omega

theorem not_balanced_close : ¬Balanced 0 (.bracketClose :: items) := by
  rintro ⟨hbelow, -⟩
  have hle := hbelow [.bracketClose] (List.prefix_append [.bracketClose] items)
  simp at hle

/-! ### Reading a list -/

/-- The items complete a list from the place on, where `depth` brackets are open. -/
def Completes (place : Place) (depth : Nat) (items : List Item) : Prop :=
  Listed place items ∧ Balanced depth items

theorem completes_nil_iff {place : Place} :
    Completes place depth [] ↔ place = .afterValue ∧ depth = 0 := by
  rw [Completes, balanced_nil_iff]
  refine and_congr_left fun _ => ⟨fun h => ?_, fun h => h ▸ .nil⟩
  cases h
  rfl

theorem completes_open_iff : Completes .beforeValue depth (.bracketOpen :: items) ↔
    Completes .beforeValue (depth + 1) items := by
  refine and_congr ⟨fun h => ?_, .opened⟩ (balanced_cons_iff (by simp))
  cases h with
  | opened h => exact h
  | value hliteral => cases hliteral

theorem completes_literal_iff {item : Item} (hitem : item.isLiteral = true) :
    Completes .beforeValue depth (item :: items) ↔ Completes .afterValue depth items := by
  refine and_congr ⟨fun h => ?_, .value hitem⟩ (balanced_cons_iff ?_)
  · cases h with
    | opened => cases hitem
    | value _ h => exact h
  · cases item with
    | number | text => simp
    | _ => cases hitem

theorem completes_close_iff : Completes .afterValue (depth + 1) (.bracketClose :: items) ↔
    Completes .afterValue depth items := by
  refine and_congr ⟨fun h => ?_, .closed⟩ (balanced_cons_iff (by simp))
  cases h with
  | closed h => exact h

theorem completes_separator_iff (c : Char) :
    Completes .afterValue depth (.separator c :: items) ↔ Completes .beforeValue depth items := by
  refine and_congr ⟨fun h => ?_, .separator c⟩ (balanced_cons_iff (by simp))
  cases h with
  | separator _ h => exact h

/-- A list is read exactly if the items complete one, and then its literals are read. -/
theorem accepts_elementsInto (last : Option Location) (done : Array (Located Item)) (depth : Nat)
    (place : Place) (items : List (Located Item)) :
    Accepts (Completes place depth (items.map (·.value)))
      (fun elements => elements.toList.map (·.value) =
        done.toList.map (·.value) ++ (items.map (·.value)).filter Item.isLiteral)
      (·.value.isPool = false) (elementsInto last done depth place items) := by
  induction items generalizing done depth place with
  | nil =>
    refine Accepts.congr completes_nil_iff.symm ?_
    cases place with
    | beforeValue => exact ⟨by simp, rfl⟩
    | afterValue => exact Accepts.ite (and_iff_right rfl).symm (by simp) rfl
  | cons item items ih =>
    obtain ⟨loc, value⟩ := item
    rw [List.map_cons]
    cases place with
    | beforeValue =>
      have hliteral (hvalue : value.isLiteral = true) :
          Accepts (Completes .beforeValue depth (value :: items.map (·.value)))
            (fun elements => elements.toList.map (·.value) = done.toList.map (·.value) ++
              (value :: items.map (·.value)).filter Item.isLiteral)
            (·.value.isPool = false)
            (elementsInto last (done.push ⟨loc, value⟩) depth .afterValue items) := by
        have hnext := ih (done.push ⟨loc, value⟩) depth .afterValue
        rw [Array.toList_push, List.map_append, List.append_assoc] at hnext
        rw [completes_literal_iff hvalue, List.filter_cons_of_pos hvalue]
        exact hnext
      cases value with
      | bracketOpen =>
        rw [completes_open_iff]
        exact ih done (depth + 1) .beforeValue
      | number n => exact hliteral rfl
      | text content => exact hliteral rfl
      | _ =>
        refine ⟨?_, rfl⟩
        rintro ⟨hlisted, -⟩
        cases hlisted with
        | value hliteral => cases hliteral
    | afterValue =>
      cases value with
      | separator c =>
        rw [completes_separator_iff]
        exact ih done depth .beforeValue
      | bracketClose =>
        cases depth with
        | zero =>
          refine ⟨?_, rfl⟩
          rintro ⟨-, hbalanced⟩
          exact not_balanced_close hbalanced
        | succ depth =>
          rw [completes_close_iff]
          exact ih done depth .afterValue
      | _ =>
        refine ⟨?_, rfl⟩
        rintro ⟨hlisted, -⟩
        cases hlisted

/-- The items to be read, wherever they stand. -/
def Arguments.values (args : Arguments) : List Item := args.rest.map (·.value)

theorem accepts_readElements (args : Arguments) :
    Accepts (Completes .beforeValue 0 args.values)
      (fun p => p.1.map (·.value) = args.values.filter Item.isLiteral ∧
        p.2 = { args with rest := [] })
      (·.value.isPool = false) (readElements args) :=
  (accepts_elementsInto args.last #[] 0 .beforeValue args.rest).bind_ok
    fun elements h => ⟨by simpa [Arguments.values] using h, rfl⟩

/-! ### Elements -/

theorem listed_replicate_open (n : Nat) (h : Listed .beforeValue items) :
    Listed .beforeValue (List.replicate n .bracketOpen ++ items) := by
  induction n with
  | zero => exact h
  | succ n ih => exact .opened ih

theorem listed_replicate_close (n : Nat) (h : Listed .afterValue items) :
    Listed .afterValue (List.replicate n .bracketClose ++ items) := by
  induction n with
  | zero => exact h
  | succ n ih => exact .closed ih

theorem Listed.element {e : Element} (he : e.value.isLiteral = true)
    (h : Listed .afterValue items) : Listed .beforeValue (e.items ++ items) := by
  rw [Element.items, List.append_assoc]
  exact listed_replicate_open _ (.value he (listed_replicate_close _ h))

theorem Separated.listed {elements : List Element} (h : Separated elements items)
    (hliteral : ∀ e ∈ elements, e.value.isLiteral = true) : Listed .beforeValue items := by
  induction h with
  | last e =>
    have he := Listed.element (hliteral e List.mem_cons_self) .nil
    rwa [List.append_nil] at he
  | cons e c _ ih =>
    obtain ⟨he, hrest⟩ := List.forall_mem_cons.mp hliteral
    exact .element he (.separator c (ih hrest))

/-- A bracket in front of a list belongs to its first element. -/
theorem Separated.opened {elements : List Element} (h : Separated elements items)
    (hliteral : ∀ e ∈ elements, e.value.isLiteral = true) :
    ∃ elements', Separated elements' (.bracketOpen :: items) ∧
      ∀ e ∈ elements', e.value.isLiteral = true := by
  cases h with
  | last e => exact ⟨_, .last { e with opened := e.opened + 1 }, by simpa using hliteral⟩
  | cons e c h => exact ⟨_, .cons { e with opened := e.opened + 1 } c h, by simpa using hliteral⟩

/-- From its start on a list is made up of elements, and so it is from behind a value on together
with the element of that value, as far as that has been read. -/
theorem Listed.separated {place : Place} (h : Listed place items) :
    match place with
    | .beforeValue => ∃ elements, Separated elements items ∧
        ∀ e ∈ elements, e.value.isLiteral = true
    | .afterValue => ∀ e : Element, e.value.isLiteral = true → ∃ elements,
        Separated elements (e.items ++ items) ∧ ∀ e ∈ elements, e.value.isLiteral = true := by
  induction h with
  | opened _ ih =>
    obtain ⟨elements, hseparated, hliteral⟩ := ih
    exact hseparated.opened hliteral
  | @value item _ hitem _ ih => exact ih ⟨0, item, 0⟩ hitem
  | @closed items _ ih =>
    intro e he
    have hitems : e.items ++ .bracketClose :: items =
        { e with closed := e.closed + 1 }.items ++ items := by
      simp [Element.items, List.replicate_succ']
    rw [hitems]
    exact ih _ he
  | separator c _ ih =>
    intro e he
    obtain ⟨elements, hseparated, hliteral⟩ := ih
    exact ⟨e :: elements, .cons e c hseparated, List.forall_mem_cons.mpr ⟨he, hliteral⟩⟩
  | nil =>
    intro e he
    rw [List.append_nil]
    exact ⟨[e], .last e, by simpa using he⟩

/-- A list that is complete is made up of elements. -/
theorem completes_iff : Completes .beforeValue 0 items ↔ ∃ elements, Separated elements items ∧
    Balanced 0 items ∧ ∀ e ∈ elements, e.value.isLiteral = true := by
  constructor
  · rintro ⟨hlisted, hbalanced⟩
    obtain ⟨elements, hseparated, hliteral⟩ := hlisted.separated
    exact ⟨elements, hseparated, hbalanced, hliteral⟩
  · rintro ⟨elements, hseparated, hbalanced, hliteral⟩
    exact ⟨hseparated.listed hliteral, hbalanced⟩

theorem Element.filter_items {e : Element} (he : e.value.isLiteral = true) :
    e.items.filter Item.isLiteral = [e.value] := by
  rw [Element.items, List.filter_append, List.filter_cons_of_pos he]
  simp [Item.isLiteral]

/-- The values of the elements are the literals of the list. -/
theorem Separated.map_value {elements : List Element} (h : Separated elements items)
    (hliteral : ∀ e ∈ elements, e.value.isLiteral = true) :
    elements.map (·.value) = items.filter Item.isLiteral := by
  induction h with
  | last e =>
    rw [Element.filter_items (hliteral e List.mem_cons_self)]
    rfl
  | cons e c _ ih =>
    obtain ⟨he, hrest⟩ := List.forall_mem_cons.mp hliteral
    rw [List.filter_append, Element.filter_items he, List.map_cons, ih hrest]
    rfl

end Declaration

end StackAsm
