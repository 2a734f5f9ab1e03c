/-!
# Tables of names

Finite maps from names. A name is in a table at most once.

A table is a list. Whatever a program does with one, except for showing it, does not depend on the
order of the names, and a table is shown sorted; how long a lookup takes is not modelled.
-/

namespace StackAsm

/-- A finite map from names. -/
structure Table (α : Type) where
  /-- The names with their values, the latest first. -/
  entries : List (String × α) := []
  deriving DecidableEq, Repr

namespace Table

variable {α : Type}

/-- The table without names. -/
def empty : Table α := {}

/-- The value of a name. -/
def get? (t : Table α) (name : String) : Option α := t.entries.lookup name

/-- Whether a name is in the table. -/
def contains (t : Table α) (name : String) : Bool := (t.get? name).isSome

/-- The table without a name. -/
def erase (t : Table α) (name : String) : Table α :=
  ⟨t.entries.filter fun entry => entry.1 != name⟩

/-- The table in which a name has a value, whatever it had before. -/
def insert (t : Table α) (name : String) (value : α) : Table α :=
  ⟨(name, value) :: (t.erase name).entries⟩

/-- The names with their values, in the order of the names. -/
def sorted (t : Table α) : List (String × α) :=
  t.entries.mergeSort fun a b => a.1 ≤ b.1

theorem lookup_filter_ne (entries : List (String × α)) {name other : String} (h : other ≠ name) :
    (entries.filter fun entry => entry.1 != name).lookup other = entries.lookup other := by
  induction entries with
  | nil => rfl
  | cons entry rest ih =>
    obtain ⟨key, value⟩ := entry
    by_cases hk : key = name
    · subst hk
      have : (other == key) = false := by simp [h]
      simp [List.lookup_cons, ih, this]
    · simp [List.lookup_cons, ih, hk]

theorem lookup_filter_self (entries : List (String × α)) (name : String) :
    (entries.filter fun entry => entry.1 != name).lookup name = none := by
  induction entries with
  | nil => rfl
  | cons entry rest ih =>
    obtain ⟨key, value⟩ := entry
    by_cases hk : key = name
    · simp [hk, ih]
    · have : (name == key) = false := by simp [Ne.symm hk]
      simp [List.lookup_cons, ih, hk, this]

@[simp] theorem get?_empty (name : String) : (empty : Table α).get? name = none := rfl

theorem get?_erase (t : Table α) (name other : String) :
    (t.erase name).get? other = if other = name then none else t.get? other := by
  split
  · next h => subst h; exact lookup_filter_self _ _
  · next h => exact lookup_filter_ne _ h

theorem get?_insert (t : Table α) (name other : String) (value : α) :
    (t.insert name value).get? other = if other = name then some value else t.get? other := by
  by_cases h : other = name
  · simp [get?, insert, h]
  · have hne : (other == name) = false := by simp [h]
    have := t.get?_erase name other
    simp only [get?, h, if_false] at this
    simp [get?, insert, List.lookup_cons, h, hne, this]

end Table

end StackAsm
