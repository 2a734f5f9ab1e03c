import StackAsm.Session

/-!
# The names of a session

A name is given to something only while it is free, so what a name refers to stays when another
name is given.
-/

namespace StackAsm.Session

/-- A free name refers to nothing. -/
theorem get?_of_free {session : Session} {name : String} (h : session.isTaken name = false) :
    session.references.get? name = none := by
  rw [isTaken, Bool.or_eq_false_iff] at h
  simpa [Table.contains] using h.1

/-- A free name is no mnemonic. -/
theorem find?_of_free {session : Session} {name : String} (h : session.isTaken name = false) :
    session.instructionSet.find? name = none := by
  rw [isTaken, Bool.or_eq_false_iff] at h
  simpa using h.2

theorem ne_of_free {session : Session} {name other : String} {r : Reference}
    (hfree : session.isTaken name = false) (h : session.references.get? other = some r) :
    other ≠ name := by
  rintro rfl
  rw [get?_of_free hfree] at h
  cases h

theorem get?_refer (session : Session) (name other : String) (r : Reference) :
    (session.refer name r).references.get? other =
      if other = name then some r else session.references.get? other :=
  session.references.get?_insert name other r

/-- What a name refers to stays when a free name is given to something else. -/
theorem get?_refer_of_free {session : Session} {name other : String} {r r' : Reference}
    (hfree : session.isTaken name = false) (h : session.references.get? other = some r) :
    (session.refer name r').references.get? other = some r := by
  rw [get?_refer, if_neg (ne_of_free hfree h), h]

end StackAsm.Session
