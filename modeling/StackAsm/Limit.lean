/-!
# Limits

The sizes of the tables of a container.
-/

namespace StackAsm.Limit

/-- The most module slots. -/
def slots : Nat := 16

/-- The largest index of a module slot. -/
def slotIndex : Nat := 15

/-- The most constants. -/
def constants : Nat := 255

/-- The most symbols. -/
def symbols : Nat := 255

/-- The largest index of a symbol. -/
def symbolIndex : Nat := 254

/-- The most bytes in the name of a module. -/
def moduleName : Nat := 6

/-- The farthest a short label may lie, in bytes. -/
def shortLabel : Nat := 255

end StackAsm.Limit
