/-!
# Names

Identifiers and the spellings of literals are strings that are written many times, so an
expression holds their numbers in a table of strings instead. `Name` is such a number; number 0 is
the empty string in every table.
-/

namespace ConstCheck

/-- The number of a string in a table of names. -/
structure Name where
  index : Nat
  deriving DecidableEq

/-- The name of the empty string. -/
def Name.empty : Name := ⟨0⟩

end ConstCheck
