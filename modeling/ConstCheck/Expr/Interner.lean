import Std.Data.HashMap
import ConstCheck.Expr.Name

/-!
# The table of names

A table numbers the strings it is given, in the order of first use, and keeps them. It starts
with the empty string, has room for as many strings as a word of 32 bits can number, and refuses
any beyond.

* `Interner.tryIntern`: the name of a string, new or known, and the table after the call.
* `Interner.lookup`: the string of a name.
-/

namespace ConstCheck

/-- The strings in order, and the number of each. -/
structure Interner where
  strings : Array String
  numbers : Std.HashMap String Nat

namespace Interner

/-- The table that holds the empty string alone. -/
def new : Interner := { strings := #[""], numbers := {("", 0)} }

/-- The largest number of a name. -/
def maxIndex : Nat := 0xFFFFFFFF

/-- No number is left for another string. -/
structure Overflow where
  count : Nat

def Overflow.message (e : Overflow) : String :=
  s!"interner exceeded capacity: {e.count} strings, max is {maxIndex}"

/-- The name of a string that the table holds. -/
def known? (t : Interner) (s : String) : Option Name := t.numbers[s]?.map Name.mk

/-- The name of a string, added unless the table holds it by now; and the table after the call. -/
def register (t : Interner) (s : String) : Except Overflow Name × Interner :=
  match t.known? s with
  | some name => (.ok name, t)
  | none =>
    let index := t.strings.size
    if maxIndex < index then (.error ⟨index⟩, t)
    else (.ok ⟨index⟩, { strings := t.strings.push s, numbers := t.numbers.insert s index })

/-- The name of a string, and the table after the call. A string that is not found is registered,
and looked up again there: the table is shared, and others may have come first. -/
def tryIntern (t : Interner) (s : String) : Except Overflow Name × Interner :=
  match t.known? s with
  | some name => (.ok name, t)
  | none => t.register s

/-- The string of a name; a name that the table did not give stands for the empty string. -/
def lookup (t : Interner) (name : Name) : String := t.strings[name.index]?.getD ""

/-- How many strings the table holds, the empty one included. -/
def size (t : Interner) : Nat := t.strings.size

/-- No string but the empty one. -/
def isEmpty (t : Interner) : Bool := t.size ≤ 1

end Interner

end ConstCheck
