/-!
# Slices

A slice has elements and a capacity, the room of the array behind it. Appending to a full slice
doubles the capacity.
-/

namespace ConstCheck

/-- Elements, and the room for them. -/
structure Slice (α : Type) where
  elems : List α
  cap : Nat

namespace Slice

variable {α : Type}

/-- A slice without spare room. -/
def ofList (elems : List α) : Slice α := ⟨elems, elems.length⟩

/-- Appends an element; where it does not fit, the capacity doubles, or grows to the new length if
that is more. -/
def push (s : Slice α) (x : α) : Slice α :=
  let length := s.elems.length + 1
  { elems := s.elems ++ [x]
    cap := if s.cap < length then max (s.cap * 2) length else s.cap }

@[simp]
theorem elems_ofList (xs : List α) : (ofList xs).elems = xs := rfl

@[simp]
theorem cap_ofList (xs : List α) : (ofList xs).cap = xs.length := rfl

@[simp]
theorem elems_push (s : Slice α) (x : α) : (s.push x).elems = s.elems ++ [x] := rfl

theorem length_push (s : Slice α) (x : α) : (s.push x).elems.length = s.elems.length + 1 := by
  simp

end Slice

end ConstCheck
