import ConstCheck.Value.Basic

/-!
# The store

Cells hold the values of variables and of what pointers point to. The store gives out cells one
after another and never takes one back, so a cell's number is its identity.

* `Store.alloc`: a new cell.
* `Store.load`, `Store.store`: the content of a cell.
-/

namespace ConstCheck

/-- The contents of the cells, by number. -/
structure Store where
  contents : Array Value := #[]

namespace Store

def empty : Store := {}

/-- A new cell that holds a value. -/
def alloc (s : Store) (v : Value) : Cell × Store := (⟨s.contents.size⟩, ⟨s.contents.push v⟩)

/-- The content of a cell; nil if the store did not give it out. -/
def load (s : Store) (c : Cell) : Value := s.contents[c.index]?.getD .nil

/-- Replaces the content of a cell. -/
def store (s : Store) (c : Cell) (v : Value) : Store := ⟨s.contents.setIfInBounds c.index v⟩

theorem load_alloc_self (s : Store) (v : Value) : (s.alloc v).2.load (s.alloc v).1 = v := by
  simp [alloc, load]

theorem load_alloc_of_lt {s : Store} {c : Cell} (v : Value) (h : c.index < s.contents.size) :
    (s.alloc v).2.load c = s.load c := by
  simp [alloc, load, Array.getElem?_push, Nat.ne_of_lt h]

theorem load_store_self {s : Store} {c : Cell} (v : Value) (h : c.index < s.contents.size) :
    (s.store c v).load c = v := by
  simp [store, load, h]

theorem load_store_of_ne {s : Store} {c d : Cell} (v : Value) (h : c ≠ d) :
    (s.store c v).load d = s.load d := by
  have hi : c.index ≠ d.index := fun e => h (by cases c; cases d; simp_all)
  simp [store, load, hi]

end Store

end ConstCheck
