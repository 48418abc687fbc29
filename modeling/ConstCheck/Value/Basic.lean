import ConstCheck.Expr.Name
import ConstCheck.Floating.Basic
import ConstCheck.Number.Narrowing
import ConstCheck.Ty.Basic
import ConstCheck.Value.Slice

/-!
# Values

What a variable or a typed constant holds. A value does not know its type, and need not fit the
type it is paired with.

* `Cell`, `Value`: storage cells by number; values.
* `Value.same`: equality as the language sees it, floats by `FloatValue.numericEq`.
* `Value.zero`: the zero value of a type.
* `TypedValue.number?`: the exact number that a numeric value denotes.
-/

namespace ConstCheck

/-- A storage cell. -/
structure Cell where
  index : Nat
  deriving DecidableEq

/-- A value. -/
inductive Value where
  | int (i : Int)
  | uint (n : Nat)
  | float (x : FloatValue)
  | complex (re im : FloatValue)
  | str (s : String)
  | bool (b : Bool)
  | nil
  | slice (elems : List Value) (cap : Nat)
  | array (elems : List Value)
  | map (entries : List (Value × Value))
  /-- A pointer to a cell. -/
  | pointer (cell : Cell)
  | func (name : Name)
  | package (name : Name)

namespace Value

def ofSlice (s : Slice Value) : Value := slice s.elems s.cap

mutual

/-- Equality of values. Floats are compared as numbers, pointers by the cell they point to. -/
def same : Value → Value → Bool
  | int i, int j => i == j
  | uint m, uint n => m == n
  | float x, float y => x.numericEq y
  | complex a b, complex c d => a.numericEq c && b.numericEq d
  | str s, str t => s == t
  | bool a, bool b => a == b
  | nil, nil => true
  | slice xs m, slice ys n => sameList xs ys && m == n
  | array xs, array ys => sameList xs ys
  | map xs, map ys => sameEntries xs ys
  | pointer c, pointer d => c == d
  | func m, func n => m == n
  | package m, package n => m == n
  | _, _ => false

def sameList : List Value → List Value → Bool
  | [], [] => true
  | x :: xs, y :: ys => same x y && sameList xs ys
  | _, _ => false

def sameEntries : List (Value × Value) → List (Value × Value) → Bool
  | [], [] => true
  | (k, x) :: xs, (l, y) :: ys => same k l && same x y && sameEntries xs ys
  | _, _ => false

end

/-- The zero value of a type. -/
def zero : Ty → Value
  | .basic b =>
    match b.category with
    | .signed => int 0
    | .unsigned => uint 0
    | .float => float .zero
    | .complex => complex .zero .zero
    | .string => str ""
    | .bool => bool false
    | _ => nil
  | .array length elem => array (.replicate length (zero elem))
  | .declared _ body => zero body
  | _ => nil

end Value

/-- A value with its type. -/
structure TypedValue where
  ty : Ty
  value : Value

namespace TypedValue

/-- The zero value of a type, with the type. -/
def zero (ty : Ty) : TypedValue := ⟨ty, .zero ty⟩

def int? (v : TypedValue) : Option Int :=
  match v.value with
  | .int i => some i
  | _ => none

def uint? (v : TypedValue) : Option Nat :=
  match v.value with
  | .uint n => some n
  | _ => none

def float? (v : TypedValue) : Option FloatValue :=
  match v.value with
  | .float x => some x
  | _ => none

def complex? (v : TypedValue) : Option (FloatValue × FloatValue) :=
  match v.value with
  | .complex re im => some (re, im)
  | _ => none

def str? (v : TypedValue) : Option String :=
  match v.value with
  | .str s => some s
  | _ => none

def bool? (v : TypedValue) : Option Bool :=
  match v.value with
  | .bool b => some b
  | _ => none

/-- The exact number that a numeric value denotes, of the kind of its family; none for other
values and where a float is not finite. -/
def number? (v : TypedValue) : Option Number :=
  match v.value with
  | .int i => some (.ofInt i)
  | .uint n => some (.ofInt n)
  | .float x => Number.ofFloat? x
  | .complex re im => Number.ofComplex? re im
  | _ => none

@[simp]
theorem ty_zero (ty : Ty) : (zero ty).ty = ty := rfl

end TypedValue

end ConstCheck
