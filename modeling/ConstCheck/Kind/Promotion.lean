import ConstCheck.Kind.Basic

/-!
# Promotion of two kinds

The kind at which two untyped constants combine. Numbers combine at the higher kind and equal
kinds at themselves. All else is a mismatch, which names the operands that do not fit and the
kind each was measured against.

* `Kind.promote`: the common kind, or the list of misfits.
* `Kind.promoteNumeric`: the same for two numbers, undefined (an error) on any other pair.
-/

namespace ConstCheck

/-- A side of a binary operation. -/
inductive Side where
  | left
  | right
  deriving DecidableEq

/-- An operand whose kind does not convert to the kind that the other operand asks for. -/
structure Misfit where
  side : Side
  kind : Kind
  wanted : Kind
  deriving DecidableEq

namespace Kind

/-- The common kind of two operands.

A number wants the other side to be of its own kind. Against a number a string or nil is the
misfit, a bool wants the number to be a bool. Between nil and bool, nil is the misfit: as the
left operand it is measured against `int`, as the right one against `bool`. An unrelated pair
has two misfits, both measured against `int`. -/
def promote : Kind → Kind → Except (List Misfit) Kind
  | number a, number b => .ok (number (a.join b))
  | string, string => .ok string
  | bool, bool => .ok bool
  | nil, nil => .ok nil
  | number a, b => .error [⟨.right, b, number a⟩]
  | string, number b => .error [⟨.left, string, number b⟩]
  | nil, number b => .error [⟨.left, nil, number b⟩]
  | nil, bool => .error [⟨.left, nil, number .int⟩]
  | bool, number b => .error [⟨.right, number b, bool⟩]
  | bool, nil => .error [⟨.right, nil, bool⟩]
  | a, b => .error [⟨.left, a, number .int⟩, ⟨.right, b, number .int⟩]

/-- Name of a kind in a fault report. -/
def label : Kind → String
  | number .int => "Int"
  | number .rune => "Rune"
  | number .float => "Float"
  | number .complex => "Complex"
  | string => "String"
  | bool => "Bool"
  | nil => "Nil"

/-- A pair of kinds that has no numeric join. -/
structure NotNumeric where
  left : Kind
  right : Kind
  deriving DecidableEq

def NotNumeric.message (e : NotNumeric) : String :=
  s!"promote_numeric called with non-numeric kinds {e.left.label} and {e.right.label}"

/-- The higher of two numeric kinds. -/
def promoteNumeric : Kind → Kind → Except NotNumeric NumKind
  | number a, number b => .ok (a.join b)
  | a, b => .error ⟨a, b⟩

theorem promote_self (k : Kind) : promote k k = .ok k := by
  cases k <;> simp [promote]

end Kind

end ConstCheck
