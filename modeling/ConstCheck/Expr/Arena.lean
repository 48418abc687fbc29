import ConstCheck.Expr.Name
import ConstCheck.Expr.Operator
import ConstCheck.Expr.Span

/-!
# The arena of expressions

Expressions are stored flat and refer to each other by number. A number may point forward, may be
used more than once, and may be of no expression at all. The arguments of all calls stand one
after another in a second list, of which each call holds a range.

* `Leaf`, `Expr`: expressions without children, and all.
* `Arena.alloc?`, `Arena.allocList?`: adding an expression, adding an argument list.
* `Arena.get?`, `Arena.list`: reading them.
-/

namespace ConstCheck

/-- The number of an expression. -/
structure ExprId where
  index : Nat
  deriving DecidableEq

namespace ExprId

/-- The number that no expression has. -/
def invalid : ExprId := ⟨0xFFFFFFFF⟩

def isValid (id : ExprId) : Bool := id != invalid

end ExprId

/-- A range of the argument list. -/
structure ExprRange where
  start : Nat
  length : Nat
  deriving DecidableEq

namespace ExprRange

def empty : ExprRange := ⟨0, 0⟩

def isEmpty (r : ExprRange) : Bool := r.length == 0

end ExprRange

/-- An expression without children. Numeric literals keep their spelling. -/
inductive Leaf where
  | int (text : Name)
  | float (text : Name)
  | imag (text : Name)
  | rune (c : Char)
  | string (text : Name)
  | ident (name : Name)
  deriving DecidableEq

/-- The form of an expression. -/
inductive ExprKind where
  | leaf (leaf : Leaf)
  | paren (inner : ExprId)
  | binary (op : Operator) (left right : ExprId)
  | call (func : ExprId) (args : ExprRange)
  deriving DecidableEq

/-- An expression and its place in the source. -/
structure Expr where
  kind : ExprKind
  span : Span
  deriving DecidableEq

/-- All expressions of one input, and the arguments of all its calls. -/
structure Arena where
  exprs : Array Expr := #[]
  args : Array ExprId := #[]

namespace Arena

def empty : Arena := {}

/-- The largest number of an expression. -/
def maxIndex : Nat := 0xFFFFFFFF

/-- No number is left for another expression. -/
structure Full where
  deriving DecidableEq

def Full.message (_ : Full) : String := "expression arena exceeded u32::MAX entries"

/-- Adds an expression. -/
def alloc? (a : Arena) (e : Expr) : Except Full (ExprId × Arena) :=
  let index := a.exprs.size
  if maxIndex < index then .error {}
  else .ok (⟨index⟩, { a with exprs := a.exprs.push e })

/-- The largest number of arguments of a call. -/
def maxListLength : Nat := 0xFFFF

/-- The largest offset at which the arguments of a call start. -/
def maxListStart : Nat := 0xFFFFFFFF

/-- An argument list that is too long, or starts too late. -/
structure ListTooLarge where
  length : Nat
  start : Nat

def ListTooLarge.message (e : ListTooLarge) : String :=
  s!"expression list too large: {e.length} entries at offset {e.start}"

/-- Adds an argument list. -/
def allocList? (a : Arena) (ids : List ExprId) : Except ListTooLarge (ExprRange × Arena) :=
  let start := a.args.size
  if maxListLength < ids.length ∨ maxListStart < start then .error ⟨ids.length, start⟩
  else .ok (⟨start, ids.length⟩, { a with args := a.args ++ ids })

/-- The expression of a number, if there is one. -/
def get? (a : Arena) (id : ExprId) : Option Expr := a.exprs[id.index]?

/-- The arguments of a range. -/
def list (a : Arena) (r : ExprRange) : List ExprId :=
  (a.args.extract r.start (r.start + r.length)).toList

end Arena

end ConstCheck
