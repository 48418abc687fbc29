import ConstCheck.Constant
import ConstCheck.Expr.Operator
import ConstCheck.Number.Arithmetic

/-!
# Operators on exact constants

What an operator yields on two numbers, two strings or two bools, and on which types it is defined
at all. Results are exact and untyped; a caller that wants a typed result narrows them.

* `Operator.onNumbers`, `Operator.onStrings`, `Operator.onBools`: the evaluators.
* `Operator.definedOn`: the operators that a type has.
-/

namespace ConstCheck

/-- Why an operator has no result. -/
inductive OpError where
  /-- A quotient or remainder by zero. -/
  | divideByZero
  | undefined
  /-- An integral quotient whose divisor is not zero but truncates to zero. -/
  | fault
  deriving DecidableEq

namespace Operator

/-- A bitwise operation or remainder, which integral operands have. -/
def onIntegral (f : Number → Number → Number) (x y : Number) : Except OpError UntypedConst :=
  if x.kind.isIntegral && y.kind.isIntegral then .ok (.number (f x y)) else .error .undefined

/-- An operator on two numbers. A zero divisor is found before the kinds are looked at. -/
def onNumbers (op : Operator) (x y : Number) : Except OpError UntypedConst :=
  match op with
  | add => .ok (.number (x + y))
  | sub => .ok (.number (x - y))
  | mul => .ok (.number (x * y))
  | quo =>
    if y.isZero then .error .divideByZero
    else
      match x.quo? y with
      | some q => .ok (.number q)
      | none => .error .fault
  | rem => if y.isZero then .error .divideByZero else onIntegral .rem x y
  | and => onIntegral .and x y
  | or => onIntegral .or x y
  | xor => onIntegral .xor x y
  | andNot => onIntegral .andNot x y
  | eq => .ok (.bool (x.sameValue y))
  | ne => .ok (.bool (!x.sameValue y))
  | lt | le | gt | ge =>
    if x.kind.isReal && y.kind.isReal then .ok (.bool (op.holds (x.compareReal y)))
    else .error .undefined
  | logicalAnd | logicalOr => .error .undefined

/-- An operator on two strings: concatenation, and comparison by code points, which is also the
order of the UTF-8 bytes. -/
def onStrings (op : Operator) (x y : String) : Except OpError UntypedConst :=
  match op with
  | add => .ok (.string (x ++ y))
  | eq | ne | lt | le | gt | ge => .ok (.bool (op.holds (compare x y)))
  | _ => .error .undefined

/-- An operator on two bools. -/
def onBools (op : Operator) (x y : Bool) : Except OpError UntypedConst :=
  match op with
  | eq => .ok (.bool (x == y))
  | ne => .ok (.bool (x != y))
  | logicalAnd => .ok (.bool (x && y))
  | logicalOr => .ok (.bool (x || y))
  | _ => .error .undefined

/-- Whether an operator is defined on the values of a type. -/
def definedOn (op : Operator) (ty : Ty) : Bool :=
  match op with
  | add => ty.isNumeric || ty.category == .string
  | sub | mul | quo => ty.isNumeric
  | rem | and | or | xor | andNot => ty.isIntegral
  | eq | ne => ty.isNumeric || ty.category == .string || ty.category == .bool
  | lt | le | gt | ge => ty.isOrdered
  | logicalAnd | logicalOr => ty.category == .bool

end Operator

end ConstCheck
