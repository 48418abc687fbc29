/-!
# Binary operators

Arithmetic, bitwise, comparison and logical operators, with their symbols.

* `Operator`: the seventeen operators.
* `Operator.symbol`, `Operator.ofSymbol?`: to and from source text.
* `Operator.isComparison`: the operators whose result is a bool for operands of any type.
-/

namespace ConstCheck

/-- A binary operator. -/
inductive Operator where
  | add
  | sub
  | mul
  | quo
  | rem
  | and
  | or
  | xor
  | andNot
  | eq
  | ne
  | lt
  | le
  | gt
  | ge
  | logicalAnd
  | logicalOr
  deriving DecidableEq

namespace Operator

def all : List Operator :=
  [add, sub, mul, quo, rem, and, or, xor, andNot, eq, ne, lt, le, gt, ge, logicalAnd, logicalOr]

def symbol : Operator → String
  | add => "+"
  | sub => "-"
  | mul => "*"
  | quo => "/"
  | rem => "%"
  | and => "&"
  | or => "|"
  | xor => "^"
  | andNot => "&^"
  | eq => "=="
  | ne => "!="
  | lt => "<"
  | le => "<="
  | gt => ">"
  | ge => ">="
  | logicalAnd => "&&"
  | logicalOr => "||"

def ofSymbol? (s : String) : Option Operator := all.find? (·.symbol == s)

def isEquality : Operator → Bool
  | eq | ne => true
  | _ => false

def isOrdering : Operator → Bool
  | lt | le | gt | ge => true
  | _ => false

def isComparison (op : Operator) : Bool := op.isEquality || op.isOrdering

theorem mem_all (op : Operator) : op ∈ all := by
  cases op <;> decide

/-- Whether a comparison holds of operands in a given order. -/
def holds : Operator → Ordering → Bool
  | eq, c => c.isEq
  | ne, c => c.isNe
  | lt, c => c.isLT
  | le, c => c.isLE
  | gt, c => c.isGT
  | ge, c => c.isGE
  | _, _ => false

end Operator

end ConstCheck
