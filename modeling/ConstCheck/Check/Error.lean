import ConstCheck.Check.Builtin
import ConstCheck.Diagnostic.Basic
import ConstCheck.Expr.Operator

/-!
# Errors of the checker

An error is a cause at a place in the source. The cause carries the values and types concerned;
code, wording, label and advice follow from it. Errors are collected and none of them stops the
check.

* `ErrorKind`: the causes.
* `ErrorKind.code`, `ErrorKind.message`: code and wording.
* `CheckError.diagnostic`: an error ready to be shown.
-/

namespace ConstCheck

/-- What a constant is to be converted to: a kind or a type. -/
inductive Target where
  | kind (k : Kind)
  | ty (t : Ty)
  deriving DecidableEq

def Target.text : Target → String
  | kind k => k.text
  | ty t => t.text

/-- The cause of an error. -/
inductive ErrorKind where
  /-- An operator that is not defined on its operands. -/
  | undefinedOperation (op : Operator) (left right : KnownType)
  /-- An untyped constant that cannot take a kind or type. -/
  | badConversion (c : UntypedConst) (target : Target)
  | divideByZero
  /-- A fraction or precision that narrowing drops; the kind tells which. -/
  | truncated (n : Number) (target : NumKind)
  /-- A range that narrowing exceeds. -/
  | overflowed (n : Number) (target : Ty)
  | undefinedIdentifier (name : String)
  | invalidLiteral (kind : NumKind) (text : String)
  | notCallable (callee : String)
  | wrongArgumentCount (callee : String) (expected found : Nat)
  /-- A builtin's argument that is not one value. -/
  | valuelessArgument (builtin : Builtin) (arg : String)
  | builtin (e : BuiltinError)
  /-- An explicit conversion between types that have none. -/
  | invalidConversion (value : String) (source target : Ty)
  /-- A state that the checker does not reach. -/
  | internal
  /-- A quotient of integers whose divisor is no integer and truncates to zero. Its kind does not
  tell the truth. The division stops the check, so the code is of no error that is written. -/
  | arithmeticFault

namespace ErrorKind

def code : ErrorKind → ErrorCode
  | undefinedOperation _ _ _ => .undefinedOperation
  | badConversion _ _ => .badConversion
  | divideByZero => .divideByZero
  | truncated _ _ => .truncated
  | overflowed _ _ => .overflowed
  | undefinedIdentifier _ => .undefinedIdentifier
  | invalidLiteral _ _ => .invalidLiteral
  | notCallable _ => .notCallable
  | wrongArgumentCount _ _ _ => .wrongArgumentCount
  | builtin (.badComplexArguments _ _) => .badComplexArguments
  | builtin (.badArgument _ _) | valuelessArgument _ _ => .badBuiltinArgument
  | builtin _ => .builtinFailed
  | invalidConversion _ _ _ => .invalidConversion
  | internal => .internal
  | arithmeticFault => .fault

/-- What is lost by a truncation to a kind. -/
def truncationText (kind : NumKind) : String := if kind.isIntegral then "integer" else "float"

/-- A number that exceeds a type: its whole part for an integer type. -/
def overflowText (n : Number) (ty : Ty) : String :=
  if ty.isIntegral then toString n.truncated else n.text

def message : ErrorKind → String
  | undefinedOperation op left right =>
    s!"invalid operation: operator {op.symbol} not defined on {left.text} and {right.text}"
  | badConversion c target =>
    s!"cannot convert {c.text} (untyped {c.kind.text} constant) to {target.text}"
  | divideByZero => "division by zero"
  | truncated n kind => s!"constant {n.text} truncated to {truncationText kind}"
  | overflowed n ty => s!"constant {overflowText n ty} overflows {ty.text}"
  | undefinedIdentifier name => s!"{name} undefined"
  | invalidLiteral kind text => s!"malformed {kind.text} literal {text}"
  | notCallable callee => s!"cannot call non-function {callee}"
  | wrongArgumentCount callee expected found =>
    s!"wrong number of arguments in call to {callee}: have {found}, want {expected}"
  | valuelessArgument b arg => BuiltinError.badArgumentMessage b arg
  | builtin e => e.message
  | invalidConversion value source target =>
    s!"cannot convert {value} (type {source.text}) to type {target.text}"
  | internal => "internal error: unreachable checker state at <location>"
  | arithmeticFault => "attempt to divide by zero"

/-- The text beside the carets. -/
def labelText : ErrorKind → String
  | undefinedOperation _ _ _ => "operator not defined here"
  | badConversion _ target => s!"expected {target.text}"
  | divideByZero => "divisor is zero"
  | truncated _ kind =>
    if kind.isIntegral then "not an integer" else "not exactly representable as a float"
  | overflowed _ ty => s!"does not fit in {ty.text}"
  | undefinedIdentifier _ => "not found in this scope"
  | invalidLiteral _ _ => "malformed literal"
  | notCallable _ => "not a function"
  | wrongArgumentCount _ expected _ =>
    if expected = 1 then "expected 1 argument" else s!"expected {expected} arguments"
  | builtin (.badComplexArguments _ _) => "arguments must be floats of the same type"
  | builtin _ | valuelessArgument _ _ => "in this call"
  | invalidConversion _ _ target => s!"not convertible to {target.text}"
  | internal => "while checking this expression"
  | arithmeticFault => "while dividing integers"

def notes : ErrorKind → List String
  | truncated _ kind =>
    if kind.isIntegral then ["the result keeps the value truncated toward zero"]
    else ["the result keeps the nearest representable value"]
  | overflowed _ _ => ["the result keeps the wrapped value"]
  | internal => ["this is a bug in the checker, not in the expression"]
  | _ => []

def suggestions : ErrorKind → List String
  | undefinedIdentifier name => [s!"check spelling, or declare \x60{name}\x60"]
  | wrongArgumentCount _ expected found =>
    if expected < found then ["remove extra arguments"] else ["add missing arguments"]
  | builtin (.badComplexArguments _ _) =>
    ["convert both arguments to float64 or both to float32"]
  | _ => []

end ErrorKind

/-- A cause at a place in the source. -/
structure CheckError where
  span : Span
  kind : ErrorKind

namespace CheckError

def code (e : CheckError) : ErrorCode := e.kind.code

def message (e : CheckError) : String := e.kind.message

/-- An error as a diagnostic, labelled at its place. -/
def diagnostic (e : CheckError) : Diagnostic where
  code := e.code
  message := e.message
  labels := [⟨e.span, e.kind.labelText⟩]
  notes := e.kind.notes
  suggestions := e.kind.suggestions

end CheckError

end ConstCheck
