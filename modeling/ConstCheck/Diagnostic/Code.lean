/-!
# Error codes

Every kind of error has a code, `E` and four digits, the first of which tells errors in the
checked expression (2) from failures of the checker itself (9). A fault of the arithmetic, which
stops a check, has a code of its own that is never written.

* `ErrorCode`: the codes, by what they report.
* `ErrorCode.text`, `ErrorCode.ofText?`: to and from the written code.
* `ErrorCode.isReport`: the codes of errors in the expression.
-/

namespace ConstCheck

/-- The codes of errors. -/
inductive ErrorCode where
  | undefinedOperation
  | badConversion
  | divideByZero
  | truncated
  | overflowed
  | undefinedIdentifier
  | invalidLiteral
  | notCallable
  | wrongArgumentCount
  | badComplexArguments
  | badBuiltinArgument
  | builtinFailed
  | invalidConversion
  | internal
  /-- The arithmetic has stopped the check. -/
  | fault
  deriving DecidableEq

namespace ErrorCode

/-- The codes that are written. -/
def all : List ErrorCode :=
  [undefinedOperation, badConversion, divideByZero, truncated, overflowed, undefinedIdentifier,
    invalidLiteral, notCallable, wrongArgumentCount, badComplexArguments, badBuiltinArgument,
    builtinFailed, invalidConversion, internal]

def text : ErrorCode → String
  | undefinedOperation => "E2001"
  | badConversion => "E2002"
  | divideByZero => "E2003"
  | truncated => "E2004"
  | overflowed => "E2005"
  | undefinedIdentifier => "E2006"
  | invalidLiteral => "E2007"
  | notCallable => "E2008"
  | wrongArgumentCount => "E2009"
  | badComplexArguments => "E2010"
  | badBuiltinArgument => "E2011"
  | builtinFailed => "E2012"
  | invalidConversion => "E2013"
  | internal => "E9001"
  | fault => "fault"

def ofText? (s : String) : Option ErrorCode := all.find? (·.text == s)

def description : ErrorCode → String
  | undefinedOperation => "operator not defined on operand types"
  | badConversion => "constant cannot be converted"
  | divideByZero => "division by zero"
  | truncated => "constant truncated"
  | overflowed => "constant overflows"
  | undefinedIdentifier => "undefined identifier"
  | invalidLiteral => "malformed literal"
  | notCallable => "call of non-function"
  | wrongArgumentCount => "wrong argument count"
  | badComplexArguments => "invalid arguments to complex"
  | badBuiltinArgument => "invalid builtin argument"
  | builtinFailed => "builtin function failed"
  | invalidConversion => "invalid type conversion"
  | internal => "internal checker error"
  | fault => "fault of the arithmetic"

/-- A failure of the checker, not of the expression. -/
def isInternal (c : ErrorCode) : Bool := c == internal

/-- An error in the expression, neither a failure of the checker nor a fault. -/
def isReport (c : ErrorCode) : Bool := c != internal && c != fault

theorem mem_all_iff {c : ErrorCode} : c ∈ all ↔ c ≠ fault := by
  cases c <;> decide

end ErrorCode

end ConstCheck
