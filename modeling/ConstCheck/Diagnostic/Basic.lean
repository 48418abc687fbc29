import ConstCheck.Diagnostic.Code
import ConstCheck.Expr.Span

/-!
# Diagnostics

What is shown of an error: its code and message, labels on pieces of the source, notes, and
suggestions.
-/

namespace ConstCheck

/-- A remark on a piece of the source. -/
structure Label where
  span : Span
  message : String
  deriving DecidableEq

/-- An error ready to be shown. -/
structure Diagnostic where
  code : ErrorCode
  message : String := ""
  labels : List Label := []
  notes : List String := []
  suggestions : List String := []
  deriving DecidableEq

/-- The first line of a diagnostic. -/
def Diagnostic.headline (d : Diagnostic) : String := s!"error[{d.code.text}]: {d.message}"

end ConstCheck
