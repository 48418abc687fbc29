import ConstCheck.Ty.Basic

/-!
# Assignability and convertibility

When a value of one type may stand for a value of another, and when it may be converted. A name
around a type matters for the first: between two types with different names there is no
assignment, however alike they are below.

* `Ty.assignableTo`: a value is used as it is.
* `Ty.convertibleTo`: a conversion written in the source.
-/

namespace ConstCheck.Ty

/-- Whether a value of a type may be used where another is wanted: the types are equal, or any
type is wanted, or they are alike below and at most one has a name. -/
def assignableTo (source target : Ty) : Bool :=
  source == target || target == any ||
    (!(source.isNamed && target.isNamed) && source.underlying == target.underlying)

/-- Whether a value of a type may be converted to another: it is assignable, or the types are
alike below, or both are real, both complex, or both strings. -/
def convertibleTo (source target : Ty) : Bool :=
  source.assignableTo target || source.underlying == target.underlying ||
    (source.isReal && target.isReal) ||
    (source.category == .complex && target.category == .complex) ||
    (source.category == .string && target.category == .string)

@[simp]
theorem assignableTo_self (t : Ty) : t.assignableTo t := by simp [assignableTo]

@[simp]
theorem assignableTo_any (t : Ty) : t.assignableTo any := by simp [assignableTo]

end ConstCheck.Ty
