/-!
# Floating-point values

A value of a binary floating-point type: not a number, an infinity, a signed zero or a nonzero
rational. The positive zero is the rational zero; the negative zero has a constructor of its
own, and a NaN keeps its sign and payload, so that equality of terms is equality bit for bit.

* `FloatValue`: the values.
* `FloatValue.toRat?`: the rational that a finite value denotes.
* `FloatValue.numericEq`: equality as the arithmetic sees it.
-/

namespace ConstCheck

/-- A floating-point value. -/
inductive FloatValue where
  /-- Not a number; the payload is the distance of its word from that of the infinity. -/
  | nan (negative : Bool) (payload : Nat)
  | infinity (negative : Bool)
  | negZero
  | finite (q : Rat)
  deriving DecidableEq

namespace FloatValue

/-- The positive zero. -/
def zero : FloatValue := finite 0

/-- The rational that a finite value denotes; both zeros denote zero. -/
def toRat? : FloatValue → Option Rat
  | nan _ _ | infinity _ => none
  | negZero => some 0
  | finite q => some q

def isFinite (x : FloatValue) : Bool := x.toRat?.isSome

def isInfinite : FloatValue → Bool
  | infinity _ => true
  | nan _ _ | negZero | finite _ => false

def isNaN : FloatValue → Bool
  | nan _ _ => true
  | infinity _ | negZero | finite _ => false

/-- The sign bit, which a NaN has too. -/
def isNegative : FloatValue → Bool
  | nan negative _ => negative
  | infinity negative => negative
  | negZero => true
  | finite q => q < 0

/-- Equality as the arithmetic sees it: the zeros are equal, and NaN differs from itself. -/
def numericEq : FloatValue → FloatValue → Bool
  | nan _ _, _ | _, nan _ _ => false
  | infinity s, infinity t => s == t
  | infinity _, _ | _, infinity _ => false
  | x, y => x.toRat? == y.toRat?

theorem isFinite_iff {x : FloatValue} : x.isFinite ↔ ∃ q, x.toRat? = some q := by
  simp [isFinite, Option.isSome_iff_exists]

end FloatValue

end ConstCheck
