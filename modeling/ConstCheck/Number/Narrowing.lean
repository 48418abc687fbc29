import ConstCheck.Number.Basic
import ConstCheck.Number.Bits
import ConstCheck.Floating.Rounding

/-!
# Narrowing exact numbers to machine widths

An exact number fits a machine type with two kinds of loss: the fraction (or precision) that is
dropped, and the range that is exceeded. Narrowing always yields a value, truncated toward zero
and wrapped to the width, and reports the two losses apart.

* `Narrowed`: a value and the two flags.
* `Number.lowDigits`, `Number.signedDigits`: the digits that an integer width keeps, and how a
  signed integer reads them.
* `Number.toSigned`, `Number.toUnsigned`: integers of a width from 1 to 64 bits.
* `Number.toFloat`: a binary floating-point format.
* `Number.toComplex`: both parts, each rounded; losses are not reported.
* `Number.ofFloat?`: the way back, from a finite value.
-/

namespace ConstCheck

/-- A narrowed value, with the losses on the way. -/
structure Narrowed (α : Type) where
  value : α
  truncated : Bool
  overflowed : Bool
  deriving DecidableEq

/-- A width brought into the range from 1 to 64 bits. -/
def clampWidth (bits : Nat) : Nat := max 1 (min bits 64)

/-- How many integers a width has. -/
def modulus (bits : Nat) : Nat := Nat.pow 2 (clampWidth bits)

/-- How many of them are not negative, if the width is that of signed integers. -/
def halfModulus (bits : Nat) : Nat := Nat.pow 2 (clampWidth bits - 1)

/-- An integer as a signed one of the greatest width; none beyond its range. -/
def int64? (i : Int) : Option Int :=
  if -(halfModulus 64 : Int) ≤ i ∧ i < halfModulus 64 then some i else none

/-- An integer as an unsigned one of the greatest width; none beyond its range. -/
def uint64? (i : Int) : Option Nat := if 0 ≤ i ∧ i < modulus 64 then some i.toNat else none

namespace Number

/-- The lowest digits of the truncated value, as many as the width has. -/
def lowDigits (n : Number) (bits : Nat) : Int := Bits.and n.truncated (modulus bits - 1)

/-- The lowest digits as a signed integer, in which the topmost digit counts negative. -/
def signedDigits (n : Number) (bits : Nat) : Int :=
  if n.lowDigits bits < halfModulus bits then n.lowDigits bits
  else n.lowDigits bits - modulus bits

/-- The signed integer of a width with the lowest digits of the truncated value. Zero would stand
for digits that no machine integer has; there are none. -/
def toSigned (n : Number) (bits : Nat) : Narrowed Int where
  value := (int64? (n.signedDigits bits)).getD 0
  truncated := !n.isWhole
  overflowed := n.truncated < -(halfModulus bits : Int) || (halfModulus bits : Int) ≤ n.truncated

/-- The unsigned integer of a width with the lowest digits of the truncated value. -/
def toUnsigned (n : Number) (bits : Nat) : Narrowed Nat where
  value := (uint64? (n.lowDigits bits)).getD 0
  truncated := !n.isWhole
  overflowed := n.truncated < 0 || (modulus bits : Int) ≤ n.truncated

/-- The nearest value of a format to the real part. A result that differs from the number is
truncated, unless it is an infinity. -/
def toFloat (fmt : Format) (n : Number) : Narrowed FloatValue :=
  let value := fmt.round n.re
  let overflowed := value.isInfinite
  { value, overflowed
    truncated := !overflowed && (value.toRat? != some n.re || !n.isRealValued) }

/-- Both parts, each rounded to the format. -/
def toComplex (fmt : Format) (n : Number) : FloatValue × FloatValue :=
  (fmt.round n.re, fmt.round n.im)

/-- The exact value of a finite float. -/
def ofFloat? (x : FloatValue) : Option Number := x.toRat?.map ofRat

/-- The exact value of a pair of finite floats. -/
def ofComplex? (re im : FloatValue) : Option Number := do
  return ofParts (← re.toRat?) (← im.toRat?)

end Number

end ConstCheck
