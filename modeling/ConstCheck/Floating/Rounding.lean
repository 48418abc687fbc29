import ConstCheck.Floating.Basic
import ConstCheck.Number.Scale

/-!
# Rounding to a binary format

A binary format has the values `m · 2 ^ e` with `m < 2 ^ precision` and
`minExp ≤ e ≤ maxExp`. A rational rounds to the nearest of them, a tie to the even `m`. The
grid near a rational `q` has the spacing of its binade, never finer than `2 ^ minExp`; rounding
on that grid is one integer division, so there is no second rounding. What rounds beyond the
largest value is an infinity, what rounds to zero keeps its sign.

* `Format`: the three parameters; `binary32` and `binary64`.
* `roundDiv`: a quotient of naturals, to the nearest integer.
* `Format.gridExp`: exponent of the grid near a rational.
* `Format.roundingExp`: the same exponent, found from the lengths of numerator and denominator.
* `Format.round`: the rounded value.
* `Format.Representable`: the rationals that a format holds.
-/

namespace ConstCheck

/-- A binary floating-point format. -/
structure Format where
  precision : Nat
  minExp : Int
  maxExp : Int

namespace Format

def binary32 : Format := ⟨24, -149, 104⟩

def binary64 : Format := ⟨53, -1074, 971⟩

/-- The rationals `m · 2 ^ e` with `|m|` and `e` in the range of the format. -/
def Representable (fmt : Format) (q : Rat) : Prop :=
  ∃ (m e : Int), m.natAbs < Nat.pow 2 fmt.precision ∧ fmt.minExp ≤ e ∧ e ≤ fmt.maxExp ∧
    q = scale m 2 e

end Format

/-- The quotient `num / den` to the nearest integer, a tie to the even one. -/
def roundDiv (num den : Nat) : Nat :=
  let q := num / den
  let twice := 2 * (num % den)
  if den < twice ∨ (twice = den ∧ q % 2 = 1) then q + 1 else q

/-- The rational `(num / den) / 2 ^ e` as a quotient of naturals. -/
def shiftedQuotient (num den : Nat) : Int → Nat × Nat
  | .ofNat e => (num, den * Nat.pow 2 e)
  | .negSucc e => (num * Nat.pow 2 (e + 1), den)

/-- How many binary digits a natural number has. -/
def bitLength (n : Nat) : Nat := if n = 0 then 0 else n.log2 + 1

/-- The exponent `b` with `2 ^ b ≤ num / den < 2 ^ (b + 1)`, for positive operands. The
difference of the binary lengths is `b` or `b + 1`. -/
def binade (num den : Nat) : Int :=
  let guess : Int := (num.log2 : Int) - (den.log2 : Int)
  let (n, d) := shiftedQuotient num den guess
  if d ≤ n then guess else guess - 1

namespace Format

/-- Exponent of the grid of the format near a positive rational. -/
def gridExp (fmt : Format) (num den : Nat) : Int :=
  max fmt.minExp (binade num den - (fmt.precision - 1))

/-- What the exponent of the grid is at least, by the lengths of numerator and denominator; one too
low where the numerator's leading digits are the greater. -/
def guessExp (fmt : Format) (num den : Nat) : Int :=
  (bitLength num : Int) - (bitLength den : Int) - fmt.precision

/-- Exponent of the grid, from the guess: where the quotient has a digit too many, the next coarser
grid is the right one. -/
def roundingExp (fmt : Format) (num den : Nat) : Int :=
  let guess := max (fmt.guessExp num den) fmt.minExp
  let (n, d) := shiftedQuotient num den guess
  if fmt.precision < bitLength (n / d) then guess + 1 else guess

/-- A significand with a digit too many, as a carry leaves it, on the next coarser grid. -/
def carry (fmt : Format) (m : Nat) (e : Int) : Nat × Int :=
  if fmt.precision < bitLength m then (m / 2, e + 1) else (m, e)

/-- The nearest value of the format, a tie to the even significand. -/
def round (fmt : Format) (q : Rat) : FloatValue :=
  if q = 0 then .zero
  else
    let negative := decide (q < 0)
    if fmt.maxExp < fmt.guessExp q.num.natAbs q.den then .infinity negative
    else
      let grid := fmt.roundingExp q.num.natAbs q.den
      let (n, d) := shiftedQuotient q.num.natAbs q.den grid
      let (m, e) := fmt.carry (roundDiv n d) grid
      if fmt.maxExp < e then .infinity negative
      else if m = 0 then if negative then .negZero else .zero
      else .finite (if negative then -scale m 2 e else scale m 2 e)

end Format

end ConstCheck
