import ConstCheck.Floating.Rounding

/-!
# Shortest decimals

The decimal that stands for a binary floating-point value: the fewest significant digits that
round back to it, of two such decimals the nearer one, on an exact tie the larger. It is written
positionally, without an exponent.

* `Decimal.shortest`: significand and power of ten.
* `Decimal.positional`: a decimal written out.
* `FloatValue.text`: the text of a binary64 value.
-/

namespace ConstCheck

/-- The decimal `digits · 10 ^ exponent`. -/
structure Decimal where
  digits : Nat
  exponent : Int

namespace Decimal

/-- The exponent `s` with `10 ^ s ≤ q < 10 ^ (s + 1)`, for a positive `q`. -/
def leading (q : Rat) : Int :=
  let length (n : Nat) : Int := n.repr.length
  let num := q.num.natAbs
  if q.den ≤ num then length (num / q.den) - 1
  else
    let below := length (q.den / num)
    if num * Nat.pow 10 (below - 1).toNat = q.den then 1 - below else -below

/-- The decimal of `count` significant digits that rounds to the positive value `q` and lies
nearest to it; of the grid points, only the two neighbours of `q` can be that one. -/
def onGrid? (fmt : Format) (q : Rat) (count : Nat) : Option Decimal :=
  let e := leading q - (count - 1)
  let low := (q * scale 1 10 (-e)).floor.toNat
  let reads (n : Nat) : Bool := fmt.round (scale n 10 e) == .finite q
  let gap (n : Nat) : Rat := (scale n 10 e - q).abs
  match reads low, reads (low + 1) with
  | true, true => some ⟨if gap low < gap (low + 1) then low else low + 1, e⟩
  | true, false => some ⟨low, e⟩
  | false, true => some ⟨low + 1, e⟩
  | false, false => none

/-- The shortest decimal that rounds to the positive value `q`. A format of precision `p` needs
no more than `p` digits. -/
def shortest (fmt : Format) (q : Rat) : Decimal :=
  ((List.range fmt.precision).findSome? fun count => onGrid? fmt q (count + 1)).getD ⟨0, 0⟩

/-- A decimal without an exponent. Zeros at the end of a fraction are left out. -/
def positional (d : Decimal) : String :=
  let digits := d.digits.repr.toList
  match d.exponent with
  | .ofNat zeros => .ofList (digits ++ .replicate zeros '0')
  | .negSucc n =>
    let places := n + 1
    let padded := .replicate (places + 1 - digits.length) '0' ++ digits
    let whole := padded.take (padded.length - places)
    let fraction := padded.drop (padded.length - places)
    let fraction := (fraction.reverse.dropWhile (· == '0')).reverse
    .ofList (if fraction.isEmpty then whole else whole ++ '.' :: fraction)

end Decimal

/-- The text of a binary64 value. -/
def FloatValue.text : FloatValue → String
  | nan _ _ => "NaN"
  | infinity negative => if negative then "-inf" else "inf"
  | negZero => "-0"
  | finite q =>
    if q = 0 then "0"
    else if q < 0 then "-" ++ (Decimal.shortest .binary64 (-q)).positional
    else (Decimal.shortest .binary64 q).positional

end ConstCheck
