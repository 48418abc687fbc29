import ConstCheck.Floating.Rounding

/-!
# Interchange encoding

A floating-point value as a word: a sign bit, a biased exponent and the significand without its
leading one. Within the finite values of one sign the words count the values in order, so the
word of `m · 2 ^ e` on its grid is `m` plus one run of `2 ^ (precision - 1)` words for each step
of `e` above the least exponent. The infinity follows the largest finite value, and the words
after it are NaNs.

* `Format.toBits`: the word of a value.
* `Format.ofBits`: the value of a word.
-/

namespace ConstCheck.Format

/-- How many words there are from one binade to the next. -/
def run (fmt : Format) : Nat := Nat.pow 2 (fmt.precision - 1)

/-- The word of the positive infinity, one above the largest finite value. -/
def infinityBits (fmt : Format) : Nat := (fmt.maxExp - fmt.minExp + 2).toNat * fmt.run

/-- The weight of the sign bit. -/
def signBit (fmt : Format) : Nat :=
  Nat.pow 2 ((fmt.maxExp - fmt.minExp + 2).toNat.log2 + fmt.precision)

/-- The word of a positive rational of the format. -/
def magnitudeBits (fmt : Format) (q : Rat) : Nat :=
  let e := fmt.gridExp q.num.natAbs q.den
  let (n, d) := shiftedQuotient q.num.natAbs q.den e
  (e - fmt.minExp).toNat * fmt.run + n / d

/-- The word of a value without its sign bit. -/
def unsignedBits (fmt : Format) : FloatValue → Nat
  | .nan _ payload => fmt.infinityBits + payload
  | .infinity _ => fmt.infinityBits
  | .negZero => 0
  | .finite q => if q = 0 then 0 else fmt.magnitudeBits q

/-- The word of a value. -/
def toBits (fmt : Format) (x : FloatValue) : Nat :=
  (if x.isNegative then fmt.signBit else 0) + fmt.unsignedBits x

/-- The value of a word. -/
def ofBits (fmt : Format) (bits : Nat) : FloatValue :=
  let negative := decide (fmt.signBit ≤ bits)
  let word := bits % fmt.signBit
  if fmt.infinityBits < word then .nan negative (word - fmt.infinityBits)
  else if word = fmt.infinityBits then .infinity negative
  else if word = 0 then if negative then .negZero else .zero
  else
    let step := word / fmt.run - 1
    let size := scale (word - step * fmt.run : Nat) 2 (fmt.minExp + step)
    .finite (if negative then -size else size)

end ConstCheck.Format
