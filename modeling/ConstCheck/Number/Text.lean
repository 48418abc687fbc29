import ConstCheck.Decimal.Shortest
import ConstCheck.Number.Basic

/-!
# Text of exact numbers

A part that is whole is written in full; any other part is written as its nearest binary64 value,
which may be an infinity. A number that is not on the real axis, or of kind `complex`, is written
as the sum of its parts in parentheses, the sign of the imaginary part between them.

* `Number.partText`: one part.
* `Number.text`: the number.
-/

namespace ConstCheck.Number

/-- The text of one part. -/
def partText (q : Rat) : String :=
  if q.den = 1 then toString q.num else (Format.binary64.round q).text

def text (n : Number) : String :=
  if n.kind ≠ .complex ∧ n.im = 0 then partText n.re
  else
    let sign := if n.im < 0 then "-" else "+"
    "(" ++ partText n.re ++ sign ++ partText n.im.abs ++ "i)"

end ConstCheck.Number
