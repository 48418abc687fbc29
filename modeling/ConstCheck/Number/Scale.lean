/-!
# Scaling by a power

`scale m base e` is the rational `m · base ^ e`, for an exponent of either sign. Literals scale
by powers of ten or two, binary floating point by powers of two.
-/

namespace ConstCheck

/-- The rational `m · base ^ e`. -/
def scale (m : Int) (base : Nat) : Int → Rat
  | .ofNat e => ((m * (Nat.pow base e : Int) : Int) : Rat)
  | .negSucc e => mkRat m (Nat.pow base (e + 1))

end ConstCheck
