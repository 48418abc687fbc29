import ConstCheck.Kind.Basic

/-!
# Exact numbers

A numeric constant is a complex number with rational parts, of any size, tagged with the
numeric kind it currently stands for. The kind is only a tag: nothing forces a number of kind
`int` to be whole. `WellKinded` is the invariant that constants written in an expression have.

* `Number`: the parts and the kind.
* `Number.sameValue`: equality of the parts, whatever the kinds.
* `Number.truncated`: the real part without its fraction.
* `Number.WellKinded`: the kind tells the truth about the parts.
-/

namespace ConstCheck

/-- An exact complex number and its kind. -/
structure Number where
  re : Rat
  im : Rat
  kind : NumKind
  deriving DecidableEq

namespace Number

/-- Zero of a numeric kind. -/
def zero (kind : NumKind) : Number := ⟨0, 0, kind⟩

/-- Zero of any kind; of kind `int` where the kind is not numeric. -/
def zeroOf (kind : Kind) : Number := zero (kind.number?.getD .int)

def ofInt (i : Int) : Number := ⟨i, 0, .int⟩

/-- A character stands for its code point. -/
def ofRune (c : Char) : Number := ⟨c.toNat, 0, .rune⟩

def ofRat (q : Rat) : Number := ⟨q, 0, .float⟩

def ofParts (re im : Rat) : Number := ⟨re, im, .complex⟩

/-- A number on the imaginary axis. -/
def imaginary (im : Rat) : Number := ofParts 0 im

/-- The same value under another kind; a kind that is not numeric changes nothing. -/
def withKind (n : Number) (kind : Kind) : Number := { n with kind := kind.number?.getD n.kind }

/-- Equality of values; `2` of kind `int` and `2` of kind `float` are the same. -/
def sameValue (a b : Number) : Bool := a.re == b.re && a.im == b.im

def isZero (n : Number) : Bool := n.re == 0 && n.im == 0

/-- The imaginary part is zero. -/
def isRealValued (n : Number) : Bool := n.im == 0

/-- A whole number with no imaginary part. -/
def isWhole (n : Number) : Bool := n.im == 0 && n.re.den == 1

/-- The real part as a number of kind `float`. -/
def realPart (n : Number) : Number := ofRat n.re

/-- The imaginary part as a number of kind `float`. -/
def imagPart (n : Number) : Number := ofRat n.im

/-- The real part without its fraction, toward zero. -/
def truncated (n : Number) : Int := n.re.num.tdiv n.re.den

/-- The kind tells the truth: integral kinds are whole numbers, real kinds lie on the real
axis. -/
def WellKinded (n : Number) : Prop :=
  (n.kind.isIntegral → n.isWhole) ∧ (n.kind.isReal → n.isRealValued)

instance (n : Number) : Decidable n.WellKinded :=
  inferInstanceAs (Decidable (_ ∧ _))

/-- A tag with the kind that a number has by now changes nothing. -/
theorem withKind_eq_self {n : Number} {k : NumKind} (h : n.kind = k) :
    n.withKind (.number k) = n := by
  rw [← h]
  rfl

theorem sameValue_iff {a b : Number} : a.sameValue b ↔ a.re = b.re ∧ a.im = b.im := by
  simp [sameValue]

theorem isZero_iff {n : Number} : n.isZero ↔ n.re = 0 ∧ n.im = 0 := by
  simp [isZero]

@[simp]
theorem truncated_ofInt (i : Int) : (ofInt i).truncated = i := by
  simp [truncated, ofInt]

theorem wellKinded_ofInt (i : Int) : (ofInt i).WellKinded := by
  simp [WellKinded, ofInt, isWhole, isRealValued]

end Number

end ConstCheck
