import ConstCheck.Number.Basic
import ConstCheck.Number.Bits

/-!
# Arithmetic on exact numbers

Sums, differences and products are those of complex rationals; nothing is rounded, and the
result has the higher of the two kinds. Quotient and remainder look at the kinds: two integral
operands divide as integers, toward zero.

* `Number.quo?`: the quotient. It is undefined in one case, an integral division whose divisor
  is not zero but truncates to zero, which no well-kinded divisor does.
* `Number.rem`: the remainder of the truncated parts, with the sign of the dividend.
* `Number.and`, `or`, `xor`, `andNot`: bitwise operations on the truncated parts.
-/

namespace ConstCheck.Number

protected def add (a b : Number) : Number :=
  ⟨a.re + b.re, a.im + b.im, a.kind.join b.kind⟩

protected def sub (a b : Number) : Number :=
  ⟨a.re - b.re, a.im - b.im, a.kind.join b.kind⟩

protected def mul (a b : Number) : Number :=
  ⟨a.re * b.re - a.im * b.im, a.re * b.im + a.im * b.re, a.kind.join b.kind⟩

instance : Add Number := ⟨Number.add⟩
instance : Sub Number := ⟨Number.sub⟩
instance : Mul Number := ⟨Number.mul⟩

/-- An operation on the truncated real parts. -/
def integral (op : Int → Int → Int) (a b : Number) : Number :=
  ⟨op a.truncated b.truncated, 0, a.kind.join b.kind⟩

/-- The exact quotient of complex numbers. -/
def exactQuo (a b : Number) : Number :=
  let norm := b.re * b.re + b.im * b.im
  ⟨(a.re * b.re + a.im * b.im) / norm, (a.im * b.re - a.re * b.im) / norm, a.kind.join b.kind⟩

/-- The quotient, zero for a zero divisor. Two integral operands divide as integers, toward
zero; then a divisor that is not zero but truncates to zero has no quotient. -/
def quo? (a b : Number) : Option Number :=
  if b.isZero then some (zero (a.kind.join b.kind))
  else if a.kind.isIntegral && b.kind.isIntegral then
    if b.truncated = 0 then none else some (integral Int.tdiv a b)
  else some (exactQuo a b)

/-- The remainder of the truncated parts, with the sign of the dividend; zero for a divisor
that truncates to zero. -/
def rem (a b : Number) : Number :=
  if b.truncated = 0 then zero (a.kind.join b.kind) else integral Int.tmod a b

def and (a b : Number) : Number := integral Bits.and a b
def or (a b : Number) : Number := integral Bits.or a b
def xor (a b : Number) : Number := integral Bits.xor a b
def andNot (a b : Number) : Number := integral Bits.andNot a b

/-- Order of the real parts. -/
def compareReal (a b : Number) : Ordering :=
  if a.re < b.re then .lt else if b.re < a.re then .gt else .eq

theorem add_re (a b : Number) : (a + b).re = a.re + b.re := rfl
theorem add_im (a b : Number) : (a + b).im = a.im + b.im := rfl
theorem add_kind (a b : Number) : (a + b).kind = a.kind.join b.kind := rfl
theorem sub_re (a b : Number) : (a - b).re = a.re - b.re := rfl
theorem sub_im (a b : Number) : (a - b).im = a.im - b.im := rfl
theorem sub_kind (a b : Number) : (a - b).kind = a.kind.join b.kind := rfl
theorem mul_re (a b : Number) : (a * b).re = a.re * b.re - a.im * b.im := rfl
theorem mul_im (a b : Number) : (a * b).im = a.re * b.im + a.im * b.re := rfl
theorem mul_kind (a b : Number) : (a * b).kind = a.kind.join b.kind := rfl

theorem quo?_kind {a b q : Number} (h : a.quo? b = some q) : q.kind = a.kind.join b.kind := by
  unfold quo? at h
  split at h
  · cases h; rfl
  split at h
  · split at h
    · cases h
    · cases h; rfl
  · cases h; rfl

theorem rem_kind (a b : Number) : (a.rem b).kind = a.kind.join b.kind := by
  unfold rem
  split <;> rfl

end ConstCheck.Number
