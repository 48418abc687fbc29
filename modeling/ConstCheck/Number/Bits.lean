/-!
# Bits of unbounded integers

An integer is read as its two's-complement digits, of which a negative number has ones without
end. The bitwise operations combine two integers digit by digit; each is computed on the
finitely many digits that differ from the sign, `m` for `m ≥ 0` and `-(m+1)` for a negative
number.

* `Bits.bit`: one digit.
* `Bits.and`, `Bits.or`, `Bits.xor`, `Bits.andNot`: the four operations.
-/

namespace ConstCheck.Bits

/-- Digit `i` of the two's-complement form. -/
def bit : Int → Nat → Bool
  | .ofNat m, i => m.testBit i
  | .negSucc m, i => !m.testBit i

/-- The digits of `m` that `n` does not have. -/
def without (m n : Nat) : Nat := m ^^^ (m &&& n)

def and : Int → Int → Int
  | .ofNat m, .ofNat n => .ofNat (m &&& n)
  | .ofNat m, .negSucc n => .ofNat (without m n)
  | .negSucc m, .ofNat n => .ofNat (without n m)
  | .negSucc m, .negSucc n => .negSucc (m ||| n)

def or : Int → Int → Int
  | .ofNat m, .ofNat n => .ofNat (m ||| n)
  | .ofNat m, .negSucc n => .negSucc (without n m)
  | .negSucc m, .ofNat n => .negSucc (without m n)
  | .negSucc m, .negSucc n => .negSucc (m &&& n)

def xor : Int → Int → Int
  | .ofNat m, .ofNat n => .ofNat (m ^^^ n)
  | .ofNat m, .negSucc n => .negSucc (m ^^^ n)
  | .negSucc m, .ofNat n => .negSucc (m ^^^ n)
  | .negSucc m, .negSucc n => .ofNat (m ^^^ n)

/-- The digits of the first number that the second does not have. -/
def andNot : Int → Int → Int
  | .ofNat m, .ofNat n => .ofNat (without m n)
  | .ofNat m, .negSucc n => .ofNat (m &&& n)
  | .negSucc m, .ofNat n => .negSucc (m ||| n)
  | .negSucc m, .negSucc n => .ofNat (without n m)

theorem testBit_without (m n i : Nat) :
    (without m n).testBit i = (m.testBit i && !n.testBit i) := by
  cases hm : m.testBit i <;> simp [without, Nat.testBit_xor, Nat.testBit_and, hm]

theorem bit_and (x y : Int) (i : Nat) : bit (and x y) i = (bit x i && bit y i) := by
  cases x <;> cases y <;>
    simp [bit, and, testBit_without, Nat.testBit_and, Nat.testBit_or, Bool.and_comm]

theorem bit_or (x y : Int) (i : Nat) : bit (or x y) i = (bit x i || bit y i) := by
  cases x <;> cases y <;>
    simp [bit, or, testBit_without, Nat.testBit_and, Nat.testBit_or, Bool.or_comm]

theorem bit_xor (x y : Int) (i : Nat) : bit (xor x y) i = (bit x i != bit y i) := by
  cases x <;> cases y <;> simp [bit, xor, Nat.testBit_xor]

theorem bit_andNot (x y : Int) (i : Nat) : bit (andNot x y) i = (bit x i && !bit y i) := by
  cases x <;> cases y <;>
    simp [bit, andNot, testBit_without, Nat.testBit_and, Nat.testBit_or, Bool.and_comm]

end ConstCheck.Bits
