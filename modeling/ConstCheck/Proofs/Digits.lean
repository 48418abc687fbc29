import Mathlib.Data.Rat.Floor
import ConstCheck.Proofs.Arithmetic

/-!
# Digits of whole numbers

The bitwise operators work on the two's-complement digits of whole numbers, which have no end: those
of a negative number are ones from some place on. Digits that do not meet are added without a carry,
and this ties the bitwise operators to the sum.

* `Number.digit`: a digit, by shifting right.
* `Bits.add_eq_of_digits`: integers whose digits do not meet are added by joining the digits.
* `Bits.and_add_andNot`, `Bits.xor_add_and`, `Bits.or_add_and`: integers as sums of what they have
  in common and what they have not.
* `bitwise_operators` (all whole numbers): **what the bitwise operators yield**, digit by digit and
  in sums.
-/

namespace ConstCheck

/-! ## Digits of integers -/

namespace Bits

variable {x y z : ℤ}

/-- A digit is the parity of the integer shifted right. -/
theorem bit_eq (x : ℤ) (i : ℕ) : bit x i = decide (x / 2 ^ i % 2 = 1) := by
  cases x with
  | ofNat m =>
    rw [bit, Nat.testBit_eq_decide_div_mod_eq, decide_eq_decide, Int.ofNat_eq_natCast]
    norm_cast
  | negSucc m =>
    -- the quotient is rounded down, so that its complement is the quotient of the complement
    have hdiv : Int.negSucc m / 2 ^ i = -((m / 2 ^ i : ℕ) + 1) := by
      rw [Int.negSucc_ediv m (by positivity)]
      norm_cast
    rw [bit, Nat.testBit_eq_decide_div_mod_eq, hdiv, ← decide_not, decide_eq_decide]
    omega

/-- **Digits that do not meet are added without a carry.** -/
theorem add_eq_of_digits (hz : ∀ i, bit z i = (bit x i || bit y i))
    (hxy : ∀ i, (bit x i && bit y i) = false) : x + y = z := by
  -- a word that holds all of the integers
  let k := size x + size y
  have hx : size x < 2 ^ k := lt_of_le_of_lt (Nat.le_add_right _ _) Nat.lt_two_pow_self
  have hy : size y < 2 ^ k := lt_of_le_of_lt (Nat.le_add_left _ _) Nat.lt_two_pow_self
  have hle : (2 : ℕ) ^ k ≤ 2 ^ (k + 1) := Nat.pow_le_pow_right two_pos k.le_succ
  have hin : InWord true (k + 2) z :=
    inWord_of_digits rfl hz (inWord_signed.2 (hx.trans_le hle)) (inWord_signed.2 (hy.trans_le hle))
  have hsum : InWord true (k + 2) (x + y) := by
    rw [size_lt_iff] at hx hy
    rw [inWord_signed, size_lt_iff]
    simp only [Nat.add_one_sub_one, pow_succ]
    omega
  have hmeet : BitVec.ofInt (k + 2) x &&& BitVec.ofInt (k + 2) y = 0 := by
    refine BitVec.eq_of_getLsbD_eq fun i hi => ?_
    simp only [BitVec.getLsbD_and, getLsbD_ofInt, hi, decide_true, Bool.true_and, hxy]
    simp
  have hjoin : BitVec.ofInt (k + 2) z = BitVec.ofInt (k + 2) x ||| BitVec.ofInt (k + 2) y :=
    BitVec.eq_of_getLsbD_eq fun i hi => by rw [word_of_digits hz hi, BitVec.getLsbD_or]
  rw [← (word_order (by omega) hsum hin).1, hjoin, BitVec.ofInt_add,
    BitVec.add_eq_or_of_and_eq_zero _ _ hmeet]

/-- An integer is the sum of what it has in common with another and of the rest. -/
theorem and_add_andNot (x y : ℤ) : and x y + andNot x y = x := by
  refine add_eq_of_digits (fun i => ?_) fun i => ?_ <;> simp only [bit_and, bit_andNot] <;>
    cases bit x i <;> cases bit y i <;> rfl

/-- What either of two integers has is what one of them has, and what both have. -/
theorem xor_add_and (x y : ℤ) : xor x y + and x y = or x y := by
  refine add_eq_of_digits (fun i => ?_) fun i => ?_ <;> simp only [bit_xor, bit_and, bit_or] <;>
    cases bit x i <;> cases bit y i <;> rfl

/-- What either of two integers has is what the first has, and what only the second has. -/
theorem add_andNot (x y : ℤ) : x + andNot y x = or x y := by
  refine add_eq_of_digits (fun i => ?_) fun i => ?_ <;> simp only [bit_andNot, bit_or] <;>
    cases bit x i <;> cases bit y i <;> rfl

/-- **A sum counts twice what its terms have in common.** -/
theorem or_add_and (x y : ℤ) : or x y + and x y = x + y := by
  have hy := and_add_andNot y x
  rw [Bits.and_comm y x] at hy
  rw [← add_andNot]
  omega

end Bits

/-! ## Digits of numbers -/

namespace Number

/-- Digit `i` of the two's-complement form: whether the number, shifted right by `i` places, is
odd. -/
def digit (n : Number) (i : ℕ) : Bool := ⌊n.re / 2 ^ i⌋ % 2 = 1

theorem digit_whole (z : ℤ) (k : NumKind) (i : ℕ) : (whole z k).digit i = Bits.bit z i := by
  have hfloor : ⌊(z : ℚ) / 2 ^ i⌋ = z / 2 ^ i := by
    exact_mod_cast Rat.floor_intCast_div_natCast z (2 ^ i)
  rw [Bits.bit_eq, digit, whole, hfloor]

end Number

open Number

/-- A whole number whose digits combine those of two others, under the higher of their kinds. -/
structure Digitwise (f : Bool → Bool → Bool) (x y z : Number) : Prop where
  whole : z.isWhole
  kind : z.kind = max x.kind y.kind
  digit : ∀ i, z.digit i = f (x.digit i) (y.digit i)

theorem digitwise_whole {f : Bool → Bool → Bool} {i j z : ℤ}
    (hz : ∀ p, Bits.bit z p = f (Bits.bit i p) (Bits.bit j p)) (k l : NumKind) :
    Digitwise f (whole i k) (whole j l) (whole z (k.join l)) where
  whole := isWhole_whole _ _
  kind := NumKind.join_eq_max k l
  digit p := by rw [digit_whole, digit_whole, digit_whole, hz]

/-- **The bitwise operators combine the digits of whole numbers**, of any size and sign: those that
both have, either has, one of them has, and only the first has.

So the first number is what both have and what only it has; what either has is what one of them has
and what both have; and what both have counts twice in the sum of the two. -/
theorem bitwise_operators {x y : Number} (hx : x.WellKinded) (hy : y.WellKinded)
    (hxk : x.kind.isIntegral) (hyk : y.kind.isIntegral) :
    ∃ both either one only : Number,
      Operator.and.onNumbers x y = .ok (.number both) ∧ Digitwise (· && ·) x y both ∧
      Operator.or.onNumbers x y = .ok (.number either) ∧ Digitwise (· || ·) x y either ∧
      Operator.xor.onNumbers x y = .ok (.number one) ∧ Digitwise (· != ·) x y one ∧
      Operator.andNot.onNumbers x y = .ok (.number only) ∧
      Digitwise (fun p q => p && !q) x y only ∧
      both + only = x.raise y.kind ∧ one + both = either ∧ either + both = x + y := by
  obtain ⟨i, k, hk, rfl⟩ := hx.eq_whole hxk
  obtain ⟨j, l, hl, rfl⟩ := hy.eq_whole hyk
  have bitwise : ∀ {op : Operator}, op.isArithmetic → op.isDivision = false →
      op.onNumbers (whole i k) (whole j l) = .ok (.number (whole (op.exact i j) (k.join l))) :=
    fun hop hdiv => Operator.onNumbers_whole hop (by simp [hdiv]) hk hl
  refine ⟨_, _, _, _, bitwise rfl rfl, ?_, bitwise rfl rfl, ?_, bitwise rfl rfl, ?_,
    bitwise rfl rfl, ?_, ?_, ?_, ?_⟩ <;>
    simp only [Operator.exact, ← Bits.and_eq_land, ← Bits.or_eq_lor, ← Bits.xor_eq_xor,
      ← Bits.andNot_eq_ldiff]
  · exact digitwise_whole (Bits.bit_and i j) k l
  · exact digitwise_whole (Bits.bit_or i j) k l
  · exact digitwise_whole (Bits.bit_xor i j) k l
  · exact digitwise_whole (f := fun p q => p && !q) (Bits.bit_andNot i j) k l
  · rw [add_whole, Bits.and_add_andNot, NumKind.join_self, NumKind.join_eq_max]
    rfl
  · rw [add_whole, Bits.xor_add_and, NumKind.join_self]
  · rw [add_whole, Bits.or_add_and, NumKind.join_self, add_whole]

/-- Minus six and ten: digits without end on the left, and a kind on the right. -/
theorem bitwise_operators_negative :
    (whole (-6) .int).WellKinded ∧ (whole 10 .rune).WellKinded ∧
    Operator.andNot.onNumbers (whole (-6) .int) (whole 10 .rune) =
      .ok (.number (whole (-16) .rune)) ∧
    Digitwise (fun p q => p && !q) (whole (-6) .int) (whole 10 .rune) (whole (-16) .rune) ∧
    ∃ both, Operator.and.onNumbers (whole (-6) .int) (whole 10 .rune) = .ok (.number both) ∧
      both + whole (-16) .rune = whole (-6) .rune := by
  have hx : (whole (-6) .int).WellKinded := wellKinded_of_isWhole (isWhole_whole _ _)
  have hy : (whole 10 .rune).WellKinded := wellKinded_of_isWhole (isWhole_whole _ _)
  have honly : Operator.andNot.onNumbers (whole (-6) .int) (whole 10 .rune) =
      .ok (.number (whole (-16) .rune)) := Operator.onNumbers_whole rfl (by decide) rfl rfl
  obtain ⟨both, _, _, only, hboth, -, -, -, -, -, honly', hdigits, hsum, -⟩ :=
    bitwise_operators hx hy rfl rfl
  cases honly.symm.trans honly'
  exact ⟨hx, hy, honly, hdigits, both, hboth, hsum⟩

end ConstCheck
