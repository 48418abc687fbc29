import Mathlib.Data.Int.Bitwise
import Mathlib.Data.Int.Order.Lemmas
import Mathlib.Tactic.Positivity
import ConstCheck.Expr.Operator
import ConstCheck.Number.Bits

/-!
# Integers and machine words

The binary operators on unbounded integers, and on words as a machine has them. On integers that
a word holds the two agree: the word of the exact result is the machine's result.

* `Operator.exact`, `Operator.machine`, `Operator.machineHolds`: the operations on integers and on
  words, and the comparisons of words.
* `Bits.size_lt_of_digits`: an operation digit by digit stays within the size of its operands.
* `Operator.word_exact`, `Operator.machineHolds_ofInt` (all widths, both readings): **a machine
  computes the words of the exact results**, and compares words as integers.
* `Operator.exact_inWord`, `inWord_tdiv_iff`: which results are always in range.
-/

namespace ConstCheck

namespace Operator

/-- The operators on integers that yield an integer. -/
def isArithmetic : Operator → Bool
  | add | sub | mul | quo | rem | and | or | xor | andNot => true
  | _ => false

/-- The operators with a divisor. -/
def isDivision : Operator → Bool
  | quo | rem => true
  | _ => false

/-- The exact result on unbounded integers; division is toward zero, and a negative integer has ones
without end. -/
def exact (op : Operator) (x y : ℤ) : ℤ :=
  match op with
  | add => x + y
  | sub => x - y
  | mul => x * y
  | quo => x.tdiv y
  | rem => x.tmod y
  | and => x.land y
  | or => x.lor y
  | xor => x.xor y
  | andNot => x.ldiff y
  | _ => 0

/-- What a machine computes on two words, read as signed or unsigned. -/
def machine {w : ℕ} (signed : Bool) (op : Operator) (x y : BitVec w) : BitVec w :=
  match op with
  | add => x + y
  | sub => x - y
  | mul => x * y
  | quo => if signed then x.sdiv y else x.udiv y
  | rem => if signed then x.srem y else x.umod y
  | and => x &&& y
  | or => x ||| y
  | xor => x ^^^ y
  | andNot => x &&& ~~~y
  | _ => 0

/-- How a machine compares two words, read as signed or unsigned. -/
def machineHolds {w : ℕ} (signed : Bool) (op : Operator) (x y : BitVec w) : Bool :=
  match op with
  | eq => x == y
  | ne => x != y
  | lt => if signed then x.slt y else x.ult y
  | le => if signed then x.sle y else x.ule y
  | gt => if signed then y.slt x else y.ult x
  | ge => if signed then y.sle x else y.ule x
  | _ => false

end Operator

/-! ## Digits -/

namespace Bits

theorem without_eq_ldiff (m n : ℕ) : without m n = Nat.ldiff m n := by
  apply Nat.eq_of_testBit_eq
  intro i
  rw [testBit_without, Nat.testBit_ldiff]

theorem and_eq_land (x y : ℤ) : and x y = x.land y := by
  cases x <;> cases y <;> simp [and, Int.land, without_eq_ldiff]

theorem or_eq_lor (x y : ℤ) : or x y = x.lor y := by
  cases x <;> cases y <;> simp [or, Int.lor, without_eq_ldiff]

theorem xor_eq_xor (x y : ℤ) : xor x y = x.xor y := by
  cases x <;> cases y <;> simp [xor, Int.xor]

theorem andNot_eq_ldiff (x y : ℤ) : andNot x y = x.ldiff y := by
  cases x <;> cases y <;> simp [andNot, Int.ldiff, without_eq_ldiff]

/-- How far an integer is from its sign: the natural number whose digits differ from the sign. -/
def size : ℤ → ℕ
  | .ofNat m => m
  | .negSucc m => m

theorem size_lt_iff {k : ℕ} {x : ℤ} : size x < 2 ^ k ↔ -2 ^ k ≤ x ∧ x < 2 ^ k := by
  have hpow : ((2 ^ k : ℕ) : ℤ) = 2 ^ k := by simp
  cases x with
  | ofNat m => simp only [size, Int.ofNat_eq_natCast]; omega
  | negSucc m => simp only [size]; omega

/-- Beyond its size an integer has the digits of its sign. -/
theorem bit_of_size_lt {k i : ℕ} {x : ℤ} (h : size x < 2 ^ k) (hi : k ≤ i) :
    bit x i = decide (x < 0) := by
  have hlt : size x < 2 ^ i := lt_of_lt_of_le h (Nat.pow_le_pow_right two_pos hi)
  cases x with
  | ofNat m =>
    have hbit : m.testBit i = false := Nat.testBit_lt_two_pow hlt
    simp [bit, hbit]
  | negSucc m =>
    have hbit : m.testBit i = false := Nat.testBit_lt_two_pow hlt
    simp [bit, hbit, Int.negSucc_lt_zero]

/-- An integer whose digits are all alike from some place on is no larger than that place, and they
are the digits of its sign. -/
theorem size_lt_of_bit {k : ℕ} {x : ℤ} {b : Bool} (h : ∀ i, k ≤ i → bit x i = b) :
    size x < 2 ^ k ∧ decide (x < 0) = b := by
  -- the digit at `size x` places beyond `k` is that of the sign
  have hsign : decide (x < 0) = b := by
    have hlt : size x < 2 ^ (size x + k) :=
      lt_of_lt_of_le Nat.lt_two_pow_self (Nat.pow_le_pow_right two_pos (Nat.le_add_right _ k))
    rw [← bit_of_size_lt hlt le_rfl]
    exact h _ (Nat.le_add_left k _)
  subst hsign
  refine ⟨Nat.lt_pow_two_of_testBit _ fun i hi => ?_, rfl⟩
  have hbit := h i hi
  cases x with
  | ofNat m =>
    have hneg : ¬Int.ofNat m < 0 := not_lt.2 (Int.natCast_nonneg m)
    simpa only [bit, size, hneg, decide_false] using hbit
  | negSucc m => simpa [bit, size, Int.negSucc_lt_zero] using hbit

/-- **An operation digit by digit stays within the size of its operands**, and its sign is the
operation on the signs. -/
theorem size_lt_of_digits {k : ℕ} {x y z : ℤ} {f : Bool → Bool → Bool}
    (hz : ∀ i, bit z i = f (bit x i) (bit y i)) (hx : size x < 2 ^ k) (hy : size y < 2 ^ k) :
    size z < 2 ^ k ∧ decide (z < 0) = f (decide (x < 0)) (decide (y < 0)) := by
  refine size_lt_of_bit fun i hi => ?_
  rw [hz, bit_of_size_lt hx hi, bit_of_size_lt hy hi]

/-- The digits of a word are the lowest digits of the integer. -/
theorem getLsbD_ofInt (w : ℕ) (x : ℤ) (i : ℕ) :
    (BitVec.ofInt w x).getLsbD i = (decide (i < w) && bit x i) := by
  cases x with
  | ofNat m => simp [bit, BitVec.getLsbD_ofNat]
  | negSucc m =>
    rw [BitVec.ofInt_negSucc_eq_not_ofNat, BitVec.getLsbD_not, BitVec.getLsbD_ofNat]
    cases decide (i < w) <;> simp [bit]

/-- **The lowest digits of an integer are those of its word.** -/
theorem and_two_pow_sub_one (w : ℕ) (x : ℤ) : and x (2 ^ w - 1) = (BitVec.ofInt w x).toNat := by
  have hmask : (2 ^ w - 1 : ℤ) = ((2 ^ w - 1 : ℕ) : ℤ) := by
    rw [Nat.cast_sub Nat.one_le_two_pow]; simp
  have hnonneg : ∃ m : ℕ, and x ((2 ^ w - 1 : ℕ) : ℤ) = m := by
    cases x with
    | ofNat m => exact ⟨_, rfl⟩
    | negSucc m => exact ⟨_, rfl⟩
  rw [hmask]
  obtain ⟨m, hm⟩ := hnonneg
  rw [hm, Nat.cast_inj]
  -- digit by digit, the mask keeps the lowest `w`
  refine Nat.eq_of_testBit_eq fun i => ?_
  have hbit : m.testBit i = (bit x i && bit ((2 ^ w - 1 : ℕ) : ℤ) i) := by
    rw [← bit_and, hm]; rfl
  have hones : bit ((2 ^ w - 1 : ℕ) : ℤ) i = decide (i < w) := Nat.testBit_two_pow_sub_one w i
  rw [hbit, hones, BitVec.testBit_toNat, getLsbD_ofInt, Bool.and_comm]

end Bits

/-! ## Words -/

/-- The integers that a word holds, read as signed or unsigned. -/
def InWord (signed : Bool) (w : ℕ) (x : ℤ) : Prop :=
  if signed then -2 ^ (w - 1) ≤ x ∧ x < 2 ^ (w - 1) else 0 ≤ x ∧ x < 2 ^ w

instance (signed : Bool) (w : ℕ) (x : ℤ) : Decidable (InWord signed w x) :=
  inferInstanceAs (Decidable (if signed then _ else _))

section

variable {w : ℕ} {x y z : ℤ} {signed : Bool}

theorem inWord_signed : InWord true w x ↔ Bits.size x < 2 ^ (w - 1) := by
  rw [Bits.size_lt_iff]; rfl

theorem inWord_unsigned : InWord false w x ↔ 0 ≤ x ∧ Bits.size x < 2 ^ w := by
  have hpos : (0 : ℤ) < 2 ^ w := by positivity
  rw [Bits.size_lt_iff]
  show 0 ≤ x ∧ x < 2 ^ w ↔ _
  omega

theorem exists_nat_of_inWord (h : InWord false w x) : ∃ n : ℕ, x = n ∧ n < 2 ^ w := by
  obtain ⟨hpos, hlt⟩ : 0 ≤ x ∧ x < 2 ^ w := h
  obtain ⟨n, rfl⟩ := Int.eq_ofNat_of_zero_le hpos
  exact ⟨n, rfl, by exact_mod_cast hlt⟩

theorem inWord_natCast {n : ℕ} (h : n < 2 ^ w) : InWord false w n :=
  ⟨n.cast_nonneg, by exact_mod_cast h⟩

/-- An operation digit by digit that keeps zeros stays in the range of a word. -/
theorem inWord_of_digits {f : Bool → Bool → Bool} (hf : f false false = false)
    (hz : ∀ i, Bits.bit z i = f (Bits.bit x i) (Bits.bit y i)) (hx : InWord signed w x)
    (hy : InWord signed w y) : InWord signed w z := by
  cases signed with
  | true =>
    rw [inWord_signed] at hx hy ⊢
    exact (Bits.size_lt_of_digits hz hx hy).1
  | false =>
    rw [inWord_unsigned] at hx hy ⊢
    obtain ⟨hlt, hsign⟩ := Bits.size_lt_of_digits hz hx.2 hy.2
    rw [decide_eq_false (not_lt.2 hx.1), decide_eq_false (not_lt.2 hy.1), hf] at hsign
    exact ⟨not_lt.1 (of_decide_eq_false hsign), hlt⟩

theorem inWord_tmod (hx : InWord signed w x) (y : ℤ) : InWord signed w (x.tmod y) := by
  -- a remainder is no larger than the dividend, and lies on its side of zero
  have habs : (x.tmod y).natAbs ≤ x.natAbs := by
    rw [Int.natAbs_tmod]; exact Nat.mod_le _ _
  have hpos : 0 ≤ x → 0 ≤ x.tmod y := fun h => Int.tmod_nonneg y h
  have hneg : x ≤ 0 → x.tmod y ≤ 0 := by
    intro h
    have := Int.tmod_nonneg y (neg_nonneg.2 h)
    rw [Int.neg_tmod] at this
    omega
  cases signed with
  | true =>
    obtain ⟨h1, h2⟩ : -2 ^ (w - 1) ≤ x ∧ x < 2 ^ (w - 1) := hx
    show -2 ^ (w - 1) ≤ x.tmod y ∧ x.tmod y < 2 ^ (w - 1)
    omega
  | false =>
    obtain ⟨h1, h2⟩ : 0 ≤ x ∧ x < 2 ^ w := hx
    show 0 ≤ x.tmod y ∧ x.tmod y < 2 ^ w
    omega

/-- A signed quotient is out of range in one case only. -/
theorem inWord_tdiv_iff (hx : InWord true w x) :
    InWord true w (x.tdiv y) ↔ ¬(x = -2 ^ (w - 1) ∧ y = -1) := by
  have hpow : (0 : ℤ) < 2 ^ (w - 1) := by positivity
  obtain ⟨h1, h2⟩ : -2 ^ (w - 1) ≤ x ∧ x < 2 ^ (w - 1) := hx
  have habs : (x.tdiv y).natAbs = x.natAbs / y.natAbs := Int.natAbs_tdiv x y
  constructor
  · rintro hin ⟨rfl, rfl⟩
    have hlt : (-2 ^ (w - 1) : ℤ).tdiv (-1) < 2 ^ (w - 1) := hin.2
    simp at hlt
  · intro hne
    show -2 ^ (w - 1) ≤ x.tdiv y ∧ x.tdiv y < 2 ^ (w - 1)
    -- the quotient is smaller than the dividend unless the divisor is a unit
    rcases lt_trichotomy y.natAbs 1 with hy | hy | hy
    · have : y = 0 := by omega
      subst this
      rw [Int.tdiv_zero]; omega
    · rcases Int.natAbs_eq_iff.1 hy with rfl | rfl
      · simpa using ⟨h1, h2⟩
      · have hx' : x ≠ -2 ^ (w - 1) := fun h => hne ⟨h, rfl⟩
        simp only [Nat.cast_one, Int.tdiv_neg, Int.tdiv_one]
        omega
    · have hle : x.natAbs / y.natAbs ≤ x.natAbs / 2 := Nat.div_le_div_left hy two_pos
      omega

/-- The word of an operation digit by digit. -/
theorem word_of_digits {f : Bool → Bool → Bool}
    (hz : ∀ i, Bits.bit z i = f (Bits.bit x i) (Bits.bit y i)) {i : ℕ} (hi : i < w) :
    (BitVec.ofInt w z).getLsbD i =
      f ((BitVec.ofInt w x).getLsbD i) ((BitVec.ofInt w y).getLsbD i) := by
  simp only [Bits.getLsbD_ofInt, hi, decide_true, Bool.true_and, hz]

theorem toInt_of_inWord (hw : 1 ≤ w) (h : InWord true w x) : (BitVec.ofInt w x).toInt = x :=
  BitVec.toInt_ofInt_eq_self hw h.1 h.2

/-- Words are equal and ordered as the integers they hold. -/
theorem word_order {signed : Bool} {w : ℕ} {x y : ℤ} (hw : 1 ≤ w) (hx : InWord signed w x)
    (hy : InWord signed w y) :
    (BitVec.ofInt w x = BitVec.ofInt w y ↔ x = y) ∧
    (if signed then (BitVec.ofInt w x).slt (BitVec.ofInt w y)
      else (BitVec.ofInt w x).ult (BitVec.ofInt w y)) = decide (x < y) ∧
    (if signed then (BitVec.ofInt w x).sle (BitVec.ofInt w y)
      else (BitVec.ofInt w x).ule (BitVec.ofInt w y)) = decide (x ≤ y) := by
  cases signed with
  | true =>
    have ex := toInt_of_inWord hw hx
    have ey := toInt_of_inWord hw hy
    refine ⟨⟨fun h => ?_, fun h => by rw [h]⟩, ?_, ?_⟩
    · rw [← ex, h, ey]
    · simp only [if_true, BitVec.slt_eq_decide, ex, ey]
    · simp only [if_true, BitVec.sle_eq_decide, ex, ey]
  | false =>
    obtain ⟨m, rfl, hm⟩ := exists_nat_of_inWord hx
    obtain ⟨n, rfl, hn⟩ := exists_nat_of_inWord hy
    have em : (BitVec.ofNat w m).toNat = m := by simp [Nat.mod_eq_of_lt hm]
    have en : (BitVec.ofNat w n).toNat = n := by simp [Nat.mod_eq_of_lt hn]
    simp only [BitVec.ofInt_natCast, Nat.cast_inj, Nat.cast_lt, Nat.cast_le]
    refine ⟨⟨fun h => ?_, fun h => by rw [h]⟩, ?_, ?_⟩
    · rw [← em, h, en]
    · rw [if_neg Bool.false_ne_true, BitVec.ult_eq_decide, em, en]
    · rw [if_neg Bool.false_ne_true, BitVec.ule_eq_decide, em, en]

namespace Operator

variable {op : Operator}

/-- The signed quotient and remainder are those of the words. -/
theorem word_division_signed (hw : 1 ≤ w) (hx : InWord true w x) (hy : InWord true w y) :
    BitVec.ofInt w (x.tdiv y) = (BitVec.ofInt w x).sdiv (BitVec.ofInt w y) ∧
      BitVec.ofInt w (x.tmod y) = (BitVec.ofInt w x).srem (BitVec.ofInt w y) := by
  -- the one quotient out of range wraps on both sides alike
  constructor
  · apply BitVec.eq_of_toInt_eq
    rw [BitVec.toInt_ofInt, BitVec.toInt_sdiv, toInt_of_inWord hw hx, toInt_of_inWord hw hy]
  · apply BitVec.eq_of_toInt_eq
    rw [BitVec.toInt_srem, toInt_of_inWord hw hx, toInt_of_inWord hw hy,
      toInt_of_inWord hw (inWord_tmod hx y)]

/-- The unsigned quotient and remainder are those of the words. -/
theorem word_division_unsigned (hx : InWord false w x) (hy : InWord false w y) :
    BitVec.ofInt w (x.tdiv y) = (BitVec.ofInt w x).udiv (BitVec.ofInt w y) ∧
      BitVec.ofInt w (x.tmod y) = (BitVec.ofInt w x).umod (BitVec.ofInt w y) := by
  obtain ⟨m, rfl, hm⟩ := exists_nat_of_inWord hx
  obtain ⟨n, rfl, hn⟩ := exists_nat_of_inWord hy
  have hquo : (m : ℤ).tdiv n = (m / n : ℕ) := (Int.ofNat_tdiv m n).symm
  have hrem : (m : ℤ).tmod n = (m % n : ℕ) := (Int.ofNat_tmod m n).symm
  rw [hquo, hrem]
  simp only [BitVec.ofInt_natCast]
  constructor
  · apply BitVec.eq_of_toNat_eq
    have hlt : m / n < 2 ^ w := lt_of_le_of_lt (Nat.div_le_self m n) hm
    simp [Nat.mod_eq_of_lt, hm, hn, hlt]
  · apply BitVec.eq_of_toNat_eq
    have hlt : m % n < 2 ^ w := lt_of_le_of_lt (Nat.mod_le m n) hm
    simp [Nat.mod_eq_of_lt, hm, hn, hlt]

/-- **The word of the exact result is the machine's result** on the words of the operands. -/
theorem word_exact (hop : op.isArithmetic) (hw : 1 ≤ w) (hx : InWord signed w x)
    (hy : InWord signed w y) :
    BitVec.ofInt w (op.exact x y) = op.machine signed (BitVec.ofInt w x) (BitVec.ofInt w y) := by
  -- sums and products pass to words anyhow, the others do for operands in range
  cases op with
  | add => exact BitVec.ofInt_add x y
  | sub =>
    show BitVec.ofInt w (x - y) = BitVec.ofInt w x - BitVec.ofInt w y
    rw [sub_eq_add_neg, BitVec.ofInt_add, BitVec.ofInt_neg, BitVec.sub_eq_add_neg]
  | mul => exact BitVec.ofInt_mul x y
  | quo =>
    cases signed with
    | true => exact (word_division_signed hw hx hy).1
    | false => exact (word_division_unsigned hx hy).1
  | rem =>
    cases signed with
    | true => exact (word_division_signed hw hx hy).2
    | false => exact (word_division_unsigned hx hy).2
  | and =>
    refine BitVec.eq_of_getLsbD_eq fun i hi => ?_
    rw [exact, ← Bits.and_eq_land, word_of_digits (Bits.bit_and x y) hi]
    simp [machine]
  | or =>
    refine BitVec.eq_of_getLsbD_eq fun i hi => ?_
    rw [exact, ← Bits.or_eq_lor, word_of_digits (Bits.bit_or x y) hi]
    simp [machine]
  | xor =>
    refine BitVec.eq_of_getLsbD_eq fun i hi => ?_
    rw [exact, ← Bits.xor_eq_xor, word_of_digits (Bits.bit_xor x y) hi]
    simp [machine]
  | andNot =>
    refine BitVec.eq_of_getLsbD_eq fun i hi => ?_
    rw [exact, ← Bits.andNot_eq_ldiff,
      word_of_digits (f := fun a b => a && !b) (Bits.bit_andNot x y) hi]
    simp [machine, hi]
  | _ => simp [isArithmetic] at hop

/-- The operations that never leave the range of their operands. -/
def staysInRange (signed : Bool) : Operator → Bool
  | rem | and | or | xor | andNot => true
  | quo => !signed
  | _ => false

/-- **Remainders, bitwise operations and unsigned quotients stay in range.** -/
theorem exact_inWord (hop : op.staysInRange signed) (hx : InWord signed w x)
    (hy : InWord signed w y) : InWord signed w (op.exact x y) := by
  cases op with
  | quo =>
    have hs : signed = false := by simpa [staysInRange] using hop
    subst hs
    obtain ⟨m, rfl, hm⟩ := exists_nat_of_inWord hx
    obtain ⟨n, rfl, -⟩ := exists_nat_of_inWord hy
    have hquo : (m : ℤ).tdiv n = (m / n : ℕ) := (Int.ofNat_tdiv m n).symm
    rw [exact, hquo]
    exact inWord_natCast (lt_of_le_of_lt (Nat.div_le_self m n) hm)
  | rem => exact inWord_tmod hx y
  | and =>
    rw [exact, ← Bits.and_eq_land]
    exact inWord_of_digits rfl (Bits.bit_and x y) hx hy
  | or =>
    rw [exact, ← Bits.or_eq_lor]
    exact inWord_of_digits rfl (Bits.bit_or x y) hx hy
  | xor =>
    rw [exact, ← Bits.xor_eq_xor]
    exact inWord_of_digits rfl (Bits.bit_xor x y) hx hy
  | andNot =>
    rw [exact, ← Bits.andNot_eq_ldiff]
    exact inWord_of_digits (f := fun a b => a && !b) rfl (Bits.bit_andNot x y) hx hy
  | _ => simp [staysInRange] at hop

/-- **Words compare as the integers they hold.** -/
theorem machineHolds_ofInt {signed : Bool} {w : ℕ} (hop : op.isComparison) (hw : 1 ≤ w)
    (hx : InWord signed w x) (hy : InWord signed w y) :
    op.machineHolds signed (BitVec.ofInt w x) (BitVec.ofInt w y) = op.holds (compare x y) := by
  obtain ⟨heq, hlt, hle⟩ := word_order hw hx hy
  -- `gt` and `ge` are `lt` and `le` with the words swapped
  obtain ⟨-, hgt, hge⟩ := word_order hw hy hx
  have hbeq : (BitVec.ofInt w x == BitVec.ofInt w y) = decide (x = y) := by
    rw [← decide_eq_decide.2 heq]; rfl
  rcases lt_trichotomy x y with h | h | h
  · rw [compare_lt_iff_lt.2 h]
    have hne : x ≠ y := h.ne
    have hnot : ¬y < x := h.not_gt
    cases op <;>
      simp_all [machineHolds, bne, holds, isComparison, isEquality, isOrdering, h.le]
  · subst h
    rw [compare_eq_iff_eq.2 rfl]
    cases op <;> simp_all [machineHolds, bne, holds, isComparison, isEquality, isOrdering]
  · rw [compare_gt_iff_gt.2 h]
    have hne : x ≠ y := h.ne'
    have hnot : ¬x < y := h.not_gt
    cases op <;>
      simp_all [machineHolds, bne, holds, isComparison, isEquality, isOrdering, h.le]

end Operator

end

end ConstCheck
