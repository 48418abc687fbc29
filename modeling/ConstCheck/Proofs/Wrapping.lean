import Mathlib.Data.Int.ModEq
import ConstCheck.Proofs.WellKinded

/-!
# Wrapping to integer widths

An integer type keeps the lowest digits of a number, and digits are all that it keeps: the wrapped
value is the one integer of the width that is congruent to the number without its fraction. So a
number may be wrapped in steps, through wider integers of either sign.

* `inWord_unique`: the integers of a width are the words.
* `Number.word_toSigned`, `Number.word_toUnsigned`: wrapping keeps the word.
* `Number.narrow_again`: what is congruent on a wider word wraps alike.
* `integer_narrowing` (every number and width): **what wrapping yields and reports**.
-/

namespace ConstCheck

section

variable {w w' : ℕ} {x y : ℤ} {signed : Bool}

/-- Integers are congruent as their words are equal. -/
theorem word_eq_iff : BitVec.ofInt w x = BitVec.ofInt w y ↔ x ≡ y [ZMOD 2 ^ w] := by
  have hpos : (0 : ℤ) < 2 ^ w := by positivity
  have hx := Int.emod_nonneg x hpos.ne'
  have hy := Int.emod_nonneg y hpos.ne'
  rw [← BitVec.toNat_inj, BitVec.toNat_ofInt, BitVec.toNat_ofInt, Int.ModEq]
  push_cast
  omega

/-- **There is one integer of a width for each word.** -/
theorem inWord_unique (hw : 1 ≤ w) (hx : InWord signed w x) (hy : InWord signed w y) :
    x = y ↔ x ≡ y [ZMOD 2 ^ w] := by
  rw [← word_eq_iff]
  exact (word_order hw hx hy).1.symm

/-- What is congruent on a word is congruent on a shorter one. -/
theorem modEq_of_le (h : w ≤ w') (hxy : x ≡ y [ZMOD 2 ^ w']) : x ≡ y [ZMOD 2 ^ w] :=
  hxy.of_dvd (pow_dvd_pow 2 h)

end

namespace Number

variable {n : Number} {bits wide : ℕ}

/-- The whole part of the real part, computed by a quotient. -/
theorem truncated_eq (n : Number) : n.truncated = truncate n.re := by
  have hre : n.re = (n.re.num : ℚ) / (n.re.den : ℤ) := by
    rw [Int.cast_natCast, Rat.num_div_den]
  rw [hre, truncate_div, truncated]

/-- The test for a whole number: the denominator is one. -/
theorem isWhole_iff_exists : n.isWhole ↔ ∃ i : ℤ, n.re = i ∧ n.im = 0 := by
  rw [isWhole_iff, and_comm]
  constructor
  · rintro ⟨hden, him⟩
    exact ⟨n.re.num, (Rat.coe_int_num_of_den_eq_one hden).symm, him⟩
  · rintro ⟨i, hre, him⟩
    exact ⟨by rw [hre]; exact Rat.den_intCast i, him⟩

/-- **Wrapping keeps the word.** -/
theorem word_toSigned (n : Number) (bits : ℕ) :
    (n.toSigned bits).value ≡ n.truncated [ZMOD 2 ^ clampWidth bits] := by
  rw [← word_eq_iff, toSigned_eq_toInt, BitVec.ofInt_toInt]

theorem word_toUnsigned (n : Number) (bits : ℕ) :
    ((n.toUnsigned bits).value : ℤ) ≡ n.truncated [ZMOD 2 ^ clampWidth bits] := by
  rw [← word_eq_iff, toUnsigned_eq_toNat, BitVec.ofInt_natCast, BitVec.ofNat_toNat,
    BitVec.setWidth_eq]

/-- **What is congruent on a wider word wraps alike.** -/
theorem narrow_again (hle : clampWidth bits ≤ clampWidth wide) {z : ℤ}
    (hz : z ≡ n.truncated [ZMOD 2 ^ clampWidth wide]) :
    ((ofInt z).toSigned bits).value = (n.toSigned bits).value ∧
      ((ofInt z).toUnsigned bits).value = (n.toUnsigned bits).value := by
  have hword := word_eq_iff.2 (modEq_of_le hle hz)
  simp only [toSigned_eq_toInt, toUnsigned_eq_toNat, truncated_ofInt, hword, and_self]

end Number

/-- **What wrapping to a width yields and reports**, whatever the width is asked to be: it counts as
the nearest one from 1 to 64.

The value is the one integer of the width, signed or not, that is congruent to the number without
its fraction. It overflows if it is another integer than that, it is truncated if the number is no
integer, and these do not depend on each other. The digits that the width keeps always are a machine
integer of 64 bits. Wrapping to a wider width first changes nothing, be that signed or not. -/
theorem integer_narrowing (n : Number) (bits : ℕ) :
    (∀ i : ℤ, (n.toSigned bits).value = i ↔
      (-2 ^ (clampWidth bits - 1) ≤ i ∧ i < 2 ^ (clampWidth bits - 1)) ∧
        i ≡ truncate n.re [ZMOD 2 ^ clampWidth bits]) ∧
    (∀ i : ℕ, (n.toUnsigned bits).value = i ↔
      i < 2 ^ clampWidth bits ∧ (i : ℤ) ≡ truncate n.re [ZMOD 2 ^ clampWidth bits]) ∧
    ((n.toSigned bits).overflowed ↔ (n.toSigned bits).value ≠ truncate n.re) ∧
    ((n.toUnsigned bits).overflowed ↔ ((n.toUnsigned bits).value : ℤ) ≠ truncate n.re) ∧
    ((n.toSigned bits).truncated ↔ ¬∃ i : ℤ, n.re = i ∧ n.im = 0) ∧
    ((n.toUnsigned bits).truncated ↔ ¬∃ i : ℤ, n.re = i ∧ n.im = 0) ∧
    int64? (n.signedDigits bits) = some (n.toSigned bits).value ∧
    uint64? (n.lowDigits bits) = some (n.toUnsigned bits).value ∧
    ∀ wide, clampWidth bits ≤ clampWidth wide →
      ((Number.ofInt (n.toSigned wide).value).toSigned bits).value = (n.toSigned bits).value ∧
      ((Number.ofInt (n.toSigned wide).value).toUnsigned bits).value =
        (n.toUnsigned bits).value ∧
      ((Number.ofInt (n.toUnsigned wide).value).toSigned bits).value = (n.toSigned bits).value ∧
      ((Number.ofInt (n.toUnsigned wide).value).toUnsigned bits).value =
        (n.toUnsigned bits).value := by
  have hw := (clampWidth_bounds bits).1
  have hsigned := n.toSigned_inWord bits
  have hunsigned := n.toUnsigned_inWord bits
  have hcongr := n.word_toSigned bits
  have hcongr' := n.word_toUnsigned bits
  rw [Number.truncated_eq] at hcongr hcongr'
  refine ⟨fun i => ⟨?_, ?_⟩, fun i => ⟨?_, ?_⟩, ?_, ?_, ?_, ?_, ?_, ?_, fun wide hle => ?_⟩
  · rintro rfl
    exact ⟨hsigned, hcongr⟩
  · rintro ⟨hin, hi⟩
    exact (inWord_unique hw hsigned hin).2 (hcongr.trans hi.symm)
  · rintro rfl
    exact ⟨by exact_mod_cast hunsigned.2, hcongr'⟩
  · rintro ⟨hlt, hi⟩
    exact_mod_cast (inWord_unique hw hunsigned (inWord_natCast hlt)).2 (hcongr'.trans hi.symm)
  · rw [← Number.truncated_eq, ne_eq, Number.toSigned_value_eq_iff, Bool.not_eq_false]
  · rw [← Number.truncated_eq, ne_eq, Number.toUnsigned_value_eq_iff, Bool.not_eq_false]
  · rw [← Number.isWhole_iff_exists]
    simp [Number.toSigned]
  · rw [← Number.isWhole_iff_exists]
    simp [Number.toUnsigned]
  · rw [Number.int64?_signedDigits, Number.signedDigits_eq, Number.toSigned_eq_toInt]
  · rw [Number.uint64?_lowDigits, Number.toUnsigned_eq_toNat]
  · obtain ⟨h1, h2⟩ := Number.narrow_again hle (n.word_toSigned wide)
    obtain ⟨h3, h4⟩ := Number.narrow_again hle (n.word_toUnsigned wide)
    exact ⟨h1, h2, h3, h4⟩

/-- Minus 300.5 is cut to -300, which eight bits hold as -44 or 212; through sixteen unsigned bits
it takes the way over 65236. -/
theorem integer_narrowing_negative : ∃ n : Number, n.re = -601 / 2 ∧
    (n.toSigned 8).value = -44 ∧ (n.toUnsigned 8).value = 212 ∧ (n.toSigned 8).overflowed ∧
    (n.toSigned 8).truncated ∧ (n.toUnsigned 16).value = 65236 ∧
    ((Number.ofInt (n.toUnsigned 16).value).toSigned 8).value = -44 := by
  refine ⟨⟨-601 / 2, 0, .float⟩, rfl, ?_⟩
  obtain ⟨hsigned, hunsigned, hover, -, htrunc, -, -, -, hagain⟩ :=
    integer_narrowing ⟨-601 / 2, 0, .float⟩ 8
  obtain ⟨-, -, hwide, -⟩ := hagain 16 (by decide)
  have htruncate : truncate (-601 / 2) = -300 := by decide +kernel
  have hvalue := (hsigned (-44)).2 ⟨by decide, by rw [htruncate]; decide⟩
  refine ⟨hvalue, (hunsigned 212).2 ⟨by decide, by rw [htruncate]; decide⟩, ?_, ?_,
    by decide +kernel, hwide.trans hvalue⟩
  · rw [hover, hvalue, htruncate]
    decide
  · rw [htrunc]
    rintro ⟨i, hi, -⟩
    have h : (-601 / 2 : ℚ) = i := hi
    have h' : (-601 : ℚ) = 2 * i := by linarith
    have h'' : -601 = 2 * i := by exact_mod_cast h'
    omega

end ConstCheck
