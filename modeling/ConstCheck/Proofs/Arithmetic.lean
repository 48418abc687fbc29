import Mathlib.Data.Sign.Basic
import ConstCheck.Proofs.Mirrored
import ConstCheck.Proofs.WellKinded

/-!
# Laws of arithmetic

Sums and products are those of a field, and the kinds join in a chain, whether they tell the truth
about the values or not. So an operation is undone by its inverse, and what comes back is the value
it started from, under the higher of the two kinds. The exception is the quotient of two integral
kinds, which drops a fraction: there the remainder makes up for it.

* `NumKind.join_eq_max`: kinds are ordered, and join at the maximum.
* `Number.eq_of_exact`: a number is its value and its kind.
* `Number.quo?_of_not_integral`, `Number.exists_quo?_mul`: the quotient is the inverse of the
  product unless both kinds are integral.
* `arithmetic_laws` (all numbers): **the laws of sums, products and quotients**, kinds included.
* `quotient_and_remainder` (all divisors but zero): **whole numbers divide toward zero**, and all
  others exactly.
-/

namespace ConstCheck

/-! ## The chain of kinds -/

namespace NumKind

theorem rank_injective : Function.Injective rank := by
  intro a b h
  cases a <;> cases b <;> first | rfl | cases h

instance : LinearOrder NumKind := LinearOrder.lift' rank rank_injective

example : int < rune ∧ rune < float ∧ float < complex := by decide

theorem join_eq_max (a b : NumKind) : a.join b = max a b := by
  cases a <;> cases b <;> rfl

end NumKind

namespace Number

variable {a b x y q : Number}

/-! ## Sums and products -/

/-- **A number is its value and its kind.** -/
theorem eq_of_exact (h : x.exact = y.exact) (hk : x.kind = y.kind) : x = y := by
  obtain ⟨hre, him⟩ := QuadraticAlgebra.ext_iff.1 h
  cases x
  cases y
  simp only [exact] at hre him
  simp only [hre, him] at hk ⊢
  rw [hk]

protected theorem add_assoc (x y z : Number) : x + y + z = x + (y + z) :=
  eq_of_exact (by simp only [exact_add, add_assoc]) (NumKind.join_assoc _ _ _)

protected theorem mul_assoc (x y z : Number) : x * y * z = x * (y * z) :=
  eq_of_exact (by simp only [exact_mul, mul_assoc]) (NumKind.join_assoc _ _ _)

protected theorem mul_add (x y z : Number) : x * (y + z) = x * y + x * z := by
  refine eq_of_exact (by simp only [exact_add, exact_mul, mul_add]) ?_
  simp only [mul_kind, add_kind, NumKind.join_eq_max]
  exact sup_sup_distrib_left _ _ _

/-- A number under the higher of its own kind and another. -/
def raise (x : Number) (kind : NumKind) : Number := { x with kind := max x.kind kind }

theorem exact_raise (x : Number) (kind : NumKind) : (x.raise kind).exact = x.exact := rfl

theorem kind_raise (x : Number) (kind : NumKind) : (x.raise kind).kind = max x.kind kind := rfl

/-- **A difference undoes a sum.** -/
theorem add_sub_cancel (x y : Number) : x + y - y = x.raise y.kind := by
  refine eq_of_exact ?_ ?_
  · rw [exact_sub, exact_add, add_sub_cancel_right, exact_raise]
  · simp only [sub_kind, add_kind, NumKind.join_eq_max, kind_raise, sup_right_idem]

/-! ## Quotients -/

theorem isIntegral_mul : (x * y).kind.isIntegral ∧ y.kind.isIntegral ↔
    x.kind.isIntegral ∧ y.kind.isIntegral := by
  rw [mul_kind, NumKind.isIntegral_join, Bool.and_eq_true, and_assoc, and_self]

/-- **The quotient is exact unless both kinds are integral.** -/
theorem quo?_of_not_integral (hy : y.isZero = false)
    (hk : ¬(x.kind.isIntegral ∧ y.kind.isIntegral)) : x.quo? y = some (exactQuo x y) := by
  rw [← Bool.and_eq_true] at hk
  rw [quo?, hy, if_neg hk]
  rfl

/-- The quotient is of the higher kind, whatever it is. -/
theorem kind_of_quo? (h : x.quo? y = some q) : q.kind = max x.kind y.kind :=
  (quo?_kind h).trans (NumKind.join_eq_max _ _)

/-- **An exact quotient undoes a product, and a product undoes it.** -/
theorem exists_quo?_mul (hy : y.isZero = false) (hk : ¬(x.kind.isIntegral ∧ y.kind.isIntegral)) :
    (x * y).quo? y = some (x.raise y.kind) ∧ ∃ q, x.quo? y = some q ∧ q * y = x.raise y.kind := by
  have hne : y.exact ≠ 0 := by
    rw [ne_eq, exact_eq_zero, hy]
    exact Bool.false_ne_true
  constructor
  · rw [quo?_of_not_integral hy (isIntegral_mul.not.2 hk), Option.some.injEq]
    refine eq_of_exact ?_ ?_
    · rw [exact_exactQuo, exact_mul, mul_div_cancel_right₀ _ hne, exact_raise]
    · simp only [exactQuo, mul_kind, NumKind.join_eq_max, kind_raise, sup_right_idem]
  · refine ⟨_, quo?_of_not_integral hy hk, eq_of_exact ?_ ?_⟩
    · rw [exact_mul, exact_exactQuo, div_mul_cancel₀ _ hne, exact_raise]
    · simp only [exactQuo, mul_kind, NumKind.join_eq_max, kind_raise, sup_right_idem]

/-- **The quotient of whole numbers undoes their product.** -/
theorem quo?_mul_of_integral (hx : x.WellKinded) (hy : y.WellKinded) (hxk : x.kind.isIntegral)
    (hyk : y.kind.isIntegral) (hz : y.isZero = false) :
    (x * y).quo? y = some (x.raise y.kind) := by
  obtain ⟨i, k, hk, rfl⟩ := hx.eq_whole hxk
  obtain ⟨j, l, hl, rfl⟩ := hy.eq_whole hyk
  have hj : j ≠ 0 := (isZero_whole j l).1 hz
  -- the product is whole, so that the quotient drops nothing
  have hkl : (k.join l).isIntegral := by
    rw [NumKind.isIntegral_join, hk, hl]; rfl
  rw [mul_whole, quo?_whole hj hkl hl, Int.mul_tdiv_cancel _ hj, NumKind.join_assoc,
    NumKind.join_self, NumKind.join_eq_max]
  rfl

end Number

open Number

/-- **The laws of exact arithmetic**, of all numbers and kinds; equal numbers are equal in value and
in kind.

Sums and products are commutative and associative, and a product distributes over a sum. Taking away
what was added gives the first operand back, under the higher kind. So do multiplying and dividing,
in either order, unless both kinds are integral and the quotient may drop a fraction; whole numbers
come back from their product. Every result is of the higher of the two kinds. -/
theorem arithmetic_laws (a b c : Number) :
    a + b = b + a ∧ a * b = b * a ∧
    a + b + c = a + (b + c) ∧ a * b * c = a * (b * c) ∧ a * (b + c) = a * b + a * c ∧
    a + b - b = a.raise b.kind ∧
    (b.isZero = false → ¬(a.kind.isIntegral ∧ b.kind.isIntegral) →
      (a * b).quo? b = some (a.raise b.kind) ∧ ∃ q, a.quo? b = some q ∧ q * b = a.raise b.kind) ∧
    (b.isZero = false → a.WellKinded → b.WellKinded → a.kind.isIntegral → b.kind.isIntegral →
      (a * b).quo? b = some (a.raise b.kind)) ∧
    (a + b).kind = max a.kind b.kind ∧ (a - b).kind = max a.kind b.kind ∧
    (a * b).kind = max a.kind b.kind ∧ ∀ q, a.quo? b = some q → q.kind = max a.kind b.kind := by
  refine ⟨a.add_comm b, a.mul_comm b, a.add_assoc b c, a.mul_assoc b c, a.mul_add b c,
    a.add_sub_cancel b, fun hb hk => exists_quo?_mul hb hk, fun hb ha hb' hka hkb => ?_,
    NumKind.join_eq_max _ _, NumKind.join_eq_max _ _, NumKind.join_eq_max _ _,
    fun q hq => kind_of_quo? hq⟩
  exact quo?_mul_of_integral ha hb' hka hkb hb

/-- On the imaginary axis, where a sign shows; and at two integral kinds. -/
theorem arithmetic_laws_imaginary :
    (ofParts 0 3).isZero = false ∧
    (ofParts (1 / 2) (-2) * ofParts 0 3).quo? (ofParts 0 3) = some (ofParts (1 / 2) (-2)) ∧
    (∃ q, (ofParts (1 / 2) (-2)).quo? (ofParts 0 3) = some q ∧
      q * ofParts 0 3 = ofParts (1 / 2) (-2)) ∧
    (whole (-7) .int * whole 2 .rune).quo? (whole 2 .rune) = some (whole (-7) .rune) := by
  have hz : (ofParts 0 3).isZero = false := by decide
  have hwhole : (whole 2 .rune).isZero = false := (isZero_whole 2 .rune).2 (by decide)
  obtain ⟨-, -, -, -, -, -, hexact, -⟩ :=
    arithmetic_laws (ofParts (1 / 2) (-2)) (ofParts 0 3) (zero .int)
  obtain ⟨-, -, -, -, -, -, -, hintegral, -⟩ :=
    arithmetic_laws (whole (-7) .int) (whole 2 .rune) (zero .int)
  obtain ⟨hmul, hquo⟩ := hexact hz (by decide)
  exact ⟨hz, hmul, hquo, hintegral hwhole (wellKinded_of_isWhole (isWhole_whole _ _))
    (wellKinded_of_isWhole (isWhole_whole _ _)) rfl rfl⟩

/-! ## Whole quotients -/

/-- A remainder is less than the divisor, and has the sign of the dividend unless it is zero. -/
theorem tmod_bounds (i : ℤ) {j : ℤ} (hj : j ≠ 0) :
    |i.tmod j| < |j| ∧ (i.tmod j = 0 ∨ (i.tmod j).sign = i.sign) := by
  constructor
  · rw [Int.abs_eq_natAbs, Int.abs_eq_natAbs, Int.natAbs_tmod]
    exact_mod_cast Nat.mod_lt _ (Int.natAbs_pos.2 hj)
  · by_cases hdvd : j ∣ i
    · exact .inl (Int.tmod_eq_zero_of_dvd hdvd)
    · exact .inr (by rw [Int.sign_tmod, if_neg hdvd])

/-- What integers yield when they are divided toward zero: a quotient, and a remainder that is less
than the divisor and not of the other sign than the dividend. -/
structure WholeDivision (x y q r : Number) : Prop where
  quotient_whole : q.isWhole
  remainder_whole : r.isWhole
  quotient_kind : q.kind = max x.kind y.kind
  remainder_kind : r.kind = max x.kind y.kind
  sum : q * y + r = x.raise y.kind
  remainder_less : |r.re| < |y.re|
  remainder_sign : r.isZero ∨ SignType.sign r.re = SignType.sign x.re

theorem wholeDivision_whole {i j : ℤ} {k l : NumKind} (hj : j ≠ 0) :
    WholeDivision (whole i k) (whole j l) (whole (i.tdiv j) (k.join l))
      (whole (i.tmod j) (k.join l)) where
  quotient_whole := isWhole_whole _ _
  remainder_whole := isWhole_whole _ _
  quotient_kind := NumKind.join_eq_max k l
  remainder_kind := NumKind.join_eq_max k l
  sum := by
    rw [mul_whole, add_whole, Int.tdiv_mul_add_tmod]
    refine eq_of_exact rfl ?_
    simp only [whole, kind_raise, NumKind.join_eq_max]
    rw [sup_right_idem, sup_idem]
  remainder_less := by
    obtain ⟨hlt, -⟩ := tmod_bounds i hj
    simp only [whole]
    exact_mod_cast hlt
  remainder_sign := by
    obtain ⟨-, hzero | hsign⟩ := tmod_bounds i hj
    · exact .inl (by simp [whole, isZero, hzero])
    · refine .inr ?_
      simp only [whole, sign_apply, Int.cast_pos, Int.cast_lt_zero, ← Int.sign_eq_one_iff_pos,
        ← Int.sign_eq_neg_one_iff_neg, hsign]

/-- **Whole numbers are divided toward zero, and other numbers exactly.**

By any number but zero, two well-kinded numbers of integral kinds have a whole quotient and a whole
remainder. Where a kind is not integral there is the quotient alone, which is exact. -/
theorem quotient_and_remainder {x y : Number} (hy : y.isZero = false) :
    (x.WellKinded → y.WellKinded → x.kind.isIntegral → y.kind.isIntegral →
      ∃ q r, Operator.quo.onNumbers x y = .ok (.number q) ∧
        Operator.rem.onNumbers x y = .ok (.number r) ∧ WholeDivision x y q r) ∧
    (¬(x.kind.isIntegral ∧ y.kind.isIntegral) →
      ∃ q, Operator.quo.onNumbers x y = .ok (.number q) ∧ q * y = x.raise y.kind) := by
  refine ⟨fun hx hy' hxk hyk => ?_, fun hk => ?_⟩
  · obtain ⟨i, k, hk, rfl⟩ := hx.eq_whole hxk
    obtain ⟨j, l, hl, rfl⟩ := hy'.eq_whole hyk
    have hj : j ≠ 0 := (isZero_whole j l).1 hy
    exact ⟨_, _, Operator.onNumbers_whole rfl (fun _ => hj) hk hl,
      Operator.onNumbers_whole rfl (fun _ => hj) hk hl, wholeDivision_whole hj⟩
  · obtain ⟨-, q, hq, hmul⟩ := exists_quo?_mul hy hk
    refine ⟨q, ?_, hmul⟩
    simp only [Operator.onNumbers, hy, hq]
    rfl

/-- Minus seven over two is minus three and minus one is left, where both kinds are integral. -/
theorem quotient_and_remainder_negative :
    (whole 2 .rune).isZero = false ∧
    Operator.quo.onNumbers (whole (-7) .int) (whole 2 .rune) = .ok (.number (whole (-3) .rune)) ∧
    Operator.rem.onNumbers (whole (-7) .int) (whole 2 .rune) = .ok (.number (whole (-1) .rune)) ∧
    WholeDivision (whole (-7) .int) (whole 2 .rune) (whole (-3) .rune) (whole (-1) .rune) ∧
    ∃ q, Operator.quo.onNumbers (whole (-7) .float) (whole 2 .rune) = .ok (.number q) ∧
      q * whole 2 .rune = whole (-7) .float := by
  have hz : (whole 2 .rune).isZero = false := (isZero_whole 2 .rune).2 (by decide)
  have hq : Operator.quo.onNumbers (whole (-7) .int) (whole 2 .rune) =
      .ok (.number (whole (-3) .rune)) := Operator.onNumbers_whole rfl (by decide) rfl rfl
  have hr : Operator.rem.onNumbers (whole (-7) .int) (whole 2 .rune) =
      .ok (.number (whole (-1) .rune)) := Operator.onNumbers_whole rfl (by decide) rfl rfl
  obtain ⟨hwhole, -⟩ := @quotient_and_remainder (whole (-7) .int) _ hz
  obtain ⟨-, hexact⟩ := @quotient_and_remainder (whole (-7) .float) _ hz
  obtain ⟨q, r, hq', hr', hdiv⟩ := hwhole (wellKinded_of_isWhole (isWhole_whole _ _))
    (wellKinded_of_isWhole (isWhole_whole _ _)) rfl rfl
  cases hq.symm.trans hq'
  cases hr.symm.trans hr'
  exact ⟨hz, hq, hr, hdiv, hexact (by decide)⟩

end ConstCheck
