import Mathlib.Tactic.Ring
import ConstCheck.Check.Fold

/-!
# Mirrored operators

Sums, products, bitwise operations but one, comparisons and logical operations may be read from the
right: the operands are swapped, and an ordering is turned around. Only the concatenation of strings
may not.

* `Operator.mirror?`: the operator of the swapped operation.
* `Number.add_comm`, `Number.mul_comm`, `Number.integral_comm`: the operations that commute, kinds
  included.
* `Operator.onNumbers_swap`, `Operator.onStrings_swap`, `Operator.onBools_swap`: **the evaluators
  yield the same on swapped operands**.
-/

namespace ConstCheck

/-! ## Operations that commute -/

namespace Bits

protected theorem and_comm (x y : ℤ) : Bits.and x y = Bits.and y x := by
  cases x <;> cases y <;> simp only [Bits.and, Nat.and_comm, Nat.or_comm]

protected theorem or_comm (x y : ℤ) : Bits.or x y = Bits.or y x := by
  cases x <;> cases y <;> simp only [Bits.or, Nat.and_comm, Nat.or_comm]

protected theorem xor_comm (x y : ℤ) : Bits.xor x y = Bits.xor y x := by
  cases x <;> cases y <;> simp only [Bits.xor, Nat.xor_comm]

end Bits

namespace Number

variable {f : ℤ → ℤ → ℤ}

protected theorem add_comm (x y : Number) : x + y = y + x := by
  show Number.mk _ _ _ = Number.mk _ _ _
  rw [Rat.add_comm x.re, Rat.add_comm x.im, NumKind.join_comm]

protected theorem mul_comm (x y : Number) : x * y = y * x := by
  show Number.mk _ _ _ = Number.mk _ _ _
  congr 1
  · ring
  · ring
  · exact NumKind.join_comm _ _

theorem integral_comm (hf : ∀ i j, f i j = f j i) (x y : Number) :
    integral f x y = integral f y x := by
  simp only [integral, hf x.truncated, NumKind.join_comm x.kind]

theorem sameValue_comm (x y : Number) : x.sameValue y = y.sameValue x := by
  simp only [sameValue, Bool.beq_comm]

theorem compareReal_swap (x y : Number) : (x.compareReal y).swap = y.compareReal x := by
  unfold compareReal
  by_cases hlt : x.re < y.re
  · have hnot : ¬y.re < x.re := not_lt_of_gt hlt
    simp [hlt, hnot]
  · by_cases hgt : y.re < x.re
    · simp [hlt, hgt]
    · simp [hlt, hgt]

end Number

/-! ## Operators -/

/-- The operator that yields the same when its operands are swapped. -/
def Operator.mirror? : Operator → Option Operator
  | lt => some gt
  | le => some ge
  | gt => some lt
  | ge => some le
  | sub | quo | rem | andNot => none
  | op => some op

namespace Operator

variable {op op' : Operator} {ty : Ty}

/-- An ordering is turned around, and all else is kept. -/
theorem holds_swap (h : op.mirror? = some op') (c : Ordering) : op'.holds c.swap = op.holds c := by
  cases op <;> cases h <;> cases c <;> rfl

theorem resultType_mirror (h : op.mirror? = some op') (ty : Ty) :
    op'.resultType ty = op.resultType ty := by
  cases op <;> cases h <;> rfl

theorem definedOn_mirror (h : op.mirror? = some op') (ty : Ty) :
    op'.definedOn ty = op.definedOn ty := by
  cases op <;> cases h <;> rfl

theorem onIntegral_comm {f : Number → Number → Number} (hf : ∀ x y, f x y = f y x) (x y : Number) :
    onIntegral f x y = onIntegral f y x := by
  simp only [onIntegral, hf x, Bool.and_comm x.kind.isIntegral]

/-- **Numbers may be swapped**, whether their kinds tell the truth or not. -/
theorem onNumbers_swap (h : op.mirror? = some op') (x y : Number) :
    op'.onNumbers y x = op.onNumbers x y := by
  have ordering : ∀ {o o' : Operator}, o.mirror? = some o' →
      (if y.kind.isReal && x.kind.isReal then .ok (.bool (o'.holds (y.compareReal x)))
        else .error .undefined : Except OpError UntypedConst) =
      if x.kind.isReal && y.kind.isReal then .ok (.bool (o.holds (x.compareReal y)))
        else .error .undefined := by
    intro o o' ho
    rw [Bool.and_comm, ← x.compareReal_swap, holds_swap ho]
  cases op with
  | add => cases h; simp only [onNumbers, x.add_comm]
  | mul => cases h; simp only [onNumbers, x.mul_comm]
  | and => cases h; exact onIntegral_comm (Number.integral_comm Bits.and_comm) y x
  | or => cases h; exact onIntegral_comm (Number.integral_comm Bits.or_comm) y x
  | xor => cases h; exact onIntegral_comm (Number.integral_comm Bits.xor_comm) y x
  | eq | ne => cases h; simp only [onNumbers, x.sameValue_comm]
  | lt | le | gt | ge => cases h; exact ordering rfl
  | logicalAnd | logicalOr => cases h; rfl
  | sub | quo | rem | andNot => cases h

/-- **Strings may be swapped where they are compared.** -/
theorem onStrings_swap (h : op.mirror? = some op') (hadd : op ≠ .add) (x y : String) :
    op'.onStrings y x = op.onStrings x y := by
  have hcompare : compare y x = (compare x y).swap := Std.OrientedCmp.eq_swap
  have hholds := holds_swap h (compare x y)
  rw [← hcompare] at hholds
  cases op with
  | add => exact absurd rfl hadd
  | eq | ne | lt | le | gt | ge =>
    cases h
    simp only [onStrings, hholds]
  | sub | quo | rem | andNot => cases h
  | _ => cases h; rfl

/-- **Bools may be swapped.** -/
theorem onBools_swap (h : op.mirror? = some op') (x y : Bool) :
    op'.onBools y x = op.onBools x y := by
  cases op <;> cases h <;> cases x <;> cases y <;> rfl

end Operator

end ConstCheck
