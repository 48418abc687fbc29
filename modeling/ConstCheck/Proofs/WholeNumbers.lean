import ConstCheck.Check.Operation
import ConstCheck.Proofs.Narrowing

/-!
# Whole numbers

A whole number is an integer under a kind. The arithmetic operators keep to such numbers: they
combine the integers, and the kinds apart from them.

* `Number.whole`: an integer under a kind.
* `Number.exists_whole`: every whole number is one, and so is a well-kinded number of an integral
  kind.
* `Operator.onNumbers_whole` (all arithmetic operators, all integral kinds): **whole numbers are
  combined as integers**.
-/

namespace ConstCheck

namespace Number

/-- An integer under a kind. -/
def whole (i : ℤ) (kind : NumKind) : Number := ⟨i, 0, kind⟩

variable {x : Number} (i j : ℤ) (k l : NumKind)

theorem isWhole_whole : (whole i k).isWhole := by
  simp [isWhole, whole]

@[simp]
theorem truncated_whole : (whole i k).truncated = i := by
  simp [truncated, whole]

/-- **A whole number is an integer under its kind.** -/
theorem exists_whole (h : x.isWhole) : ∃ i k, x = whole i k := by
  obtain ⟨him, hden⟩ := isWhole_iff.1 h
  refine ⟨x.re.num, x.kind, ?_⟩
  rw [whole, Rat.coe_int_num_of_den_eq_one hden, ← him]

theorem WellKinded.eq_whole (h : x.WellKinded) (hk : x.kind.isIntegral) :
    ∃ i k, k.isIntegral ∧ x = whole i k := by
  obtain ⟨i, k, rfl⟩ := exists_whole (h.1 hk)
  exact ⟨i, k, hk, rfl⟩

theorem isZero_whole : (whole j l).isZero = false ↔ j ≠ 0 := by
  simp [isZero, whole]

theorem add_whole : whole i k + whole j l = whole (i + j) (k.join l) := by
  show Number.mk _ _ _ = Number.mk _ _ _
  simp [whole]

theorem sub_whole : whole i k - whole j l = whole (i - j) (k.join l) := by
  show Number.mk _ _ _ = Number.mk _ _ _
  simp [whole]

theorem mul_whole : whole i k * whole j l = whole (i * j) (k.join l) := by
  show Number.mk _ _ _ = Number.mk _ _ _
  simp [whole]

theorem integral_whole (f : ℤ → ℤ → ℤ) :
    integral f (whole i k) (whole j l) = whole (f i j) (k.join l) := by
  simp only [integral, truncated_whole]
  rfl

variable {i j k l}

theorem quo?_whole (hj : j ≠ 0) (hk : k.isIntegral) (hl : l.isIntegral) :
    (whole i k).quo? (whole j l) = some (whole (i.tdiv j) (k.join l)) := by
  have hkinds : ((whole i k).kind.isIntegral && (whole j l).kind.isIntegral) = true :=
    Bool.and_eq_true_iff.2 ⟨hk, hl⟩
  rw [quo?, (isZero_whole j l).2 hj, hkinds, truncated_whole, integral_whole]
  simp [hj]

theorem rem_whole (hj : j ≠ 0) : (whole i k).rem (whole j l) = whole (i.tmod j) (k.join l) := by
  rw [rem, truncated_whole, if_neg hj, integral_whole]

end Number

namespace Operator

open Number (whole)

variable {op : Operator} {i j : ℤ} {k l : NumKind}

/-- Integral kinds have the operations that only integral kinds have. -/
theorem onIntegral_whole (f : Number → Number → Number) (hk : k.isIntegral) (hl : l.isIntegral) :
    onIntegral f (whole i k) (whole j l) = .ok (.number (f (whole i k) (whole j l))) :=
  if_pos (Bool.and_eq_true_iff.2 ⟨hk, hl⟩)

/-- **Whole numbers are combined as integers**, and the result is of the higher kind. -/
theorem onNumbers_whole (hop : op.isArithmetic) (hdiv : op.isDivision → j ≠ 0)
    (hk : k.isIntegral) (hl : l.isIntegral) :
    op.onNumbers (whole i k) (whole j l) = .ok (.number (whole (op.exact i j) (k.join l))) := by
  cases op with
  | add => rw [onNumbers, Number.add_whole, exact]
  | sub => rw [onNumbers, Number.sub_whole, exact]
  | mul => rw [onNumbers, Number.mul_whole, exact]
  | quo =>
    have hj := hdiv rfl
    simp only [onNumbers, (Number.isZero_whole j l).2 hj, Number.quo?_whole hj hk hl, exact]
    rfl
  | rem =>
    have hj := hdiv rfl
    rw [onNumbers, (Number.isZero_whole j l).2 hj, onIntegral_whole _ hk hl, Number.rem_whole hj,
      exact]
    rfl
  | and =>
    rw [onNumbers, onIntegral_whole _ hk hl, Number.and, Number.integral_whole, exact,
      Bits.and_eq_land]
  | or =>
    rw [onNumbers, onIntegral_whole _ hk hl, Number.or, Number.integral_whole, exact,
      Bits.or_eq_lor]
  | xor =>
    rw [onNumbers, onIntegral_whole _ hk hl, Number.xor, Number.integral_whole, exact,
      Bits.xor_eq_xor]
  | andNot =>
    rw [onNumbers, onIntegral_whole _ hk hl, Number.andNot, Number.integral_whole, exact,
      Bits.andNot_eq_ldiff]
  | _ => simp [isArithmetic] at hop

end Operator

end ConstCheck
