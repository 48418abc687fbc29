import ConstCheck.Proofs.Exact
import ConstCheck.Proofs.WholeNumbers

/-!
# Numbers whose kinds tell the truth

A number of an integral kind is whole, and one of a real kind lies on the real axis. The operators
keep it so, and on such numbers they compute what they mean.

* `Number.WellKinded`: the invariant, as in the arithmetic.
* `Number.WellKinded.arith`, `Number.WellKinded.quo`: arithmetic preserves it.
* `Operator.onNumbers_exact` (all operators and kinds): **the result of an operator is its exact
  meaning**, and well-kinded again.
* `Literal.wellKinded`: numeric literals have it.
-/

namespace ConstCheck

/-! ## Exact arithmetic -/

theorem truncate_neg (q : ℚ) : truncate (-q) = -truncate q := by
  rcases lt_trichotomy q 0 with h | h | h
  · simp [truncate, h.le, h.not_ge, Int.floor_neg]
  · simp [truncate, h]
  · simp [truncate, h.le, h.not_ge, Int.ceil_neg]

@[simp]
theorem truncate_intCast (i : ℤ) : truncate (i : ℚ) = i := by
  unfold truncate
  split <;> simp

/-- **The whole part of a ratio of integers is their quotient.** -/
theorem truncate_div (i j : ℤ) : truncate ((i : ℚ) / j) = i.tdiv j := by
  have natural : ∀ m n : ℕ, truncate ((m : ℚ) / n) = (m : ℤ).tdiv n := by
    intro m n
    have hnonneg : (0 : ℚ) ≤ (m : ℚ) / n := by positivity
    rw [truncate, if_pos hnonneg, Rat.floor_natCast_div_natCast]
    exact Int.ofNat_tdiv m n
  -- a sign comes out of the whole part as it comes out of the quotient
  obtain ⟨m, rfl | rfl⟩ := i.eq_nat_or_neg <;> obtain ⟨n, rfl | rfl⟩ := j.eq_nat_or_neg
  · simpa using natural m n
  · simpa [div_neg, truncate_neg] using natural m n
  · simpa [neg_div, truncate_neg] using natural m n
  · simpa [neg_div_neg_eq] using natural m n

namespace Number

variable {x y : Number}

theorem exact_add (x y : Number) : (x + y).exact = x.exact + y.exact := rfl

theorem exact_sub (x y : Number) : (x - y).exact = x.exact - y.exact := rfl

theorem exact_mul (x y : Number) : (x * y).exact = x.exact * y.exact := by
  ext
  · simp [exact, mul_re]; ring
  · simp [exact, mul_im]

theorem exact_eq_zero : x.exact = 0 ↔ x.isZero := by
  rw [isZero_iff, QuadraticAlgebra.ext_iff]; rfl

theorem exact_eq_iff : x.exact = y.exact ↔ x.sameValue y := by
  rw [sameValue_iff, QuadraticAlgebra.ext_iff]; rfl

theorem exact_exactQuo (x y : Number) : (exactQuo x y).exact = x.exact / y.exact := by
  ext
  · simp [exactQuo, exact, QuadraticAlgebra.re_div, QuadraticAlgebra.norm_def]
    ring
  · simp [exactQuo, exact, QuadraticAlgebra.im_div, QuadraticAlgebra.norm_def]
    ring

theorem compareReal_eq (x y : Number) : x.compareReal y = compare x.re y.re := by
  unfold compareReal
  rcases lt_trichotomy x.re y.re with h | h | h
  · rw [if_pos h, compare_lt_iff_lt.2 h]
  · rw [if_neg h.not_lt, if_neg h.not_gt, compare_eq_iff_eq.2 h]
  · rw [if_neg h.not_gt, if_pos h, compare_gt_iff_gt.2 h]

/-- A real quotient is that of the real parts. -/
theorem re_div_of_real {x y : Number} (hy : y.im = 0) :
    (x.exact / y.exact).re = x.re / y.re := by
  rw [← exact_exactQuo]
  simp only [exactQuo, exact, hy, mul_zero, add_zero]
  rcases eq_or_ne y.re 0 with h | h
  · simp [h]
  · field_simp

theorem exact_whole (i : ℤ) (k : NumKind) : (whole i k).exact = (i : Exact) := by
  ext <;> simp [exact, whole]

theorem integer?_whole (i : ℤ) (k : NumKind) : (whole i k).exact.integer? = some i := by
  simp [Exact.integer?, exact, whole]

/-- The whole part of a quotient of whole numbers. -/
theorem truncate_div_whole (i j : ℤ) (k l : NumKind) :
    truncate ((whole i k).exact / (whole j l).exact).re = i.tdiv j := by
  rw [re_div_of_real rfl]
  exact truncate_div i j

end Number

namespace NumKind

variable (a b : NumKind)

theorem isIntegral_join : (a.join b).isIntegral = (a.isIntegral && b.isIntegral) := by
  cases a <;> cases b <;> rfl

theorem isReal_join : (a.join b).isReal = (a.isReal && b.isReal) := by
  cases a <;> cases b <;> rfl

end NumKind

namespace Number

variable {x y z : Number}

theorem wellKinded_of_isWhole (h : z.isWhole) : z.WellKinded :=
  ⟨fun _ => h, fun _ => by simpa [isRealValued] using (isWhole_iff.1 h).1⟩

theorem wellKinded_ofRat (q : ℚ) : (ofRat q).WellKinded :=
  ⟨by simp [ofRat, NumKind.isIntegral], fun _ => rfl⟩

theorem wellKinded_ofParts (re im : ℚ) : (ofParts re im).WellKinded :=
  ⟨by simp [ofParts, NumKind.isIntegral], by simp [ofParts, NumKind.isReal]⟩

/-- A number of the kind of two operands is well-kinded if what the operands have in common makes
it so. -/
theorem wellKinded_of_join (hkind : z.kind = x.kind.join y.kind)
    (hwhole : x.kind.isIntegral → y.kind.isIntegral → z.isWhole)
    (hreal : x.kind.isReal → y.kind.isReal → z.im = 0) : z.WellKinded := by
  constructor
  · intro h
    rw [hkind, NumKind.isIntegral_join, Bool.and_eq_true] at h
    exact hwhole h.1 h.2
  · intro h
    rw [hkind, NumKind.isReal_join, Bool.and_eq_true] at h
    simpa [isRealValued] using hreal h.1 h.2

theorem WellKinded.im_eq_zero (h : x.WellKinded) (hk : x.kind.isReal) : x.im = 0 := by
  simpa [isRealValued] using h.2 hk

/-- Sums, differences and products of whole numbers are whole. -/
theorem isWhole_arith (hx : x.isWhole) (hy : y.isWhole) :
    (x + y).isWhole ∧ (x - y).isWhole ∧ (x * y).isWhole := by
  obtain ⟨i, k, rfl⟩ := exists_whole hx
  obtain ⟨j, l, rfl⟩ := exists_whole hy
  rw [add_whole, sub_whole, mul_whole]
  exact ⟨isWhole_whole _ _, isWhole_whole _ _, isWhole_whole _ _⟩

/-- **Sums, differences and products of well-kinded numbers are well-kinded.** -/
theorem WellKinded.arith (hx : x.WellKinded) (hy : y.WellKinded) :
    (x + y).WellKinded ∧ (x - y).WellKinded ∧ (x * y).WellKinded := by
  refine ⟨wellKinded_of_join (x := x) (y := y) rfl ?_ ?_,
    wellKinded_of_join (x := x) (y := y) rfl ?_ ?_,
    wellKinded_of_join (x := x) (y := y) rfl ?_ ?_⟩
  · exact fun hi hj => (isWhole_arith (hx.1 hi) (hy.1 hj)).1
  · intro hi hj
    rw [add_im, hx.im_eq_zero hi, hy.im_eq_zero hj, add_zero]
  · exact fun hi hj => (isWhole_arith (hx.1 hi) (hy.1 hj)).2.1
  · intro hi hj
    rw [sub_im, hx.im_eq_zero hi, hy.im_eq_zero hj, sub_zero]
  · exact fun hi hj => (isWhole_arith (hx.1 hi) (hy.1 hj)).2.2
  · intro hi hj
    rw [mul_im, hx.im_eq_zero hi, hy.im_eq_zero hj, mul_zero, zero_mul, add_zero]

/-- **The quotient of well-kinded numbers** is there unless the divisor is zero, is well-kinded, and
drops a fraction only where both kinds are integral. -/
theorem WellKinded.quo (hx : x.WellKinded) (hy : y.WellKinded) (hz : y.isZero = false) :
    ∃ q, x.quo? y = some q ∧ q.WellKinded ∧
      q.exact =
        if (x.kind.join y.kind).isIntegral then ((truncate (x.exact / y.exact).re : ℤ) : Exact)
        else x.exact / y.exact := by
  rw [NumKind.isIntegral_join]
  by_cases hint : x.kind.isIntegral && y.kind.isIntegral
  · obtain ⟨hxi, hyi⟩ := Bool.and_eq_true_iff.1 hint
    obtain ⟨i, k, rfl⟩ := exists_whole (hx.1 hxi)
    obtain ⟨j, l, rfl⟩ := exists_whole (hy.1 hyi)
    have hj : j ≠ 0 := (isZero_whole j l).1 hz
    refine ⟨_, quo?_whole hj hxi hyi, wellKinded_of_isWhole (isWhole_whole _ _), ?_⟩
    rw [if_pos hint, truncate_div_whole, exact_whole]
  · refine ⟨exactQuo x y, by simp [quo?, hz, hint], ?_, by rw [if_neg hint, exact_exactQuo]⟩
    refine wellKinded_of_join (x := x) (y := y) rfl (fun hi hj => ?_) (fun hi hj => ?_)
    · exact absurd (Bool.and_eq_true_iff.2 ⟨hi, hj⟩) hint
    · simp [exactQuo, hx.im_eq_zero hi, hy.im_eq_zero hj]

/-- The remainder of whole numbers is what their whole quotient leaves. -/
theorem rem_exact (hx : x.isWhole) (hy : y.isWhole) (hz : y.isZero = false) :
    (x.rem y).isWhole ∧ (x.rem y).exact =
      x.exact - y.exact * ((truncate (x.exact / y.exact).re : ℤ) : Exact) := by
  obtain ⟨i, k, rfl⟩ := exists_whole hx
  obtain ⟨j, l, rfl⟩ := exists_whole hy
  rw [rem_whole ((isZero_whole j l).1 hz), truncate_div_whole]
  refine ⟨isWhole_whole _ _, ?_⟩
  rw [exact_whole, exact_whole, exact_whole, ← Int.cast_mul, ← Int.cast_sub, ← Int.tmod_def]

end Number

/-- A number tells the truth about its kind; other constants have no kind to tell. -/
def UntypedConst.WellKinded : UntypedConst → Prop
  | number n => n.WellKinded
  | _ => True

namespace Operator

variable {op : Operator} {x y z : Number} {c : UntypedConst}

/-- The bitwise operators as operations on numbers. -/
theorem onIntegral_exact {f : ℤ → ℤ → ℤ} (hx : x.WellKinded) (hy : y.WellKinded)
    (h : onIntegral (Number.integral f) x y = .ok c) :
    (x.kind.join y.kind).isIntegral ∧ c.kind = .number (x.kind.join y.kind) ∧ c.WellKinded ∧
      ∃ i j, x.exact.integer? = some i ∧ y.exact.integer? = some j ∧
        c.exact = .number ((f i j : ℤ) : Exact) := by
  unfold onIntegral at h
  split at h
  · rename_i hint
    cases h
    obtain ⟨hxi, hyi⟩ := Bool.and_eq_true_iff.1 hint
    obtain ⟨i, k, rfl⟩ := Number.exists_whole (hx.1 hxi)
    obtain ⟨j, l, rfl⟩ := Number.exists_whole (hy.1 hyi)
    rw [Number.integral_whole]
    refine ⟨by rw [NumKind.isIntegral_join]; exact hint, rfl,
      Number.wellKinded_of_isWhole (Number.isWhole_whole _ _), i, j, Number.integer?_whole i k,
      Number.integer?_whole j l, ?_⟩
    rw [UntypedConst.exact, Number.exact_whole]
  · simp at h

/-- **An operator on well-kinded numbers yields its exact meaning**, of the common kind unless it
compares, and well-kinded again. -/
theorem onNumbers_exact (hx : x.WellKinded) (hy : y.WellKinded) (h : op.onNumbers x y = .ok c) :
    op.onExact? (x.kind.join y.kind) x.exact y.exact = some c.exact ∧ c.WellKinded ∧
      c.kind = if op.isComparison then .bool else .number (x.kind.join y.kind) := by
  obtain ⟨hadd, hsub, hmul⟩ := hx.arith hy
  have hzero : y.exact = 0 ↔ y.isZero := Number.exact_eq_zero
  cases op with
  | add => cases h; exact ⟨rfl, hadd, rfl⟩
  | sub => cases h; exact ⟨rfl, hsub, rfl⟩
  | mul =>
    cases h
    exact ⟨by rw [onExact?, ← Number.exact_mul]; rfl, hmul, rfl⟩
  | quo =>
    simp only [onNumbers] at h
    split at h
    · simp at h
    rename_i hz
    obtain ⟨q, hq, hwell, hexact⟩ := hx.quo hy (by simpa using hz)
    rw [hq] at h
    cases h
    refine ⟨?_, hwell, congrArg Kind.number (Number.quo?_kind hq)⟩
    rw [onExact?, if_neg (hzero.not.2 hz), UntypedConst.exact, hexact]
    split <;> rfl
  | rem =>
    simp only [onNumbers] at h
    split at h
    · simp at h
    rename_i hz
    unfold onIntegral at h
    split at h
    · rename_i hint
      cases h
      obtain ⟨hxi, hyi⟩ := Bool.and_eq_true_iff.1 hint
      obtain ⟨hwhole, hexact⟩ := Number.rem_exact (hx.1 hxi) (hy.1 hyi) (by simpa using hz)
      refine ⟨?_, Number.wellKinded_of_isWhole hwhole, congrArg Kind.number (Number.rem_kind x y)⟩
      rw [onExact?, NumKind.isIntegral_join, hint, UntypedConst.exact, hexact]
      simp [hzero, hz]
    · simp at h
  | and =>
    obtain ⟨hint, hkind, hwell, i, j, hi, hj, hexact⟩ := onIntegral_exact hx hy h
    refine ⟨?_, hwell, hkind⟩
    simp [onExact?, hint, hi, hj, hexact, exact, Bits.and_eq_land]
  | or =>
    obtain ⟨hint, hkind, hwell, i, j, hi, hj, hexact⟩ := onIntegral_exact hx hy h
    refine ⟨?_, hwell, hkind⟩
    simp [onExact?, hint, hi, hj, hexact, exact, Bits.or_eq_lor]
  | xor =>
    obtain ⟨hint, hkind, hwell, i, j, hi, hj, hexact⟩ := onIntegral_exact hx hy h
    refine ⟨?_, hwell, hkind⟩
    simp [onExact?, hint, hi, hj, hexact, exact, Bits.xor_eq_xor]
  | andNot =>
    obtain ⟨hint, hkind, hwell, i, j, hi, hj, hexact⟩ := onIntegral_exact hx hy h
    refine ⟨?_, hwell, hkind⟩
    simp [onExact?, hint, hi, hj, hexact, exact, Bits.andNot_eq_ldiff]
  | eq =>
    cases h
    refine ⟨?_, trivial, rfl⟩
    simp [onExact?, UntypedConst.exact, Number.exact_eq_iff]
  | ne =>
    cases h
    refine ⟨?_, trivial, rfl⟩
    simp [onExact?, UntypedConst.exact, Number.exact_eq_iff]
  | lt | le | gt | ge =>
    simp only [onNumbers] at h
    split at h
    · rename_i hreal
      cases h
      refine ⟨?_, trivial, rfl⟩
      rw [← NumKind.isReal_join] at hreal
      simp only [onExact?, if_pos hreal, UntypedConst.exact, Number.exact, Number.compareReal_eq]
      refine congrArg (fun b => some (ExactValue.bool b)) ?_
      exact decide_eq_holds Iff.rfl
    · simp at h
  | logicalAnd | logicalOr => simp [onNumbers] at h

end Operator

/-! ## Literals -/

theorem Literal.float?_eq {cs : List Char} {n : Number} (h : Literal.float? cs = some n) :
    ∃ q, n = .ofRat q := by
  unfold Literal.float? Literal.hexFloat? Literal.decimalFloat? at h
  split at h
  · simp only [Option.bind_eq_bind, Option.bind_eq_some_iff, Option.pure_def,
      Option.some.injEq] at h
    obtain ⟨_, -, _, -, _, -, _, -, rfl⟩ := h
    exact ⟨_, rfl⟩
  · split at h
    · simp only [Option.bind_eq_bind, Option.bind_eq_some_iff, Option.pure_def,
        Option.some.injEq] at h
      obtain ⟨_, -, _, -, _, -, rfl⟩ := h
      exact ⟨_, rfl⟩
    · simp only [Option.bind_eq_bind, Option.bind_eq_some_iff, Option.pure_def,
        Option.some.injEq] at h
      obtain ⟨_, -, _, -, rfl⟩ := h
      exact ⟨_, rfl⟩

/-- **A numeric literal tells the truth about its kind.** -/
theorem Literal.wellKinded {cs : List Char} {n : Number}
    (h : Literal.int? cs = some n ∨ Literal.float? cs = some n ∨ Literal.imag? cs = some n) :
    n.WellKinded := by
  rcases h with h | h | h
  · obtain ⟨m, -, rfl⟩ := Option.map_eq_some_iff.1 h
    exact Number.wellKinded_ofInt m
  · obtain ⟨q, rfl⟩ := Literal.float?_eq h
    exact Number.wellKinded_ofRat q
  · -- the digits before the `i` are an integer or a float
    have himag : ∃ q, n = .imaginary q := by
      obtain ⟨body, -, h⟩ := Option.bind_eq_some_iff.1 h
      simp only at h
      split at h
      · obtain ⟨v, -, hv⟩ := Option.bind_eq_some_iff.1 h
        exact ⟨v.re, (Option.some.inj hv).symm⟩
      · obtain ⟨v, -, hv⟩ := Option.bind_eq_some_iff.1 h
        exact ⟨v.re, (Option.some.inj hv).symm⟩
    obtain ⟨q, rfl⟩ := himag
    exact Number.wellKinded_ofParts 0 q

end ConstCheck
