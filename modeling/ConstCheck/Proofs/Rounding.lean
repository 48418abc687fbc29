import Mathlib.Algebra.Order.Field.Power
import Mathlib.Algebra.Order.Floor.Semifield
import Mathlib.Data.Rat.Floor
import Mathlib.Tactic.FieldSimp
import Mathlib.Tactic.Linarith
import Mathlib.Tactic.Positivity
import Mathlib.Tactic.Ring
import ConstCheck.Floating.Rounding

/-!
# Rounding stays on the grid

Rounding divides by a power of two and counts the steps of the grid. These lemmas read that
integer arithmetic as arithmetic of rationals.

* `two_zpow_binade_le`, `lt_two_zpow_binade`: the binade of a quotient is the power of two below it.
* `Format.gridSteps_lt`: a rational lies less than `2 ^ precision` steps from zero on its grid.
* `Format.roundingExp_eq`: the exponent found from the lengths of the terms is that of the grid.
* `Format.round_eq` (every format with a precision and a range): **rounding in closed form**, as the
  nearest count of steps of the grid, whatever is carried.
* `Format.holds_round`: **what rounding yields is a value of the format**, an infinity or a value
  `m · 2 ^ e` in range.
-/

namespace ConstCheck

/-- A scaled integer is a product with a power. -/
theorem scale_eq (m : ℤ) (base : ℕ) (e : ℤ) : scale m base e = m * (base : ℚ) ^ e := by
  cases e with
  | ofNat e => simp [scale]
  | negSucc e => simp [scale, Rat.mkRat_eq_div, zpow_negSucc, div_eq_mul_inv]

theorem shiftedQuotient_pos {num den : ℕ} (hd : 0 < den) (e : ℤ) :
    0 < (shiftedQuotient num den e).2 := by
  cases e with
  | ofNat e => exact Nat.mul_pos hd (Nat.two_pow_pos e)
  | negSucc e => exact hd

/-- Shifting a quotient divides it by a power of two. -/
theorem shiftedQuotient_eq (num den : ℕ) (e : ℤ) :
    ((shiftedQuotient num den e).1 : ℚ) / (shiftedQuotient num den e).2 = num / den / 2 ^ e := by
  cases e with
  | ofNat e =>
    simp only [shiftedQuotient, Nat.pow_eq, Nat.cast_mul, Nat.cast_pow, Nat.cast_ofNat,
      Int.ofNat_eq_natCast, zpow_natCast]
    rw [div_div]
  | negSucc e =>
    simp only [shiftedQuotient, Nat.pow_eq, Nat.cast_mul, Nat.cast_pow, Nat.cast_ofNat,
      zpow_negSucc]
    rw [div_inv_eq_mul, mul_div_right_comm]

/-! ## Binades -/

theorem two_zpow_log2_le {n : ℕ} (hn : 0 < n) : (2 : ℚ) ^ (n.log2 : ℤ) ≤ n := by
  rw [zpow_natCast]; exact_mod_cast Nat.log2_self_le hn.ne'

theorem lt_two_zpow_log2 (n : ℕ) : (n : ℚ) < 2 ^ ((n.log2 : ℤ) + 1) := by
  have h : n < 2 ^ (n.log2 + 1) := Nat.lt_log2_self
  have h' : (n : ℚ) < (2 : ℚ) ^ (n.log2 + 1) := by exact_mod_cast h
  simpa [← zpow_natCast] using h'

/-- The test that picks the binade: whether the quotient reaches the guess. -/
theorem binade_eq (num den : ℕ) (hd : 0 < den) :
    binade num den =
      if (2 : ℚ) ^ ((num.log2 : ℤ) - den.log2) ≤ num / den then (num.log2 : ℤ) - den.log2
      else (num.log2 : ℤ) - den.log2 - 1 := by
  simp only [binade]
  set g : ℤ := (num.log2 : ℤ) - den.log2
  have hpos : (0 : ℚ) < (shiftedQuotient num den g).2 := by
    exact_mod_cast shiftedQuotient_pos hd g
  have h2 : (0 : ℚ) < 2 ^ g := zpow_pos (by norm_num) g
  have hiff : (shiftedQuotient num den g).2 ≤ (shiftedQuotient num den g).1 ↔
      (2 : ℚ) ^ g ≤ num / den := by
    rw [← one_le_div₀ h2, ← shiftedQuotient_eq, one_le_div₀ hpos]
    exact_mod_cast Iff.rfl
  by_cases h : (2 : ℚ) ^ g ≤ num / den
  · rw [if_pos h, if_pos (hiff.2 h)]
  · rw [if_neg h, if_neg (mt hiff.1 h)]

/-- **A quotient is at least the power of two of its binade.** -/
theorem two_zpow_binade_le {num den : ℕ} (hn : 0 < num) (hd : 0 < den) :
    (2 : ℚ) ^ binade num den ≤ num / den := by
  have hd' : (0 : ℚ) < den := by exact_mod_cast hd
  rw [binade_eq num den hd]
  split
  · assumption
  · -- the guess is off by one at most, since each logarithm is
    have h1 := two_zpow_log2_le hn
    have h2 := lt_two_zpow_log2 den
    have h3 : (2 : ℚ) ^ ((num.log2 : ℤ) - den.log2 - 1) * 2 ^ ((den.log2 : ℤ) + 1) =
        2 ^ (num.log2 : ℤ) := by
      rw [← zpow_add₀ (by norm_num : (2 : ℚ) ≠ 0)]; congr 1; ring
    have h4 : (0 : ℚ) < 2 ^ ((num.log2 : ℤ) - den.log2 - 1) := zpow_pos (by norm_num) _
    rw [le_div_iff₀ hd']
    calc _ ≤ (2 : ℚ) ^ ((num.log2 : ℤ) - den.log2 - 1) * 2 ^ ((den.log2 : ℤ) + 1) := by
          exact mul_le_mul_of_nonneg_left h2.le h4.le
      _ ≤ num := by rw [h3]; exact h1

/-- **A quotient is below the power of two after its binade.** -/
theorem lt_two_zpow_binade (num : ℕ) {den : ℕ} (hd : 0 < den) :
    (num / den : ℚ) < 2 ^ (binade num den + 1) := by
  have hd' : (0 : ℚ) < den := by exact_mod_cast hd
  rw [binade_eq num den hd]
  split
  · have h1 := lt_two_zpow_log2 num
    rcases Nat.eq_zero_or_pos num with h0 | hn
    · subst h0; simpa using zpow_pos (by norm_num : (0 : ℚ) < 2) _
    have h2 := two_zpow_log2_le hd
    have h3 : (2 : ℚ) ^ ((num.log2 : ℤ) - den.log2 + 1) * 2 ^ (den.log2 : ℤ) =
        2 ^ ((num.log2 : ℤ) + 1) := by
      rw [← zpow_add₀ (by norm_num : (2 : ℚ) ≠ 0)]; congr 1; ring
    have h4 : (0 : ℚ) < 2 ^ ((num.log2 : ℤ) - den.log2 + 1) := zpow_pos (by norm_num) _
    rw [div_lt_iff₀ hd']
    calc (num : ℚ)
      _ < 2 ^ ((num.log2 : ℤ) - den.log2 + 1) * 2 ^ (den.log2 : ℤ) := by rw [h3]; exact h1
      _ ≤ _ := mul_le_mul_of_nonneg_left h2 h4.le
  · rename_i h
    rw [sub_add_cancel]; exact not_le.1 h

theorem lt_bitLength_iff {k n : ℕ} : k < bitLength n ↔ 2 ^ k ≤ n := by
  rcases Nat.eq_zero_or_pos n with rfl | hn
  · simp [bitLength]
  · rw [bitLength, if_neg hn.ne', Nat.lt_succ_iff, Nat.le_log2 hn.ne']

/-! ## The rounded quotient -/

/-- Rounding a quotient yields the whole part or the integer after it. -/
theorem roundDiv_bounds (num den : ℕ) :
    num / den ≤ roundDiv num den ∧ roundDiv num den ≤ num / den + 1 := by
  simp only [roundDiv]
  split <;> omega

namespace Format

variable {fmt : Format}

/-- The parameters describe a format: significands have more than one bit, so that some are even,
and the range of exponents is not empty. -/
structure Sane (fmt : Format) : Prop where
  one_lt_precision : 1 < fmt.precision
  minExp_le : fmt.minExp ≤ fmt.maxExp

theorem Sane.precision_pos (hs : fmt.Sane) : 0 < fmt.precision := by
  have := hs.one_lt_precision
  omega

theorem sane_binary32 : binary32.Sane := ⟨by decide, by decide⟩

theorem sane_binary64 : binary64.Sane := ⟨by decide, by decide⟩

theorem minExp_le_gridExp (fmt : Format) (num den : ℕ) : fmt.minExp ≤ fmt.gridExp num den :=
  le_max_left _ _

/-- **A rational lies less than `2 ^ precision` steps of its grid from zero.** -/
theorem gridSteps_lt (fmt : Format) (num : ℕ) {den : ℕ} (hd : 0 < den) :
    (num / den / 2 ^ fmt.gridExp num den : ℚ) < 2 ^ fmt.precision := by
  have h1 := lt_two_zpow_binade num hd
  have h2 : binade num den + 1 ≤ fmt.precision + fmt.gridExp num den := by
    have := le_max_right fmt.minExp (binade num den - (fmt.precision - 1))
    simp only [gridExp]; omega
  rw [div_lt_iff₀ (zpow_pos (by norm_num) _), ← zpow_natCast, ← zpow_add₀ (by norm_num)]
  exact lt_of_lt_of_le h1 (zpow_le_zpow_right₀ (by norm_num) h2)

/-- Above the least exponent the steps fill the precision. -/
theorem le_gridSteps (hs : fmt.Sane) {num den : ℕ} (hn : 0 < num) (hd : 0 < den)
    (he : fmt.minExp < fmt.gridExp num den) :
    (2 : ℚ) ^ (fmt.precision - 1) ≤ num / den / 2 ^ fmt.gridExp num den := by
  have hp := hs.precision_pos
  have h1 := two_zpow_binade_le hn hd
  have h2 : ((fmt.precision - 1 : ℕ) : ℤ) + fmt.gridExp num den = binade num den := by
    simp only [gridExp] at he ⊢; omega
  rw [le_div_iff₀ (zpow_pos (by norm_num) _), ← zpow_natCast, ← zpow_add₀ (by norm_num), h2]
  exact h1

/-- The number of steps that a rational rounds to on its grid. -/
def steps (fmt : Format) (num den : ℕ) : ℕ :=
  roundDiv (shiftedQuotient num den (fmt.gridExp num den)).1
    (shiftedQuotient num den (fmt.gridExp num den)).2

/-- The whole steps below a rational are a quotient of naturals. -/
theorem floor_shiftedQuotient (num den : ℕ) (e : ℤ) :
    (shiftedQuotient num den e).1 / (shiftedQuotient num den e).2 = ⌊(num / den / 2 ^ e : ℚ)⌋₊ := by
  rw [← shiftedQuotient_eq]
  exact (Nat.floor_div_eq_div _ _).symm

theorem steps_le (fmt : Format) {num den : ℕ} (hd : 0 < den) :
    fmt.steps num den ≤ 2 ^ fmt.precision := by
  have h1 := gridSteps_lt fmt num hd
  have h2 := (roundDiv_bounds (shiftedQuotient num den (fmt.gridExp num den)).1
    (shiftedQuotient num den (fmt.gridExp num den)).2).2
  rw [floor_shiftedQuotient] at h2
  have h3 : ⌊(num / den / 2 ^ fmt.gridExp num den : ℚ)⌋₊ < 2 ^ fmt.precision := by
    rw [Nat.floor_lt (by positivity)]; exact_mod_cast h1
  exact le_trans h2 h3

theorem le_steps (fmt : Format) (hs : fmt.Sane) {num den : ℕ} (hn : 0 < num) (hd : 0 < den)
    (he : fmt.minExp < fmt.gridExp num den) : 2 ^ (fmt.precision - 1) ≤ fmt.steps num den := by
  have h1 := le_gridSteps hs hn hd he
  have h2 := (roundDiv_bounds (shiftedQuotient num den (fmt.gridExp num den)).1
    (shiftedQuotient num den (fmt.gridExp num den)).2).1
  rw [floor_shiftedQuotient] at h2
  refine le_trans ?_ h2
  rw [Nat.le_floor_iff (by positivity)]
  exact_mod_cast h1

/-! ## The exponent of the grid -/

/-- The guess is the exponent of the grid, or one less, unless that is below the range. -/
theorem guessExp_eq (fmt : Format) {num den : ℕ} (hn : 0 < num) (hd : 0 < den) :
    fmt.guessExp num den = (num.log2 : ℤ) - den.log2 - fmt.precision := by
  simp only [guessExp, bitLength, hn.ne', hd.ne', if_false]
  omega

theorem binade_bounds (num : ℕ) {den : ℕ} (hd : 0 < den) :
    (num.log2 : ℤ) - den.log2 - 1 ≤ binade num den ∧
      binade num den ≤ (num.log2 : ℤ) - den.log2 := by
  rw [binade_eq num den hd]
  split <;> omega

/-- **The exponent found from the lengths is that of the grid.** -/
theorem roundingExp_eq (fmt : Format) {num den : ℕ} (hn : 0 < num) (hd : 0 < den) :
    fmt.roundingExp num den = fmt.gridExp num den := by
  have hguess := guessExp_eq fmt hn hd
  set g : ℤ := (num.log2 : ℤ) - den.log2 with hg
  set first : ℤ := max (fmt.guessExp num den) fmt.minExp with hfirst
  -- the quotient has a digit too many where it reaches the next binade
  have hdigit : fmt.precision < bitLength ((shiftedQuotient num den first).1 /
      (shiftedQuotient num den first).2) ↔ (2 : ℚ) ^ (fmt.precision + first) ≤ num / den := by
    rw [lt_bitLength_iff, floor_shiftedQuotient, Nat.le_floor_iff (by positivity),
      le_div_iff₀ (zpow_pos (by norm_num) _), zpow_add₀ (by norm_num), zpow_natCast]
    push_cast
    exact Iff.rfl
  have hround : fmt.roundingExp num den =
      if (2 : ℚ) ^ (fmt.precision + first) ≤ num / den then first + 1 else first := by
    simp only [roundingExp, ← hfirst]
    exact if_congr hdigit rfl rfl
  rw [hround, gridExp]
  rcases le_or_gt fmt.minExp (fmt.guessExp num den) with hle | hlt
  · have hexp : (fmt.precision : ℤ) + first = g := by omega
    rw [hexp, binade_eq num den hd]
    split <;> omega
  · -- below the range the guess does not matter
    have hbinade := binade_bounds num hd
    have hnot : ¬(2 : ℚ) ^ (fmt.precision + first) ≤ num / den := by
      rw [not_le]
      exact lt_of_lt_of_le (lt_two_zpow_binade num hd)
        (zpow_le_zpow_right₀ (by norm_num) (by omega))
    rw [if_neg hnot]
    omega

/-! ## The rounded size -/

/-- The size that a rational rounds to, on a grid without an upper end. -/
def roundedSize (fmt : Format) (q : ℚ) : ℚ :=
  fmt.steps q.num.natAbs q.den * 2 ^ fmt.gridExp q.num.natAbs q.den

/-- A significand and an exponent as a word stores them: as many digits as the precision allows, or
the least exponent. -/
structure Canonical (fmt : Format) (m e : ℤ) : Prop where
  digits : m.natAbs < 2 ^ fmt.precision
  minExp_le : fmt.minExp ≤ e
  le_maxExp : e ≤ fmt.maxExp
  normal : fmt.minExp < e → 2 ^ (fmt.precision - 1) ≤ m.natAbs

/-- What a carry does to a count of steps: nothing where the steps are less than the precision
allows, and else it halves them. -/
theorem carry_cases (fmt : Format) {m : ℕ} (e : ℤ) (hm : m ≤ 2 ^ fmt.precision) :
    m < 2 ^ fmt.precision ∧ fmt.carry m e = (m, e) ∨
      m = 2 ^ fmt.precision ∧ fmt.carry m e = (2 ^ fmt.precision / 2, e + 1) := by
  rcases hm.lt_or_eq with hlt | heq
  · exact .inl ⟨hlt, by rw [carry, if_neg (mt lt_bitLength_iff.1 (not_le.2 hlt))]⟩
  · exact .inr ⟨heq, by rw [carry, if_pos (lt_bitLength_iff.2 heq.ge), heq]⟩

theorem two_pow_precision (hs : fmt.Sane) :
    2 ^ fmt.precision = 2 * 2 ^ (fmt.precision - 1) := by
  rw [← pow_succ', Nat.sub_add_cancel hs.precision_pos]

/-- A carry keeps the size. -/
theorem carry_value (hs : fmt.Sane) {m : ℕ} (e : ℤ) (hm : m ≤ 2 ^ fmt.precision) :
    ((fmt.carry m e).1 * 2 ^ (fmt.carry m e).2 : ℚ) = m * 2 ^ e := by
  rcases carry_cases fmt e hm with ⟨-, hcarry⟩ | ⟨rfl, hcarry⟩
  · rw [hcarry]
  · rw [hcarry, two_pow_precision hs, Nat.mul_div_cancel_left _ two_pos,
      zpow_add_one₀ (by norm_num)]
    push_cast; ring

/-- **A carry leaves the canonical form**, unless the exponent is too great; then the size is beyond
the range. -/
theorem canonical_carry (hs : fmt.Sane) {m : ℕ} {e : ℤ} (hm : m ≤ 2 ^ fmt.precision)
    (he : fmt.minExp ≤ e) (hlow : fmt.minExp < e → 2 ^ (fmt.precision - 1) ≤ m)
    (hmax : (fmt.carry m e).2 ≤ fmt.maxExp) :
    fmt.Canonical (fmt.carry m e).1 (fmt.carry m e).2 := by
  have htwo := two_pow_precision hs
  have hpos : 0 < 2 ^ (fmt.precision - 1) := Nat.two_pow_pos _
  rcases carry_cases fmt e hm with ⟨hlt, hcarry⟩ | ⟨-, hcarry⟩
  · rw [hcarry] at hmax ⊢
    exact ⟨hlt, he, hmax, hlow⟩
  · rw [hcarry] at hmax ⊢
    refine ⟨?_, by simp only; omega, hmax, fun _ => ?_⟩
    · show 2 ^ fmt.precision / 2 < 2 ^ fmt.precision
      omega
    · show 2 ^ (fmt.precision - 1) ≤ 2 ^ fmt.precision / 2
      omega

/-- A canonical form is in range. -/
theorem Canonical.lt_range {m e : ℤ} (h : fmt.Canonical m e) :
    |(m : ℚ)| * 2 ^ e < 2 ^ (fmt.precision + fmt.maxExp) := by
  have h2e : (0 : ℚ) < 2 ^ e := zpow_pos (by norm_num) e
  have hm : |(m : ℚ)| < 2 ^ (fmt.precision : ℤ) := by
    have := h.digits
    rw [← Int.cast_abs, Int.abs_eq_natAbs, zpow_natCast]
    exact_mod_cast this
  calc |(m : ℚ)| * 2 ^ e
    _ < 2 ^ (fmt.precision : ℤ) * 2 ^ e := mul_lt_mul_of_pos_right hm h2e
    _ = 2 ^ ((fmt.precision : ℤ) + e) := (zpow_add₀ (by norm_num) _ _).symm
    _ ≤ 2 ^ (fmt.precision + fmt.maxExp) :=
      zpow_le_zpow_right₀ (by norm_num) (by have := h.le_maxExp; omega)

/-- A count of steps that fills the precision is as great as its binade. -/
theorem le_steps_size (hs : fmt.Sane) {m : ℕ} {e k : ℤ} (hm : 2 ^ (fmt.precision - 1) ≤ m)
    (hk : k + 1 ≤ fmt.precision + e) : (2 : ℚ) ^ k ≤ m * 2 ^ e := by
  have hp := hs.precision_pos
  have h2e : (0 : ℚ) < 2 ^ e := zpow_pos (by norm_num) e
  have hm' : (2 : ℚ) ^ (fmt.precision - 1) ≤ m := by exact_mod_cast hm
  calc (2 : ℚ) ^ k
    _ ≤ 2 ^ (((fmt.precision - 1 : ℕ) : ℤ) + e) := zpow_le_zpow_right₀ (by norm_num) (by omega)
    _ = 2 ^ (fmt.precision - 1) * 2 ^ e := by rw [zpow_add₀ (by norm_num), zpow_natCast]
    _ ≤ m * 2 ^ e := mul_le_mul_of_nonneg_right hm' h2e.le

/-- After a carry the exponent tells what is beyond the range. -/
theorem maxExp_lt_carry_iff (hs : fmt.Sane) {m : ℕ} {e : ℤ} (hm : m ≤ 2 ^ fmt.precision)
    (he : fmt.minExp ≤ e) (hlow : fmt.minExp < e → 2 ^ (fmt.precision - 1) ≤ m) :
    fmt.maxExp < (fmt.carry m e).2 ↔ (2 : ℚ) ^ (fmt.precision + fmt.maxExp) ≤ m * 2 ^ e := by
  have hle := hs.minExp_le
  constructor
  · intro hlt
    have htwo := two_pow_precision hs
    rw [← carry_value hs e hm]
    refine le_steps_size hs ?_ (by omega)
    rcases carry_cases fmt e hm with ⟨-, hcarry⟩ | ⟨-, hcarry⟩
    · rw [hcarry] at hlt ⊢
      exact hlow (by simp only at hlt; omega)
    · rw [hcarry]
      simp only
      omega
  · contrapose!
    intro hmax
    have hlt := (canonical_carry hs hm he hlow hmax).lt_range
    rw [← carry_value hs e hm]
    simpa using hlt

/-- Where the guess is out of range, so is the rounded size. -/
theorem le_roundedSize_of_guess (hs : fmt.Sane) {q : ℚ} (hq : q ≠ 0)
    (h : fmt.maxExp < fmt.guessExp q.num.natAbs q.den) :
    (2 : ℚ) ^ (fmt.precision + fmt.maxExp) ≤ fmt.roundedSize q := by
  have hn : 0 < q.num.natAbs := Int.natAbs_pos.2 (Rat.num_ne_zero.2 hq)
  have hbinade := binade_bounds q.num.natAbs q.den_pos
  have hle := hs.minExp_le
  rw [guessExp_eq fmt hn q.den_pos] at h
  have he : fmt.gridExp q.num.natAbs q.den =
      binade q.num.natAbs q.den - ((fmt.precision : ℤ) - 1) := by
    rw [gridExp]; omega
  exact le_steps_size hs (le_steps fmt hs hn q.den_pos (by omega)) (by omega)

/-- **Rounding in closed form**: the rounded size with the sign of the rational, or an infinity
where the size is beyond the range. -/
theorem round_eq (hs : fmt.Sane) {q : ℚ} (hq : q ≠ 0) :
    fmt.round q =
      if 2 ^ (fmt.precision + fmt.maxExp) ≤ fmt.roundedSize q then .infinity (decide (q < 0))
      else if fmt.roundedSize q = 0 then if q < 0 then .negZero else .zero
      else .finite (if q < 0 then -fmt.roundedSize q else fmt.roundedSize q) := by
  have hn : 0 < q.num.natAbs := Int.natAbs_pos.2 (Rat.num_ne_zero.2 hq)
  have hexp := roundingExp_eq fmt hn q.den_pos
  have hsteps : roundDiv (shiftedQuotient q.num.natAbs q.den (fmt.gridExp q.num.natAbs q.den)).1
      (shiftedQuotient q.num.natAbs q.den (fmt.gridExp q.num.natAbs q.den)).2 =
        fmt.steps q.num.natAbs q.den := rfl
  have hfull : fmt.steps q.num.natAbs q.den ≤ 2 ^ fmt.precision := steps_le fmt q.den_pos
  have hlow := le_steps fmt hs hn q.den_pos
  have hvalue : _ = fmt.roundedSize q :=
    carry_value hs (fmt.gridExp q.num.natAbs q.den) hfull
  have hrange : _ ↔ _ ≤ fmt.roundedSize q :=
    maxExp_lt_carry_iff hs hfull (minExp_le_gridExp fmt _ _) hlow
  have hzero : (fmt.carry (fmt.steps q.num.natAbs q.den)
      (fmt.gridExp q.num.natAbs q.den)).1 = 0 ↔ fmt.roundedSize q = 0 := by
    rw [← hvalue, mul_eq_zero_iff_right (zpow_pos (by norm_num) _).ne', Nat.cast_eq_zero]
  simp only [round, hq, if_false, hexp, hsteps, scale_eq, Int.cast_natCast, Nat.cast_ofNat, hvalue,
    hzero, hrange, decide_eq_true_eq]
  by_cases hguess : fmt.maxExp < fmt.guessExp q.num.natAbs q.den
  · rw [if_pos hguess, if_pos (le_roundedSize_of_guess hs hq hguess)]
  · rw [if_neg hguess]

/-! ## Values of a format -/

/-- A float that the format holds: one that denotes no rational, or a rational of the format. -/
def Holds (fmt : Format) (x : FloatValue) : Prop := ∀ q, x.toRat? = some q → fmt.Representable q

theorem representable_zero (hs : fmt.Sane) : fmt.Representable 0 :=
  ⟨0, fmt.minExp, by simp, le_rfl, hs.minExp_le, by simp [scale_eq]⟩

theorem Representable.neg {q : ℚ} (h : fmt.Representable q) : fmt.Representable (-q) := by
  obtain ⟨m, e, hm, he, he', rfl⟩ := h
  exact ⟨-m, e, by simpa using hm, he, he', by simp [scale_eq]⟩

/-- **A wider format has the values of a narrower one.** -/
theorem Representable.widen {fmt' : Format} {q : ℚ} (hprecision : fmt.precision ≤ fmt'.precision)
    (hmin : fmt'.minExp ≤ fmt.minExp) (hmax : fmt.maxExp ≤ fmt'.maxExp)
    (h : fmt.Representable q) : fmt'.Representable q := by
  obtain ⟨m, e, hm, he, he', rfl⟩ := h
  exact ⟨m, e, hm.trans_le (Nat.pow_le_pow_right two_pos hprecision), hmin.trans he, he'.trans hmax,
    rfl⟩

/-- A canonical form is a value of the format. -/
theorem Canonical.representable {m e : ℤ} (h : fmt.Canonical m e) :
    fmt.Representable (m * 2 ^ e) :=
  ⟨m, e, h.digits, h.minExp_le, h.le_maxExp, by simp [scale_eq]⟩

/-- **The rounded size has a canonical form where it is in range**, with an even significand if the
count of steps is even. -/
theorem exists_canonical_roundedSize (hs : fmt.Sane) {q : ℚ} (hq : q ≠ 0)
    (h : fmt.roundedSize q < 2 ^ (fmt.precision + fmt.maxExp)) :
    ∃ m e, fmt.Canonical m e ∧ fmt.roundedSize q = m * 2 ^ e ∧
      (Even (fmt.steps q.num.natAbs q.den) → Even m) := by
  have hn : 0 < q.num.natAbs := Int.natAbs_pos.2 (Rat.num_ne_zero.2 hq)
  have hfull : fmt.steps q.num.natAbs q.den ≤ 2 ^ fmt.precision := steps_le fmt q.den_pos
  have hlow := le_steps fmt hs hn q.den_pos
  set m := fmt.steps q.num.natAbs q.den
  set e := fmt.gridExp q.num.natAbs q.den
  have he : fmt.minExp ≤ e := minExp_le_gridExp fmt _ _
  have hmax : (fmt.carry m e).2 ≤ fmt.maxExp :=
    not_lt.1 (mt (maxExp_lt_carry_iff hs hfull he hlow).1 (not_le.2 h))
  refine ⟨(fmt.carry m e).1, (fmt.carry m e).2, canonical_carry hs hfull he hlow hmax, ?_, ?_⟩
  · exact_mod_cast (carry_value hs e hfull).symm
  · intro heven
    rcases carry_cases fmt e hfull with ⟨-, hcarry⟩ | ⟨-, hcarry⟩
    · rw [hcarry]
      exact (Int.even_coe_nat _).2 heven
    · -- half of a full count is even, since the precision is more than one digit
      have hp := hs.one_lt_precision
      have hhalf : 2 ^ fmt.precision / 2 = 2 * 2 ^ (fmt.precision - 2) := by
        rw [two_pow_precision hs, Nat.mul_div_cancel_left _ two_pos, ← pow_succ']
        congr 1
        omega
      rw [hcarry, hhalf]
      exact (Int.even_coe_nat _).2 (even_two_mul _)

/-- The rounded size is a value of the format where it is in range. -/
theorem representable_roundedSize (hs : fmt.Sane) {q : ℚ} (hq : q ≠ 0)
    (h : fmt.roundedSize q < 2 ^ (fmt.precision + fmt.maxExp)) :
    fmt.Representable (fmt.roundedSize q) := by
  obtain ⟨m, e, hc, hsize, -⟩ := exists_canonical_roundedSize hs hq h
  rw [hsize]
  exact hc.representable

/-- **What rounding yields is a value of the format.** -/
theorem holds_round (hs : fmt.Sane) (q : ℚ) : fmt.Holds (fmt.round q) := by
  intro r hr
  by_cases hq : q = 0
  · have : r = 0 := by simpa [round, hq, FloatValue.zero, FloatValue.toRat?, eq_comm] using hr
    rw [this]; exact representable_zero hs
  rw [round_eq hs hq] at hr
  split at hr
  · simp [FloatValue.toRat?] at hr
  · rename_i hlt
    have hrep := representable_roundedSize hs hq (not_le.1 hlt)
    split at hr
    · have : r = 0 := by
        split at hr <;> simpa [FloatValue.zero, FloatValue.toRat?, eq_comm] using hr
      rw [this]; exact representable_zero hs
    · simp only [FloatValue.toRat?, Option.some.injEq] at hr
      rw [← hr]
      split
      · exact hrep.neg
      · exact hrep

end Format

end ConstCheck
