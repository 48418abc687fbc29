import ConstCheck.Proofs.Rounding

/-!
# Rounding is to the nearest value

What correct rounding means, said without a grid: the closest of all values of the format, of two
that are equally close the one with the even significand, and an infinity from half a step beyond
the largest value on. There is one such value, and rounding yields it.

* `Format.IsNearest`, `Format.RoundsTo`: the nearest value, and correct rounding.
* `roundDiv_nearest`: a rounded quotient is the nearest integer, of two the even one.
* `Format.isNearest_roundedSize`: nothing off the grid is closer than the nearest point of it.
* `Format.roundsTo_iff` (every sane format and rational): **rounding is correct**, and nothing else
  is.
* `Format.round_representable`, `Format.round_mono`: values are kept, and so is the order.
* `round_binary32`: what this means for 32 bits, in numbers.
-/

namespace ConstCheck

/-- The place of a value on the line of rationals with both infinities; NaN has none. -/
def FloatValue.place? : FloatValue → Option (WithBot (WithTop ℚ))
  | nan _ _ => none
  | infinity negative => some (if negative then ⊥ else ⊤)
  | negZero => some ((0 : ℚ) : WithTop ℚ)
  | finite q => some (q : WithTop ℚ)

namespace Format

variable {fmt : Format}

/-! ## Correct rounding -/

/-- A value of the format whose significand is even. -/
def EvenValue (fmt : Format) (r : ℚ) : Prop := ∃ m e : ℤ, fmt.Canonical m e ∧ Even m ∧ r = m * 2 ^ e

/-- The value of a format that is nearest to a rational, of two the even one. -/
structure IsNearest (fmt : Format) (q r : ℚ) : Prop where
  representable : fmt.Representable r
  closest : ∀ s, fmt.Representable s → |q - r| ≤ |q - s|
  even_of_tie : ∀ s, fmt.Representable s → s ≠ r → |q - s| = |q - r| → fmt.EvenValue r

/-- What is too large for the format: the largest value and half a step. -/
def overflowBound (fmt : Format) : ℚ := 2 ^ (fmt.precision + fmt.maxExp) - 2 ^ (fmt.maxExp - 1)

/-- **Correct rounding.** The result is the nearest value, a zero with the sign of the rational, or
an infinity with its sign where the rational is too large. -/
inductive RoundsTo (fmt : Format) (q : ℚ) : FloatValue → Prop
  | overflow (h : fmt.overflowBound ≤ |q|) : RoundsTo fmt q (.infinity (decide (q < 0)))
  | nearest {r : ℚ} (h : |q| < fmt.overflowBound) (hr : fmt.IsNearest q r) (hsign : r = 0 → 0 ≤ q) :
    RoundsTo fmt q (.finite r)
  | underflow (h : |q| < fmt.overflowBound) (hr : fmt.IsNearest q 0) (hsign : q < 0) :
    RoundsTo fmt q .negZero

theorem representable_iff {q : ℚ} : fmt.Representable q ↔ ∃ m e : ℤ,
    m.natAbs < 2 ^ fmt.precision ∧ fmt.minExp ≤ e ∧ e ≤ fmt.maxExp ∧ q = m * 2 ^ e := by
  simp [Representable, scale_eq]

theorem EvenValue.neg {r : ℚ} (h : fmt.EvenValue r) : fmt.EvenValue (-r) := by
  obtain ⟨m, e, hc, heven, rfl⟩ := h
  refine ⟨-m, e, ⟨?_, hc.minExp_le, hc.le_maxExp, ?_⟩, heven.neg, by push_cast; ring⟩
  · simpa using hc.digits
  · simpa using hc.normal

/-- A format has the same values on both sides of zero. -/
theorem IsNearest.neg {q r : ℚ} (h : fmt.IsNearest q r) : fmt.IsNearest (-q) (-r) := by
  have hdist : ∀ s : ℚ, |-q - s| = |q - -s| := fun s => by
    rw [← abs_neg]; congr 1; ring
  refine ⟨h.representable.neg, fun s hs => ?_, fun s hs hne heq => ?_⟩
  · rw [hdist, hdist, neg_neg]
    exact h.closest _ hs.neg
  · rw [hdist, hdist, neg_neg] at heq
    exact (h.even_of_tie _ hs.neg (fun hc => hne (by rw [← hc, neg_neg])) heq).neg

/-! ## There is one nearest value -/

/-- A value of a coarse grid lies on every finer one. -/
theorem exists_steps {e f : ℤ} (h : f ≤ e) (m : ℤ) :
    ∃ k : ℤ, (m : ℚ) * 2 ^ e = k * 2 ^ f ∧ (Even m → Even k) := by
  refine ⟨m * 2 ^ (e - f).toNat, ?_, fun hm => hm.mul_right _⟩
  have hexp : e = ((e - f).toNat : ℤ) + f := by omega
  rw [Int.cast_mul, Int.cast_pow, Int.cast_ofNat, mul_assoc, ← zpow_natCast,
    ← zpow_add₀ (by norm_num), ← hexp]

/-- The neighbours of an even significand have no more digits. -/
theorem digits_of_even (hs : fmt.Sane) {m k : ℤ} (hm : m.natAbs < 2 ^ fmt.precision)
    (heven : Even m) (hk : k = m + 1 ∨ k = m - 1) : k.natAbs < 2 ^ fmt.precision := by
  have htwo := two_pow_precision hs
  obtain ⟨i, rfl⟩ := heven
  omega

/-- Between two even values there is another value. -/
theorem exists_between_even (hs : fmt.Sane) {r s : ℚ} (hr : fmt.EvenValue r)
    (hs' : fmt.EvenValue s) (h : r < s) : ∃ t, fmt.Representable t ∧ r < t ∧ t < s := by
  obtain ⟨m, e, hm, hmeven, rfl⟩ := hr
  obtain ⟨n, f, hn, hneven, rfl⟩ := hs'
  rcases le_total e f with hle | hle
  · -- the next value after the lower one
    obtain ⟨k, hk, hkeven⟩ := exists_steps hle n
    have h2e : (0 : ℚ) < 2 ^ e := zpow_pos (by norm_num) e
    rw [hk] at h ⊢
    have hlt : m < k := by exact_mod_cast lt_of_mul_lt_mul_right h h2e.le
    obtain ⟨i, hi⟩ := hmeven
    obtain ⟨j, hj⟩ := hkeven hneven
    refine ⟨(m + 1 : ℤ) * 2 ^ e, representable_iff.2 ⟨m + 1, e,
      digits_of_even hs hm.digits ⟨i, hi⟩ (.inl rfl), hm.minExp_le, hm.le_maxExp, rfl⟩, ?_, ?_⟩
    · exact mul_lt_mul_of_pos_right (by exact_mod_cast lt_add_one m) h2e
    · exact mul_lt_mul_of_pos_right (by exact_mod_cast (by omega : m + 1 < k)) h2e
  · -- the next value before the higher one
    obtain ⟨k, hk, hkeven⟩ := exists_steps hle m
    have h2f : (0 : ℚ) < 2 ^ f := zpow_pos (by norm_num) f
    rw [hk] at h ⊢
    have hlt : k < n := by exact_mod_cast lt_of_mul_lt_mul_right h h2f.le
    obtain ⟨i, hi⟩ := hneven
    obtain ⟨j, hj⟩ := hkeven hmeven
    refine ⟨(n - 1 : ℤ) * 2 ^ f, representable_iff.2 ⟨n - 1, f,
      digits_of_even hs hn.digits ⟨i, hi⟩ (.inr rfl), hn.minExp_le, hn.le_maxExp, rfl⟩, ?_, ?_⟩
    · exact mul_lt_mul_of_pos_right (by exact_mod_cast (by omega : k < n - 1)) h2f
    · exact mul_lt_mul_of_pos_right (by exact_mod_cast sub_one_lt n) h2f

/-- **Nearest values are ordered as the rationals are.** -/
theorem IsNearest.mono (hs : fmt.Sane) {q q' r r' : ℚ} (h : fmt.IsNearest q r)
    (h' : fmt.IsNearest q' r') (hle : q ≤ q') : r ≤ r' := by
  by_contra hlt
  rw [not_le] at hlt
  -- both rationals are in the middle of the two values, which then are both even
  have h1 := h.closest r' h'.representable
  have h2 := h'.closest r h.representable
  have hmid : (r' + r) / 2 ≤ q := by
    rcases le_total r q with hq | hq
    · linarith
    · rw [abs_of_nonpos (by linarith)] at h1
      rcases le_total r' q with hq' | hq'
      · rw [abs_of_nonneg (by linarith)] at h1; linarith
      · rw [abs_of_nonpos (by linarith)] at h1; linarith
  have hmid' : q' ≤ (r' + r) / 2 := by
    rcases le_total q' r' with hq | hq
    · linarith
    · rw [abs_of_nonneg (by linarith)] at h2
      rcases le_total q' r with hq' | hq'
      · rw [abs_of_nonpos (by linarith)] at h2; linarith
      · rw [abs_of_nonneg (by linarith)] at h2; linarith
  have hq : q = (r' + r) / 2 := by linarith
  have hq' : q' = q := by linarith
  have hdist : |q - r'| = |q - r| := by
    rw [hq, abs_of_nonneg (by linarith), abs_of_nonpos (by linarith)]
    ring
  have heven := h.even_of_tie r' h'.representable hlt.ne hdist
  have heven' := h'.even_of_tie r h.representable hlt.ne' (by rw [hq', hdist])
  obtain ⟨t, ht, hrt, htr⟩ := exists_between_even hs heven' heven hlt
  -- what lies between them is closer
  have hcloser : |q - t| < |q - r| := by
    rw [abs_of_nonpos (by linarith : q - r ≤ 0), hq]
    rw [abs_lt]
    constructor <;> linarith
  exact absurd (h.closest t ht) (not_le.2 hcloser)

/-- **There is one nearest value.** -/
theorem IsNearest.unique (hs : fmt.Sane) {q r r' : ℚ} (h : fmt.IsNearest q r)
    (h' : fmt.IsNearest q r') : r = r' :=
  le_antisymm (h.mono hs h' le_rfl) (h'.mono hs h le_rfl)

/-- **There is one correctly rounded value.** -/
theorem RoundsTo.unique (hs : fmt.Sane) {q : ℚ} {x y : FloatValue} (hx : fmt.RoundsTo q x)
    (hy : fmt.RoundsTo q y) : x = y := by
  cases hx with
  | overflow hbig =>
    cases hy with
    | overflow => rfl
    | nearest h | underflow h => exact absurd hbig (not_le.2 h)
  | nearest h hr hsign =>
    cases hy with
    | overflow hbig => exact absurd hbig (not_le.2 h)
    | nearest _ hr' => rw [hr.unique hs hr']
    | underflow _ hr' hneg => exact absurd (hsign (hr.unique hs hr')) (not_le.2 hneg)
  | underflow h hr hneg =>
    cases hy with
    | overflow hbig => exact absurd hbig (not_le.2 h)
    | nearest _ hr' hsign => exact absurd (hsign (hr'.unique hs hr)) (not_le.2 hneg)
    | underflow => rfl

end Format

/-! ## The nearest integer -/

/-- **A rounded quotient is the nearest integer**, of two the even one. -/
theorem roundDiv_nearest (num : ℕ) {den : ℕ} (hd : 0 < den) :
    |(num / den : ℚ) - roundDiv num den| ≤ 1 / 2 ∧
      (|(num / den : ℚ) - roundDiv num den| = 1 / 2 → Even (roundDiv num den)) := by
  have hd' : (0 : ℚ) < den := by exact_mod_cast hd
  set q := num / den with hq
  set r := num % den with hr
  have hnum : (num : ℚ) = den * q + r := by exact_mod_cast (Nat.div_add_mod num den).symm
  have hval : (num / den : ℚ) = q + r / den := by rw [hnum]; field_simp
  -- the part that is left against a half, in both readings
  have hle : den ≤ 2 * r ↔ 1 / 2 ≤ (r / den : ℚ) := by
    rw [le_div_iff₀ hd', ← Nat.cast_le (α := ℚ)]; push_cast; constructor <;> intro h <;> linarith
  have hge : 2 * r ≤ den ↔ (r / den : ℚ) ≤ 1 / 2 := by
    rw [div_le_iff₀ hd', ← Nat.cast_le (α := ℚ)]; push_cast; constructor <;> intro h <;> linarith
  have hnonneg : (0 : ℚ) ≤ r / den := by positivity
  have hlt : (r / den : ℚ) < 1 := by
    rw [div_lt_one hd']; exact_mod_cast Nat.mod_lt num hd
  rw [hval]
  simp only [roundDiv, ← hq, ← hr]
  split
  · rename_i hup
    have hhalf := hle.1 (by omega)
    rw [Nat.cast_succ, add_sub_add_left_eq_sub, abs_of_nonpos (by linarith)]
    refine ⟨by linarith, fun heq => ?_⟩
    have : 2 * r ≤ den := hge.2 (by linarith)
    exact Nat.even_iff.2 (by omega)
  · rename_i hdown
    have hhalf := hge.1 (by omega)
    rw [add_sub_cancel_left, abs_of_nonneg hnonneg]
    refine ⟨hhalf, fun heq => ?_⟩
    have : den ≤ 2 * r := hle.2 (by linarith)
    exact Nat.even_iff.2 (by omega)

/-- All other integers are at least half a step away. -/
theorem half_le_abs_sub {y : ℚ} {m k : ℤ} (h : |y - m| ≤ 1 / 2) (hk : k ≠ m) : 1 / 2 ≤ |y - k| := by
  have hone : (1 : ℚ) ≤ |(m : ℚ) - k| := by
    exact_mod_cast Int.one_le_abs (sub_ne_zero.2 hk.symm)
  have htri : |(m : ℚ) - k| ≤ |(m : ℚ) - y| + |y - k| := abs_sub_le _ _ _
  rw [abs_sub_comm (m : ℚ) y] at htri
  linarith

namespace Format

variable {fmt : Format} {q : ℚ}

/-! ## The nearest point of the grid -/

/-- A rational as a count of steps of its grid. -/
def gridSteps (fmt : Format) (q : ℚ) : ℚ := |q| / 2 ^ fmt.gridExp q.num.natAbs q.den

theorem abs_eq_natAbs_div (q : ℚ) : |q| = q.num.natAbs / q.den := by
  rw [Rat.abs_def, Rat.divInt_eq_div]; simp

theorem gridSteps_mul (fmt : Format) (q : ℚ) :
    fmt.gridSteps q * 2 ^ fmt.gridExp q.num.natAbs q.den = |q| :=
  div_mul_cancel₀ _ (zpow_pos (by norm_num) _).ne'

/-- The count of steps is rounded to the nearest integer, of two the even one. -/
theorem steps_nearest (fmt : Format) (q : ℚ) :
    |fmt.gridSteps q - fmt.steps q.num.natAbs q.den| ≤ 1 / 2 ∧
      (|fmt.gridSteps q - fmt.steps q.num.natAbs q.den| = 1 / 2 →
        Even (fmt.steps q.num.natAbs q.den)) := by
  have hpos : 0 < (shiftedQuotient q.num.natAbs q.den (fmt.gridExp q.num.natAbs q.den)).2 :=
    shiftedQuotient_pos q.den_pos _
  have h := roundDiv_nearest
    (shiftedQuotient q.num.natAbs q.den (fmt.gridExp q.num.natAbs q.den)).1 hpos
  rw [shiftedQuotient_eq, ← abs_eq_natAbs_div] at h
  exact h

/-- A distance on the grid is a number of steps. -/
theorem abs_sub_grid (fmt : Format) (q : ℚ) (k : ℤ) :
    |(|q| - k * 2 ^ fmt.gridExp q.num.natAbs q.den)| =
      |fmt.gridSteps q - k| * 2 ^ fmt.gridExp q.num.natAbs q.den := by
  have h2e : (0 : ℚ) < 2 ^ fmt.gridExp q.num.natAbs q.den := zpow_pos (by norm_num) _
  rw [← gridSteps_mul fmt q, ← sub_mul, abs_mul, abs_of_pos h2e]

/-- **A value of the format is a point of the grid**, or it lies below the binade of the rational,
where a point of the grid is closer. -/
theorem representable_cases (hs : fmt.Sane) (hq : q ≠ 0) {s : ℚ} (h : fmt.Representable s) :
    ∃ k : ℤ, s = k * 2 ^ fmt.gridExp q.num.natAbs q.den ∨
      s < k * 2 ^ fmt.gridExp q.num.natAbs q.den ∧
        k * 2 ^ fmt.gridExp q.num.natAbs q.den ≤ |q| := by
  have hn : 0 < q.num.natAbs := Int.natAbs_pos.2 (Rat.num_ne_zero.2 hq)
  set e := fmt.gridExp q.num.natAbs q.den with he
  have h2e : (0 : ℚ) < 2 ^ e := zpow_pos (by norm_num) e
  obtain ⟨m, f, hm, hf, -, rfl⟩ := representable_iff.1 h
  rcases le_or_gt e f with hle | hlt
  · obtain ⟨k, hk, -⟩ := exists_steps hle m
    exact ⟨k, .inl hk⟩
  · -- the lower end of the binade
    refine ⟨2 ^ (fmt.precision - 1), .inr ⟨?_, ?_⟩⟩
    · have h2f : (0 : ℚ) < 2 ^ f := zpow_pos (by norm_num) f
      have hm' : (m : ℚ) < 2 ^ (fmt.precision : ℤ) := by
        rw [zpow_natCast]
        exact_mod_cast (by omega : m < (2 ^ fmt.precision : ℕ))
      calc (m : ℚ) * 2 ^ f
        _ < 2 ^ (fmt.precision : ℤ) * 2 ^ f := mul_lt_mul_of_pos_right hm' h2f
        _ = 2 ^ ((fmt.precision : ℤ) + f) := (zpow_add₀ (by norm_num) _ _).symm
        _ ≤ 2 ^ (((fmt.precision - 1 : ℕ) : ℤ) + e) := by
          have := hs.precision_pos
          exact zpow_le_zpow_right₀ (by norm_num) (by omega)
        _ = ((2 ^ (fmt.precision - 1) : ℤ) : ℚ) * 2 ^ e := by
          rw [zpow_add₀ (by norm_num), zpow_natCast]; push_cast; rfl
    · have hlow := le_gridSteps hs hn q.den_pos (lt_of_le_of_lt hf hlt)
      rw [← abs_eq_natAbs_div, ← he, le_div_iff₀ h2e] at hlow
      exact_mod_cast hlow

/-- The rounded size against any other value: it is closer, or as close and then the count of steps
is even. -/
theorem roundedSize_closest (hs : fmt.Sane) (hq : q ≠ 0) {s : ℚ} (h : fmt.Representable s) :
    |(|q| - fmt.roundedSize q)| ≤ |(|q| - s)| ∧
      (s ≠ fmt.roundedSize q → |(|q| - s)| = |(|q| - fmt.roundedSize q)| →
        Even (fmt.steps q.num.natAbs q.den)) := by
  obtain ⟨hhalf, htie⟩ := steps_nearest fmt q
  have hsize := abs_sub_grid fmt q (fmt.steps q.num.natAbs q.den)
  have h2e : (0 : ℚ) < 2 ^ fmt.gridExp q.num.natAbs q.den := zpow_pos (by norm_num) _
  rw [Int.cast_natCast] at hsize
  change |(|q| - fmt.roundedSize q)| = _ at hsize
  -- a point of the grid is at least as far away, and no closer than half a step if it is another
  have hgrid : ∀ k : ℤ, k ≠ (fmt.steps q.num.natAbs q.den : ℤ) →
      1 / 2 ≤ |fmt.gridSteps q - k| := fun k hk =>
    half_le_abs_sub (by simpa using hhalf) hk
  obtain ⟨k, rfl | ⟨hlt, hle⟩⟩ := representable_cases hs hq h
  · rw [hsize, abs_sub_grid]
    by_cases hk : k = (fmt.steps q.num.natAbs q.den : ℤ)
    · subst hk
      exact ⟨by simp, fun hne => absurd (by simp [roundedSize]) hne⟩
    · have hother := hgrid k hk
      refine ⟨mul_le_mul_of_nonneg_right (hhalf.trans hother) h2e.le, fun _ heq => ?_⟩
      have heq' := mul_right_cancel₀ h2e.ne' heq
      exact htie (by linarith)
  · -- the lower end of the binade is on the grid, and closer than `s`
    have hend : |(|q| - fmt.roundedSize q)| ≤
        |(|q| - k * 2 ^ fmt.gridExp q.num.natAbs q.den)| := by
      rw [hsize, abs_sub_grid]
      by_cases hk : k = (fmt.steps q.num.natAbs q.den : ℤ)
      · subst hk; simp
      · exact mul_le_mul_of_nonneg_right (hhalf.trans (hgrid k hk)) h2e.le
    rw [abs_of_nonneg (by linarith : 0 ≤ |q| - k * 2 ^ fmt.gridExp q.num.natAbs q.den)] at hend
    have hstrict : |(|q| - fmt.roundedSize q)| < |(|q| - s)| := by
      rw [abs_of_nonneg (by linarith : 0 ≤ |q| - s)]
      linarith
    exact ⟨hstrict.le, fun _ heq => absurd heq hstrict.ne'⟩

/-- **The rounded size is the nearest value to the size**, if it is in range. -/
theorem isNearest_roundedSize (hs : fmt.Sane) (hq : q ≠ 0)
    (h : fmt.roundedSize q < 2 ^ (fmt.precision + fmt.maxExp)) :
    fmt.IsNearest |q| (fmt.roundedSize q) := by
  refine ⟨representable_roundedSize hs hq h, fun s hrep => (roundedSize_closest hs hq hrep).1,
    fun s hrep hne heq => ?_⟩
  obtain ⟨m, e, hc, hsize, heven⟩ := exists_canonical_roundedSize hs hq h
  exact ⟨m, e, hc, heven ((roundedSize_closest hs hq hrep).2 hne heq), hsize⟩

/-! ## The ends of the range -/

/-- The bound as a count of steps of the coarsest grid. -/
theorem overflowBound_eq (fmt : Format) :
    fmt.overflowBound = ((2 : ℚ) ^ fmt.precision - 1 / 2) * 2 ^ fmt.maxExp := by
  rw [overflowBound, zpow_add₀ (by norm_num), zpow_sub_one₀ (by norm_num), zpow_natCast]
  ring

/-- A count that rounds to an even integer or more is at most half a step below it. -/
theorem le_steps_iff (fmt : Format) (q : ℚ) {k : ℕ} (hk : Even k) :
    k ≤ fmt.steps q.num.natAbs q.den ↔ (k : ℚ) - 1 / 2 ≤ fmt.gridSteps q := by
  obtain ⟨hhalf, htie⟩ := steps_nearest fmt q
  set m := fmt.steps q.num.natAbs q.den
  have hbounds := abs_le.1 hhalf
  constructor
  · intro hle
    have : (k : ℚ) ≤ m := by exact_mod_cast hle
    linarith
  · intro hle
    by_contra hlt
    rw [not_le] at hlt
    have hm : (m : ℚ) ≤ k - 1 := by
      have : m + 1 ≤ k := hlt
      have : (m : ℚ) + 1 ≤ k := by exact_mod_cast this
      linarith
    -- then the count is in the middle, and the lower integer is odd
    have hmeq : (m : ℚ) = k - 1 := by linarith
    have hsteps : fmt.gridSteps q - m = 1 / 2 := by linarith
    have heven := htie (by rw [hsteps]; norm_num)
    have hsucc : k = m + 1 := by
      have : (k : ℚ) = (m + 1 : ℕ) := by push_cast; linarith
      exact_mod_cast this
    rw [hsucc] at hk
    exact Nat.not_even_iff_odd.2 heven.add_one hk

theorem overflowBound_le (fmt : Format) : fmt.overflowBound ≤ 2 ^ (fmt.precision + fmt.maxExp) := by
  have hpos : (0 : ℚ) < 2 ^ (fmt.maxExp - 1) := zpow_pos (by norm_num) _
  rw [overflowBound]
  linarith

theorem overflowBound_pos (fmt : Format) : 0 < fmt.overflowBound := by
  have hpow : (1 : ℚ) ≤ 2 ^ fmt.precision := one_le_pow₀ (by norm_num)
  rw [overflowBound_eq]
  exact mul_pos (by linarith) (zpow_pos (by norm_num) _)

/-- A finer grid ends below the bound. -/
theorem full_count_lt_overflowBound (hs : fmt.Sane) {e : ℤ} (he : e < fmt.maxExp) :
    (2 : ℚ) ^ fmt.precision * 2 ^ e < fmt.overflowBound := by
  have hmax : (0 : ℚ) < 2 ^ fmt.maxExp := zpow_pos (by norm_num) _
  have hpow : (1 : ℚ) < 2 ^ fmt.precision := one_lt_pow₀ (by norm_num) hs.precision_pos.ne'
  have hexp : (2 : ℚ) ^ e ≤ 2 ^ fmt.maxExp * 2⁻¹ := by
    rw [← zpow_sub_one₀ (by norm_num)]
    exact zpow_le_zpow_right₀ (by norm_num) (by omega)
  calc (2 : ℚ) ^ fmt.precision * 2 ^ e
    _ ≤ 2 ^ fmt.precision * (2 ^ fmt.maxExp * 2⁻¹) := mul_le_mul_of_nonneg_left hexp (by positivity)
    _ = (2 ^ fmt.precision * 2⁻¹) * 2 ^ fmt.maxExp := by ring
    _ < (2 ^ fmt.precision - 1 / 2) * 2 ^ fmt.maxExp :=
      mul_lt_mul_of_pos_right (by linarith) hmax
    _ = fmt.overflowBound := (overflowBound_eq fmt).symm

/-- **What rounds beyond the range** is too large by half a step at least. -/
theorem range_le_roundedSize_iff (hs : fmt.Sane) (hq : q ≠ 0) :
    2 ^ (fmt.precision + fmt.maxExp) ≤ fmt.roundedSize q ↔ fmt.overflowBound ≤ |q| := by
  have hn : 0 < q.num.natAbs := Int.natAbs_pos.2 (Rat.num_ne_zero.2 hq)
  have hsteps := gridSteps_mul fmt q
  have hfull : fmt.steps q.num.natAbs q.den ≤ 2 ^ fmt.precision := steps_le fmt q.den_pos
  have hlt : fmt.gridSteps q < 2 ^ fmt.precision := by
    rw [gridSteps, abs_eq_natAbs_div]; exact gridSteps_lt fmt _ q.den_pos
  have hle := hs.minExp_le
  have h2e : (0 : ℚ) < 2 ^ fmt.gridExp q.num.natAbs q.den := zpow_pos (by norm_num) _
  rcases lt_trichotomy (fmt.gridExp q.num.natAbs q.den) fmt.maxExp with he | he | he
  · -- a finer grid ends below both bounds
    have hend := full_count_lt_overflowBound hs he
    refine iff_of_false (not_le.2 ?_) (not_le.2 ?_)
    · calc fmt.roundedSize q
        _ ≤ 2 ^ fmt.precision * 2 ^ fmt.gridExp q.num.natAbs q.den :=
          mul_le_mul_of_nonneg_right (by exact_mod_cast hfull) h2e.le
        _ < 2 ^ (fmt.precision + fmt.maxExp) := hend.trans_le (overflowBound_le fmt)
    · calc |q|
        _ = fmt.gridSteps q * 2 ^ fmt.gridExp q.num.natAbs q.den := hsteps.symm
        _ < 2 ^ fmt.precision * 2 ^ fmt.gridExp q.num.natAbs q.den :=
          mul_lt_mul_of_pos_right hlt h2e
        _ < fmt.overflowBound := hend
  · -- on the coarsest grid a full count of steps is one too many
    have heven : Even (2 ^ fmt.precision) := by rw [two_pow_precision hs]; exact even_two_mul _
    have hiff := le_steps_iff fmt q heven
    rw [he] at hsteps h2e
    rw [overflowBound_eq, ← hsteps, roundedSize, he, zpow_add₀ (by norm_num), zpow_natCast,
      mul_le_mul_iff_left₀ h2e, mul_le_mul_iff_left₀ h2e]
    exact_mod_cast hiff
  · -- a coarser grid starts beyond both bounds
    have hlow := le_steps fmt hs hn q.den_pos (by omega)
    have hbinade := two_zpow_binade_le hn q.den_pos
    rw [← abs_eq_natAbs_div] at hbinade
    have hge : (2 : ℚ) ^ (fmt.precision + fmt.maxExp) ≤ 2 ^ binade q.num.natAbs q.den := by
      simp only [gridExp] at he
      exact zpow_le_zpow_right₀ (by norm_num) (by omega)
    exact iff_of_true (le_steps_size hs hlow (by omega))
      ((overflowBound_le fmt).trans (hge.trans hbinade))

/-- A count that rounds to zero is at most half a step. -/
theorem steps_eq_zero_iff (fmt : Format) (q : ℚ) :
    fmt.steps q.num.natAbs q.den = 0 ↔ fmt.gridSteps q ≤ 1 / 2 := by
  obtain ⟨hhalf, htie⟩ := steps_nearest fmt q
  constructor
  · intro h
    rw [h, Nat.cast_zero, sub_zero] at hhalf
    exact (le_abs_self _).trans hhalf
  · intro h
    by_contra hne
    have hone : (1 : ℚ) ≤ fmt.steps q.num.natAbs q.den := by
      exact_mod_cast Nat.one_le_iff_ne_zero.2 hne
    -- then the count is in the middle, and the integer is odd
    have hlow := (abs_le.1 hhalf).1
    have heq : (fmt.steps q.num.natAbs q.den : ℚ) = 1 := by linarith
    have hdist : fmt.gridSteps q - fmt.steps q.num.natAbs q.den = -(1 / 2) := by linarith
    have heven := htie (by rw [hdist, abs_neg]; norm_num)
    rw [show fmt.steps q.num.natAbs q.den = 1 by exact_mod_cast heq] at heven
    exact Nat.not_even_one heven

/-- **What rounds to zero** is at most half of the least step. -/
theorem roundedSize_eq_zero_iff (hs : fmt.Sane) (hq : q ≠ 0) :
    fmt.roundedSize q = 0 ↔ |q| ≤ 2 ^ (fmt.minExp - 1) := by
  have hn : 0 < q.num.natAbs := Int.natAbs_pos.2 (Rat.num_ne_zero.2 hq)
  have h2e : (0 : ℚ) < 2 ^ fmt.gridExp q.num.natAbs q.den := zpow_pos (by norm_num) _
  have hsteps := gridSteps_mul fmt q
  rw [roundedSize, mul_eq_zero_iff_right h2e.ne', Nat.cast_eq_zero, steps_eq_zero_iff]
  rcases (minExp_le_gridExp fmt q.num.natAbs q.den).lt_or_eq with hlt | heq
  · -- above the least exponent no rational is that small
    have hlow := le_gridSteps hs hn q.den_pos hlt
    rw [← abs_eq_natAbs_div] at hlow
    change _ ≤ fmt.gridSteps q at hlow
    have hone : (1 : ℚ) ≤ 2 ^ (fmt.precision - 1) := one_le_pow₀ (by norm_num)
    refine iff_of_false (by linarith) (not_le.2 ?_)
    calc (2 : ℚ) ^ (fmt.minExp - 1)
      _ < 2 ^ fmt.gridExp q.num.natAbs q.den := zpow_lt_zpow_right₀ (by norm_num) (by omega)
      _ ≤ fmt.gridSteps q * 2 ^ fmt.gridExp q.num.natAbs q.den :=
        le_mul_of_one_le_left h2e.le (hone.trans hlow)
      _ = |q| := hsteps
  · rw [heq, zpow_sub_one₀ (by norm_num), ← hsteps, mul_comm (2 ^ _ : ℚ), ← one_div,
      mul_le_mul_iff_left₀ h2e]

/-! ## Rounding -/

theorem isNearest_zero (hs : fmt.Sane) : fmt.IsNearest 0 0 := by
  refine ⟨representable_zero hs, fun s _ => by simp, fun s _ hne heq => absurd ?_ hne⟩
  simpa using heq

/-- **Rounding is correct.** -/
theorem roundsTo_round (hs : fmt.Sane) (q : ℚ) : fmt.RoundsTo q (fmt.round q) := by
  by_cases hq : q = 0
  · subst hq
    have hzero : fmt.round 0 = .finite 0 := by simp [round, FloatValue.zero]
    rw [hzero]
    exact .nearest (by simpa using overflowBound_pos fmt) (isNearest_zero hs) fun _ => le_rfl
  rw [round_eq hs hq]
  split
  · rename_i hbig
    exact .overflow ((range_le_roundedSize_iff hs hq).1 hbig)
  · rename_i hsmall
    have hlt : |q| < fmt.overflowBound :=
      not_le.1 (mt (range_le_roundedSize_iff hs hq).2 hsmall)
    have hnear := isNearest_roundedSize hs hq (not_le.1 hsmall)
    -- the size and the rational differ in the sign alone
    have hsigned : fmt.IsNearest q (if q < 0 then -fmt.roundedSize q else fmt.roundedSize q) := by
      split
      · rename_i hneg
        have h := hnear.neg
        rwa [abs_of_neg hneg, neg_neg] at h
      · rename_i hpos
        rwa [abs_of_nonneg (not_lt.1 hpos)] at hnear
    split
    · rename_i hzero
      rw [hzero] at hsigned
      simp only [neg_zero, ite_self] at hsigned
      split
      · rename_i hneg
        exact .underflow hlt hsigned hneg
      · rename_i hpos
        exact .nearest hlt hsigned fun _ => not_lt.1 hpos
    · rename_i hne
      refine .nearest hlt hsigned fun hzero => absurd ?_ hne
      split at hzero
      · exact neg_eq_zero.1 hzero
      · exact hzero

/-- **Rounding is correct, and nothing else is.** -/
theorem roundsTo_iff (hs : fmt.Sane) {x : FloatValue} : fmt.RoundsTo q x ↔ x = fmt.round q :=
  ⟨fun h => h.unique hs (roundsTo_round hs q), fun h => h ▸ roundsTo_round hs q⟩

theorem RoundsTo.cases {x : FloatValue} (h : fmt.RoundsTo q x) :
    fmt.overflowBound ≤ |q| ∧ x = .infinity (decide (q < 0)) ∨
      |q| < fmt.overflowBound ∧ ∃ r, fmt.IsNearest q r ∧ x.toRat? = some r ∧
        x.place? = some (r : WithTop ℚ) := by
  cases h with
  | overflow hbig => exact .inl ⟨hbig, rfl⟩
  | nearest hlt hr => exact .inr ⟨hlt, _, hr, rfl, rfl⟩
  | underflow hlt hr => exact .inr ⟨hlt, 0, hr, rfl, rfl⟩

/-- **Rounding keeps the order**, infinities and zeros included. -/
theorem RoundsTo.mono (hs : fmt.Sane) {q' : ℚ} {x y : FloatValue} (hx : fmt.RoundsTo q x)
    (hy : fmt.RoundsTo q' y) (hle : q ≤ q') :
    ∃ a b, x.place? = some a ∧ y.place? = some b ∧ a ≤ b := by
  have hpos := overflowBound_pos fmt
  rcases hx.cases with ⟨hbig, rfl⟩ | ⟨hlt, r, hr, -, hxr⟩
  · by_cases hneg : q < 0
    · -- the negative infinity is below everything
      rcases hy.cases with ⟨-, rfl⟩ | ⟨-, s, -, -, hys⟩
      · exact ⟨⊥, _, by simp [FloatValue.place?, hneg], rfl, bot_le⟩
      · exact ⟨⊥, _, by simp [FloatValue.place?, hneg], hys, bot_le⟩
    · rw [not_lt] at hneg
      have hbig' : fmt.overflowBound ≤ |q'| := by
        rw [abs_of_nonneg hneg] at hbig
        rw [abs_of_nonneg (hneg.trans hle)]
        linarith
      rcases hy.cases with ⟨-, rfl⟩ | ⟨hlt', -⟩
      · refine ⟨⊤, ⊤, ?_, ?_, le_rfl⟩ <;>
          simp [FloatValue.place?, not_lt.2 hneg, not_lt.2 (hneg.trans hle)]
      · exact absurd hbig' (not_le.2 hlt')
  · rcases hy.cases with ⟨hbig', rfl⟩ | ⟨-, s, hs', -, hys⟩
    · by_cases hneg : q' < 0
      · rw [abs_of_neg hneg] at hbig'
        rw [abs_of_neg (lt_of_le_of_lt hle hneg)] at hlt
        linarith
      · exact ⟨_, ⊤, hxr, by simp [FloatValue.place?, hneg], le_top⟩
    · refine ⟨_, _, hxr, hys, ?_⟩
      exact_mod_cast hr.mono hs hs' hle

theorem round_mono (hs : fmt.Sane) {q' : ℚ} (hle : q ≤ q') :
    ∃ a b, (fmt.round q).place? = some a ∧ (fmt.round q').place? = some b ∧ a ≤ b :=
  (roundsTo_round hs q).mono hs (roundsTo_round hs q') hle

/-- The values of a format are not too large for it. -/
theorem Representable.lt_overflowBound (h : fmt.Representable q) : |q| < fmt.overflowBound := by
  obtain ⟨m, e, hm, -, he, rfl⟩ := representable_iff.1 h
  have h2e : (0 : ℚ) < 2 ^ e := zpow_pos (by norm_num) e
  have hmax : (0 : ℚ) < 2 ^ fmt.maxExp := zpow_pos (by norm_num) _
  have hm' : |(m : ℚ)| ≤ 2 ^ fmt.precision - 1 := by
    have hnat : (m.natAbs : ℚ) + 1 ≤ 2 ^ fmt.precision := by exact_mod_cast hm
    rw [Nat.cast_natAbs, Int.cast_abs] at hnat
    linarith
  rw [abs_mul, abs_of_pos h2e, overflowBound_eq]
  calc |(m : ℚ)| * 2 ^ e
    _ ≤ |(m : ℚ)| * 2 ^ fmt.maxExp :=
      mul_le_mul_of_nonneg_left (zpow_le_zpow_right₀ (by norm_num) he) (abs_nonneg _)
    _ < (2 ^ fmt.precision - 1 / 2) * 2 ^ fmt.maxExp :=
      mul_lt_mul_of_pos_right (by linarith) hmax

/-- **A value of the format rounds to itself.** -/
theorem round_representable (hs : fmt.Sane) {r : ℚ} (h : fmt.Representable r) :
    fmt.round r = .finite r := by
  refine ((roundsTo_iff hs).1 (.nearest h.lt_overflowBound ⟨h, fun s _ => by simp, ?_⟩ ?_)).symm
  · intro s _ hne heq
    refine absurd ?_ hne
    rw [sub_self, abs_zero, abs_eq_zero, sub_eq_zero] at heq
    exact heq.symm
  · exact fun hzero => hzero.ge

/-- **What rounds to zero.** -/
theorem toRat?_round_eq_zero_iff (hs : fmt.Sane) (q : ℚ) :
    (fmt.round q).toRat? = some 0 ↔ |q| ≤ 2 ^ (fmt.minExp - 1) := by
  by_cases hq : q = 0
  · subst hq
    simp [round, FloatValue.zero, FloatValue.toRat?, zpow_nonneg]
  rw [← roundedSize_eq_zero_iff hs hq, round_eq hs hq]
  split
  · rename_i hbig
    have hpos : (0 : ℚ) < 2 ^ (fmt.precision + fmt.maxExp) := zpow_pos (by norm_num) _
    exact iff_of_false (by simp [FloatValue.toRat?]) (by linarith)
  · split
    · rename_i hzero
      refine iff_of_true ?_ hzero
      split <;> rfl
    · rename_i hne
      refine iff_of_false ?_ hne
      split <;> simpa [FloatValue.toRat?] using hne

/-- **A zero keeps the sign** of what rounds to it. -/
theorem round_eq_of_toRat?_eq_zero (hs : fmt.Sane) (h : (fmt.round q).toRat? = some 0) :
    fmt.round q = if q < 0 then .negZero else .zero := by
  have hround := roundsTo_round hs q
  cases hx : fmt.round q with
  | nan _ _ | infinity _ => rw [hx] at h; cases h
  | negZero =>
    rw [hx] at hround
    cases hround with
    | underflow _ _ hneg => rw [if_pos hneg]
  | finite r =>
    rw [hx] at h hround
    obtain rfl : r = 0 := by simpa [FloatValue.toRat?] using h
    cases hround with
    | nearest _ _ hsign => rw [if_neg (not_lt.2 (hsign rfl))]; rfl

/-- **An infinity has the sign** of what is too large. -/
theorem round_eq_infinity_iff (hs : fmt.Sane) {negative : Bool} :
    fmt.round q = .infinity negative ↔ fmt.overflowBound ≤ |q| ∧ negative = decide (q < 0) := by
  constructor
  · intro hx
    rcases (roundsTo_round hs q).cases with ⟨hbig, h⟩ | ⟨-, r, -, h, -⟩
    · rw [hx] at h
      exact ⟨hbig, FloatValue.infinity.inj h⟩
    · rw [hx] at h
      cases h
  · rintro ⟨hbig, rfl⟩
    exact (.overflow hbig : fmt.RoundsTo q _) |> (roundsTo_iff hs).1 |>.symm

end Format

/-! ## Thirty-two bits -/

/-- **Rounding to 32 bits is correct**: to the nearest value, a tie to the even significand, in one
step, over the whole line.

It is an infinity from half a step beyond the largest value on, it keeps all values, the subnormal
ones too, it is a zero up to half of the least of them, and zeros and infinities have the sign of
the rational. So it keeps the order. -/
theorem round_binary32 (q : ℚ) :
    (∀ x, Format.binary32.RoundsTo q x ↔ x = Format.binary32.round q) ∧
    (∀ negative, Format.binary32.round q = .infinity negative ↔
      2 ^ 128 - 2 ^ 103 ≤ |q| ∧ negative = decide (q < 0)) ∧
    (∀ m e : ℤ, |m| < 2 ^ 24 → -149 ≤ e → e ≤ 104 → q = m * 2 ^ e →
      Format.binary32.round q = .finite q) ∧
    ((Format.binary32.round q).toRat? = some 0 ↔ |q| ≤ 2 ^ (-150 : ℤ)) ∧
    ((Format.binary32.round q).toRat? = some 0 →
      Format.binary32.round q = if q < 0 then .negZero else .finite 0) ∧
    (∀ q', q ≤ q' → ∃ a b, (Format.binary32.round q).place? = some a ∧
      (Format.binary32.round q').place? = some b ∧ a ≤ b) := by
  have hs := Format.sane_binary32
  have hbound : Format.binary32.overflowBound = 2 ^ 128 - 2 ^ 103 := by
    simp [Format.overflowBound, Format.binary32]
  refine ⟨fun x => Format.roundsTo_iff hs, fun negative => ?_, ?_, ?_,
    Format.round_eq_of_toRat?_eq_zero hs, fun q' hle => Format.round_mono hs hle⟩
  · rw [← hbound]
    exact Format.round_eq_infinity_iff hs
  · rintro m e hm he he' rfl
    refine Format.round_representable hs (Format.representable_iff.2 ⟨m, e, ?_, he, he', rfl⟩)
    rw [Int.abs_eq_natAbs] at hm
    show m.natAbs < 2 ^ 24
    omega
  · exact Format.toRat?_round_eq_zero_iff hs q

/-- Halfway between two values the even one is taken, so that a step to the next tie is twice as
long; a subnormal value is kept. -/
theorem round_binary32_halfway :
    Format.binary32.RoundsTo 16777217 (.finite 16777216) ∧
    Format.binary32.RoundsTo 16777219 (.finite 16777220) ∧
    Format.binary32.round (3 * 2 ^ (-149 : ℤ)) = .finite (3 * 2 ^ (-149 : ℤ)) ∧
    ∃ a b, (Format.binary32.round 16777217).place? = some a ∧
      (Format.binary32.round 16777219).place? = some b ∧ a ≤ b := by
  obtain ⟨hround, -, -, -, -, hmono⟩ := round_binary32 16777217
  exact ⟨(hround _).2 (by decide +kernel), ((round_binary32 16777219).1 _).2 (by decide +kernel),
    (round_binary32 _).2.2.1 3 (-149) (by norm_num) le_rfl (by norm_num) rfl,
    hmono 16777219 (by norm_num)⟩

end ConstCheck
