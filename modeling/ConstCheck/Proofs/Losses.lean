import ConstCheck.Proofs.Machine
import ConstCheck.Proofs.Nearest
import ConstCheck.Proofs.Wrapping

/-!
# What narrowing loses

The errors of narrowing tell exactly what is lost: to an integer type the fraction or imaginary part
and the range, to a float type the precision or the range. So there is no error if and only if the
type holds the number, and then narrowing finds it.

* `Number.narrow_integer_errors`, `Number.narrow_float_eq`: value and errors, by families of types.
* `UntypedConst.narrow_refuses_iff`: narrowing refuses the kinds that do not convert.
* `Number.narrow_of_value`: **narrowing finds the value that a type has for a number**, without an
  error.
* `UntypedConst.narrow_reports` (every constant, type and word): **what narrowing yields and
  reports**.
-/

namespace ConstCheck

/-- Floats that denote one rational are equal as numbers. -/
theorem FloatValue.numericEq_of_toRat? {x y : FloatValue} {q : ℚ} (hx : x.toRat? = some q)
    (hy : y.toRat? = some q) : x.numericEq y := by
  cases x <;> cases y <;> simp_all [toRat?, numericEq]

namespace Number

variable {n : Number} {ty : Ty} {word : WordSize}

open Classical in
/-- The errors of narrowing to integers, in their order: what is no integer is truncated, what is
out of range overflows. -/
theorem narrow_integer_errors (hint : ty.isIntegral) (n : Number) (word : WordSize) :
    (n.narrow ty word).2 =
      (if ∃ i : ℤ, n.re = i ∧ n.im = 0 then [] else [.truncated n .int]) ++
        (if InWord ty.isSigned (ty.width word) (truncate n.re) then []
          else [.overflowed n ty]) := by
  rw [(narrow_integer hint n word).2, truncated_eq, if_congr isWhole_iff_exists rfl rfl]

/-- **An integer in range is the value that narrowing finds.** -/
theorem narrow_integer_eq (hint : ty.isIntegral) {i : ℤ} (hre : n.re = i)
    (hin : InWord ty.isSigned (ty.width word) i) :
    (n.narrow ty word).1 = ⟨ty, if ty.isSigned then .int i else .uint i.toNat⟩ := by
  have hty := n.narrow_ty ty word
  have hfits := n.narrow_fits ty word
  have hpattern := (narrow_integer hint n word).1
  rw [TypedValue.pattern_eq, truncated_eq, hre, truncate_intCast] at hpattern
  generalize (n.narrow ty word).1 = v at hty hfits hpattern
  subst hty
  -- the value has the word of the integer, and both are in range
  obtain ⟨hvalue, hin'⟩ := TypedValue.value_of_fits hint hfits
  have hinteger : v.integer = i :=
    (word_order (Ty.width_bounds word hint).1 hin' hin).1.1 hpattern
  rw [← hinteger, ← hvalue]

/-- **Narrowing to floats** yields the correctly rounded value, with an error if that is an infinity
or not the number. -/
theorem narrow_float_eq (hf : ty.category = .float) {x : FloatValue}
    (hx : ty.format.RoundsTo n.re x) (word : WordSize) :
    n.narrow ty word = (⟨ty, .float x⟩,
      if x.isInfinite then [.overflowed n ty]
      else if x.toRat? = some n.re ∧ n.im = 0 then [] else [.truncated n .float]) := by
  obtain rfl := (Format.roundsTo_iff ty.sane_format).1 hx
  rw [narrow_of_float hf]
  congr 1
  simp only [Narrowed.losses, toFloat, isRealValued]
  by_cases hinf : (ty.format.round n.re).isInfinite
  · simp [hinf]
  · by_cases hq : (ty.format.round n.re).toRat? = some n.re <;> by_cases him : n.im = 0 <;>
      simp [hinf, hq, him]

end Number

/-- A number that a typed value denotes. -/
def TypedValue.Denotes (v : TypedValue) (n : Number) : Prop :=
  ∃ m, v.number? = some m ∧ m.re = n.re ∧ m.im = n.im

namespace TypedValue

variable {v : TypedValue} {n : Number} {word : WordSize}

/-- A value that fits an integer type and denotes a number: the number is an integer in range. -/
theorem Denotes.integer (h : v.Denotes n) (hv : v.Fits word) (hint : v.ty.isIntegral) :
    ∃ i : ℤ, v.value = (if v.ty.isSigned then .int i else .uint i.toNat) ∧ n.re = i ∧ n.im = 0 ∧
      InWord v.ty.isSigned (v.ty.width word) i := by
  obtain ⟨hvalue, hin⟩ := value_of_fits hint hv
  obtain ⟨m, hm, hre, him⟩ := h
  rw [(number?_of_fits hint hv).1, Option.some.injEq] at hm
  subst hm
  exact ⟨v.integer, hvalue, hre.symm, him.symm, hin⟩

/-- A value that fits a float type and denotes a number: the number is real, and a value of the
format. -/
theorem Denotes.float (h : v.Denotes n) (hv : v.Fits word) (hf : v.ty.category = .float) :
    ∃ x, v.value = .float x ∧ x.toRat? = some n.re ∧ v.ty.format.Representable n.re ∧
      n.im = 0 := by
  simp only [Fits, hf] at hv
  obtain ⟨x, hx, hholds⟩ := hv
  obtain ⟨m, hm, hre, him⟩ := h
  simp only [number?, hx, Number.ofFloat?, Option.map_eq_some_iff] at hm
  obtain ⟨q, hq, rfl⟩ := hm
  have hre' : q = n.re := hre
  subst hre'
  exact ⟨x, hx, hq, hholds _ hq, him.symm⟩

/-- A value that fits a complex type and denotes a number: both parts are values of the format. -/
theorem Denotes.complex (h : v.Denotes n) (hv : v.Fits word) (hc : v.ty.category = .complex) :
    ∃ x y, v.value = .complex x y ∧ x.toRat? = some n.re ∧ y.toRat? = some n.im ∧
      v.ty.format.Representable n.re ∧ v.ty.format.Representable n.im := by
  simp only [Fits, hc] at hv
  obtain ⟨x, y, hxy, hx, hy⟩ := hv
  obtain ⟨m, hm, hre, him⟩ := h
  simp only [number?, hxy, Number.ofComplex?, Option.bind_eq_bind, Option.pure_def,
    Option.bind_eq_some_iff, Option.some.injEq] at hm
  obtain ⟨p, hp, q, hq, rfl⟩ := hm
  have hre' : p = n.re := hre
  have him' : q = n.im := him
  subst hre' him'
  exact ⟨x, y, hxy, hp, hq, hx _ hp, hy _ hq⟩

end TypedValue

/-- **Narrowing finds the value that a number type has for a number**, and reports nothing. -/
theorem Number.narrow_of_value {v : TypedValue} {n : Number} {word : WordSize}
    (hnum : v.ty.isNumeric) (hv : v.Fits word) (h : v.Denotes n) :
    ∃ w, n.narrow v.ty word = (w, []) ∧ w.ty = v.ty ∧ w.value.same v.value := by
  have integral (hint : v.ty.isIntegral) :
      ∃ w, n.narrow v.ty word = (w, []) ∧ w.ty = v.ty ∧ w.value.same v.value := by
    obtain ⟨i, hvalue, hre, him, hin⟩ := h.integer hv hint
    refine ⟨_, Prod.ext (narrow_integer_eq hint hre hin) ?_, rfl, ?_⟩
    · rw [narrow_integer_errors hint, if_pos ⟨i, hre, him⟩, hre, truncate_intCast, if_pos hin]
      rfl
    · rw [hvalue]
      cases v.ty.isSigned <;> simp [Value.same]
  rcases Ty.isNumeric_cases hnum with hc | hc | hc | hc
  · exact integral (Ty.isIntegral_of_signed hc)
  · exact integral (Ty.isIntegral_of_unsigned hc)
  · obtain ⟨x, hvalue, hx, hrep, him⟩ := h.float hv hc
    have hround := Format.round_representable v.ty.sane_format hrep
    have hto : v.ty.format.RoundsTo n.re (.finite n.re) :=
      (Format.roundsTo_iff v.ty.sane_format).2 hround.symm
    refine ⟨⟨v.ty, .float (.finite n.re)⟩, ?_, rfl, ?_⟩
    · rw [narrow_float_eq hc hto, if_neg (by simp [FloatValue.isInfinite]), if_pos ⟨rfl, him⟩]
    · rw [hvalue]
      exact FloatValue.numericEq_of_toRat? rfl hx
  · obtain ⟨x, y, hvalue, hx, hy, hre, him⟩ := h.complex hv hc
    refine ⟨_, narrow_of_complex hc n word, rfl, ?_⟩
    rw [hvalue, Format.round_representable v.ty.sane_format hre,
      Format.round_representable v.ty.sane_format him, Value.same, Bool.and_eq_true]
    exact ⟨FloatValue.numericEq_of_toRat? rfl hx, FloatValue.numericEq_of_toRat? rfl hy⟩

/-- **Narrowing to a real type reports nothing if and only if the type has a value for the
number.** -/
theorem Number.narrow_eq_nil_iff {n : Number} {ty : Ty} {word : WordSize} (hreal : ty.isReal) :
    (n.narrow ty word).2 = [] ↔ ∃ v : TypedValue, v.ty = ty ∧ v.Fits word ∧ v.Denotes n := by
  obtain ⟨hnum, hc⟩ := Ty.isReal_iff.1 hreal
  constructor
  · intro h
    obtain ⟨-, hn⟩ := narrow_exact hnum hc h
    exact ⟨_, n.narrow_ty ty word, n.narrow_fits ty word, _, hn, rfl, rfl⟩
  · rintro ⟨v, rfl, hv, h⟩
    obtain ⟨w, hw, -⟩ := narrow_of_value hnum hv h
    rw [hw]

namespace UntypedConst

variable {ty : Ty} {word : WordSize}

/-- **Narrowing refuses what does not convert**: it reports a bad conversion, or for a string an
internal error, if and only if the kind does not convert to the type. -/
theorem narrow_refuses_iff (c : UntypedConst) (ty : Ty) (word : WordSize) :
    (∃ e ∈ (c.narrow ty word).2, e.code = .badConversion ∨ e.code = .internal) ↔
      c.kind.convertsTo ty = false := by
  constructor
  · rintro ⟨e, he, hcode⟩
    by_contra hconv
    -- what converts is not refused
    obtain ⟨n, -, ⟨kind, rfl⟩ | rfl⟩ := losses_of_mem_narrow (by simpa using hconv) he <;>
      simp [ErrorKind.code] at hcode
  · intro hconv
    cases c with
    | number n =>
      rw [narrow, Number.narrow_of_not_isNumeric hconv]
      exact ⟨_, List.mem_singleton_self _, .inl rfl⟩
    | string s =>
      have hc : ty.category ≠ .string := by simpa [Kind.convertsTo, kind] using hconv
      rw [narrow, if_neg hc]
      exact ⟨_, List.mem_singleton_self _, .inr rfl⟩
    | bool b =>
      have hc : ty.category ≠ .bool := by simpa [Kind.convertsTo, kind] using hconv
      rw [narrow, if_neg hc]
      exact ⟨_, List.mem_singleton_self _, .inl rfl⟩
    | nil =>
      have hc : ¬ty.isNilable := by simpa [Kind.convertsTo, kind] using hconv
      rw [narrow, if_neg hc]
      exact ⟨_, List.mem_singleton_self _, .inl rfl⟩

open Classical in
/-- **What narrowing yields and reports**, for every constant, type and word.

The value is one of the type. The constant is refused if and only if its kind does not convert. A
number narrowed to an integer type is truncated if it is no integer, and overflows if its whole part
is out of range, whichever of the two or both; to a float type it overflows if the nearest value is
an infinity, and is truncated if that is another number. So there is no error if and only if a value
of the type is the number, and then the result denotes it. -/
theorem narrow_reports (c : UntypedConst) (ty : Ty) (word : WordSize) :
    ((c.narrow ty word).1.ty = ty ∧ (c.narrow ty word).1.Fits word) ∧
    ((∃ e ∈ (c.narrow ty word).2, e.code = .badConversion ∨ e.code = .internal) ↔
      c.kind.convertsTo ty = false) ∧
    ∀ n, c = .number n →
      (ty.isIntegral → (c.narrow ty word).2 =
        (if ∃ i : ℤ, n.re = i ∧ n.im = 0 then [] else [.truncated n .int]) ++
          (if InWord ty.isSigned (ty.width word) (truncate n.re) then []
            else [.overflowed n ty])) ∧
      (ty.category = .float → ∃ x, ty.format.RoundsTo n.re x ∧
        c.narrow ty word = (⟨ty, .float x⟩,
          if x.isInfinite then [.overflowed n ty]
          else if x.toRat? = some n.re ∧ n.im = 0 then [] else [.truncated n .float])) ∧
      (ty.isReal →
        ((c.narrow ty word).2 = [] ↔
          ∃ v : TypedValue, v.ty = ty ∧ v.Fits word ∧ v.Denotes n) ∧
        ((c.narrow ty word).2 = [] →
          (c.narrow ty word).1.number? = some ⟨n.re, n.im, ty.numKind⟩)) := by
  refine ⟨⟨c.narrow_ty ty word, c.narrow_fits ty word⟩, c.narrow_refuses_iff ty word, ?_⟩
  rintro n rfl
  refine ⟨fun hint => n.narrow_integer_errors hint word, fun hf => ?_, fun hreal => ?_⟩
  · have hx := Format.roundsTo_round ty.sane_format n.re
    exact ⟨_, hx, Number.narrow_float_eq hf hx word⟩
  · obtain ⟨hnum, hc⟩ := Ty.isReal_iff.1 hreal
    exact ⟨Number.narrow_eq_nil_iff hreal, fun h => (Number.narrow_exact hnum hc h).2⟩

/-- Narrowed to `uint8`, 512.1 loses its fraction and its range; `float32` has no such value. -/
theorem narrow_reports_both :
    ((number ⟨5121 / 10, 0, .float⟩).narrow (.basic .uint8) .bits64).2 =
      [.truncated ⟨5121 / 10, 0, .float⟩ .int,
        .overflowed ⟨5121 / 10, 0, .float⟩ (.basic .uint8)] ∧
    ¬∃ v : TypedValue, v.ty = .float32 ∧ v.Fits .bits64 ∧ v.Denotes ⟨5121 / 10, 0, .float⟩ := by
  obtain ⟨hint, -, -⟩ := (narrow_reports (number ⟨5121 / 10, 0, .float⟩) (.basic .uint8)
    .bits64).2.2 _ rfl
  obtain ⟨-, -, hreal⟩ := (narrow_reports (number ⟨5121 / 10, 0, .float⟩) .float32
    .bits64).2.2 _ rfl
  have hfraction : ¬∃ i : ℤ, (5121 / 10 : ℚ) = i ∧ (0 : ℚ) = 0 := by
    rintro ⟨i, h, -⟩
    have h' : (5121 : ℚ) = 10 * i := by linarith
    have h'' : 5121 = 10 * i := by exact_mod_cast h'
    omega
  refine ⟨?_, fun hv => ?_⟩
  · rw [hint rfl, if_neg hfraction, if_neg (by decide +kernel)]
    rfl
  · have hnil := (hreal rfl).1.2 hv
    revert hnil
    decide +kernel

end UntypedConst

end ConstCheck
