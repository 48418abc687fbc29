import ConstCheck.Proofs.Comparison
import ConstCheck.Proofs.Fits

/-!
# Typed integers compute as a machine does

An operation on two constants of an integer type is exact first and narrowed afterwards. What comes
out is what a machine computes on words of the width of the type, and an error tells of every exact
result that the type does not hold.

* `TypedValue.integer`, `TypedValue.pattern`: the integer that a value is, and its word.
* `Number.narrow_integer`, `Number.narrow_ofInt`: a number narrowed to an integer type keeps its
  word.
* `fold_arithmetic`, `fold_comparison`: folding typed integers.
* `integer_operation` (every arena and environment, all widths): **a checked operation on typed
  integers yields the machine's result**, with one error if the exact result is out of range.
-/

namespace ConstCheck

/-! ## Constants of integer types -/

/-- A type of signed integers. -/
def Ty.isSigned (ty : Ty) : Bool := ty.category == .signed

/-- An integer type is signed or not. -/
theorem Ty.isSigned_cases {ty : Ty} (h : ty.isIntegral) :
    ty.category = .signed ∧ ty.isSigned = true ∨ ty.category = .unsigned ∧ ty.isSigned = false := by
  rcases isIntegral_cases h with hc | hc
  · exact .inl ⟨hc, by rw [isSigned, hc]; rfl⟩
  · exact .inr ⟨hc, by rw [isSigned, hc]; rfl⟩

namespace TypedValue

/-- The integer that a value of an integer type is. -/
def integer (v : TypedValue) : ℤ :=
  match v.value with
  | .int i => i
  | .uint n => n
  | _ => 0

/-- The word of a value of an integer type. -/
def pattern (w : ℕ) (v : TypedValue) : BitVec w :=
  match v.value with
  | .int i => .ofInt w i
  | .uint n => .ofNat w n
  | _ => 0

theorem pattern_eq (w : ℕ) (v : TypedValue) : v.pattern w = BitVec.ofInt w v.integer := by
  unfold pattern integer
  split
  · rfl
  · exact (BitVec.ofInt_natCast w _).symm
  · simp

variable {v : TypedValue} {word : WordSize}

/-- A value that fits an integer type is an integer in its range. -/
theorem value_of_fits (hint : v.ty.isIntegral) (h : v.Fits word) :
    v.value = (if v.ty.isSigned then .int v.integer else .uint v.integer.toNat) ∧
      InWord v.ty.isSigned (v.ty.width word) v.integer := by
  rcases Ty.isSigned_cases hint with ⟨hc, hs⟩ | ⟨hc, hs⟩
  · simp only [Fits, hc] at h
    obtain ⟨i, hi, hbounds⟩ := h
    simp only [integer, hi, hs]
    exact ⟨rfl, hbounds⟩
  · simp only [Fits, hc] at h
    obtain ⟨n, hn, hlt⟩ := h
    simp only [integer, hn, hs]
    exact ⟨rfl, inWord_natCast hlt⟩

/-- The number that it denotes is that integer. -/
theorem number?_of_fits (hint : v.ty.isIntegral) (h : v.Fits word) :
    v.number? = some (.ofInt v.integer) ∧
      InWord v.ty.isSigned (v.ty.width word) v.integer := by
  obtain ⟨hvalue, hin⟩ := value_of_fits hint h
  refine ⟨?_, hin⟩
  rw [number?, hvalue]
  cases hs : v.ty.isSigned with
  | true => rfl
  | false =>
    rw [hs] at hin
    simp only [Bool.false_eq_true, if_false, Int.toNat_of_nonneg hin.1]

end TypedValue

namespace Number

/-- **A number narrowed to an integer type keeps the word of its whole part**, with an error if it
is no integer and an error if the whole part is out of range. -/
theorem narrow_integer {ty : Ty} (hint : ty.isIntegral) (n : Number) (word : WordSize) :
    (n.narrow ty word).1.pattern (ty.width word) = BitVec.ofInt (ty.width word) n.truncated ∧
      (n.narrow ty word).2 = (if n.isWhole then [] else [.truncated n .int]) ++
        (if InWord ty.isSigned (ty.width word) n.truncated then [] else [.overflowed n ty]) := by
  have hw := Ty.width_bounds word hint
  have hwhole : (!n.isWhole) = false ↔ n.isWhole = true := by simp
  rw [TypedValue.pattern_eq]
  -- words agree as soon as their signed readings do
  rcases Ty.isSigned_cases hint with ⟨hc, hs⟩ | ⟨hc, hs⟩
  · have hover := overflowed_toSigned_iff n (ty.width word)
    rw [clampWidth_eq hw] at hover
    rw [narrow_of_signed hc, hs]
    refine ⟨BitVec.eq_of_toInt_eq ?_, losses_eq hwhole hover⟩
    simp only [TypedValue.integer, toSigned_value hw, BitVec.toInt_ofInt, Int.bmod_bmod]
  · have hover := overflowed_toUnsigned_iff n (ty.width word)
    rw [clampWidth_eq hw] at hover
    rw [narrow_of_unsigned hc, hs]
    refine ⟨BitVec.eq_of_toInt_eq ?_, losses_eq hwhole hover⟩
    simp only [TypedValue.integer, toUnsigned_value hw, BitVec.toInt_ofInt]
    rw [← Nat.cast_ofNat, ← Nat.cast_pow, Int.emod_bmod]

theorem isWhole_ofInt (z : ℤ) : (ofInt z).isWhole = true := by simp [isWhole, ofInt]

/-- **An integer narrowed to an integer type keeps its word**, with one error if it is out of
range. -/
theorem narrow_ofInt {ty : Ty} (hint : ty.isIntegral) (z : ℤ) (word : WordSize) :
    ((ofInt z).narrow ty word).1.pattern (ty.width word) = BitVec.ofInt (ty.width word) z ∧
      ((ofInt z).narrow ty word).2 =
        if InWord ty.isSigned (ty.width word) z then [] else [.overflowed (ofInt z) ty] := by
  obtain ⟨hpattern, herrors⟩ := narrow_integer hint (ofInt z) word
  rw [truncated_ofInt] at hpattern herrors
  refine ⟨hpattern, ?_⟩
  rw [herrors, isWhole_ofInt, if_pos rfl, List.nil_append]

end Number

/-! ## Folds -/

namespace Operator

variable {op : Operator} {x y : ℤ}

/-- Exact numbers that are integers are combined as integers. -/
theorem onNumbers_ofInt (hop : op.isArithmetic) (hdiv : op.isDivision → y ≠ 0) :
    op.onNumbers (.ofInt x) (.ofInt y) = .ok (.number (.ofInt (op.exact x y))) :=
  onNumbers_whole hop hdiv rfl rfl

/-- Exact numbers that are integers are compared as integers. -/
theorem onNumbers_ofInt_comparison (hop : op.isComparison) :
    op.onNumbers (.ofInt x) (.ofInt y) = .ok (.bool (op.holds (compare x y))) := by
  have hcompare : compare (x : ℚ) y = compare x y := by
    rw [← cmp_eq_compare, ← cmp_eq_compare, Int.cast_strictMono.cmp_map_eq]
  rw [← hcompare]
  exact onNumbers_comparison hop ⟨Number.wellKinded_ofInt x, rfl⟩ ⟨Number.wellKinded_ofInt y, rfl⟩

/-- An operator that takes integers to integers or compares them is defined on integer types. -/
theorem definedOn_of_isIntegral {ty : Ty} (hop : op.isArithmetic ∨ op.isComparison)
    (hint : ty.isIntegral) : op.definedOn ty := by
  have hn := Ty.isNumeric_of_isIntegral hint
  have hord : ty.isOrdered := by
    rcases Ty.isIntegral_cases hint with hc | hc <;>
      simp [Ty.isOrdered, Ty.isReal, hc, Category.isReal]
  cases op with
  | logicalAnd | logicalOr => simp [isArithmetic, isComparison, isEquality, isOrdering] at hop
  | _ => simp [definedOn, hn, hint, hord]

end Operator

section

variable {word : WordSize} {x y : TypedValue} {op : Operator}

/-- Two integers of one type are operated on as integers. -/
theorem TypedValue.operate_integers (op : Operator) (hty : y.ty = x.ty) (hint : x.ty.isIntegral)
    (hx : x.Fits word) (hy : y.Fits word) :
    TypedValue.operate op x y x.ty =
      some (op.onNumbers (.ofInt x.integer) (.ofInt y.integer)) := by
  have hnx := (number?_of_fits hint hx).1
  have hny := (number?_of_fits (by rw [hty]; exact hint) hy).1
  simp [operate, Ty.isNumeric_of_isIntegral hint, hnx, hny]

/-- Two integers of one type are folded at the type. -/
theorem fold_integers_eq (hop : op.isArithmetic ∨ op.isComparison) (hty : y.ty = x.ty)
    (hint : x.ty.isIntegral) (place : OperationSpan) :
    (Const.typed x).fold op (.typed y) word place = foldAt op x y x.ty word place := by
  have hcommon : commonType? x.ty y.ty = some x.ty := by simp [commonType?, hty]
  simp only [Const.fold, foldTyped, hcommon, Operator.definedOn_of_isIntegral hop hint, if_true]

/-- **Folding typed integers is the machine's operation.** -/
theorem fold_arithmetic (hop : op.isArithmetic) (hdiv : op.isDivision → y.integer ≠ 0)
    (hty : y.ty = x.ty) (hint : x.ty.isIntegral) (hx : x.Fits word) (hy : y.Fits word)
    (place : OperationSpan) :
    ∃ v, (Const.typed x).fold op (.typed y) word place = ⟨some (.typed v),
        if InWord x.ty.isSigned (x.ty.width word) (op.exact x.integer y.integer) then []
        else [⟨place.whole, .overflowed (.ofInt (op.exact x.integer y.integer)) x.ty⟩]⟩ ∧
      v.ty = x.ty ∧ v.Fits word ∧
      v.pattern (x.ty.width word) =
        op.machine x.ty.isSigned (x.pattern (x.ty.width word)) (y.pattern (x.ty.width word)) := by
  have hinx := (TypedValue.number?_of_fits hint hx).2
  have hiny := (TypedValue.number?_of_fits (by rw [hty]; exact hint) hy).2
  rw [hty] at hiny
  -- only comparisons leave the type
  have hresult : op.resultType x.ty = x.ty := by
    have : op.isComparison = false := by cases op <;> simp_all [Operator.isArithmetic] <;> rfl
    simp [Operator.resultType, this]
  obtain ⟨hword, herrors⟩ :=
    Number.narrow_ofInt hint (op.exact x.integer y.integer) word
  refine ⟨((Number.ofInt (op.exact x.integer y.integer)).narrow x.ty word).1, ?_, ?_, ?_, ?_⟩
  · rw [fold_integers_eq (.inl hop) hty hint]
    simp only [foldAt, TypedValue.operate_integers op hty hint hx hy,
      Operator.onNumbers_ofInt hop hdiv, hresult, Folded.narrowed, UntypedConst.narrow, herrors]
    split <;> rfl
  · exact Number.narrow_ty _ _ _
  · exact Number.narrow_fits _ _ _
  · rw [hword, TypedValue.pattern_eq, TypedValue.pattern_eq]
    exact Operator.word_exact hop (Ty.width_bounds word hint).1 hinx hiny

/-- **Comparing typed integers is the machine's comparison.** -/
theorem fold_comparison (hop : op.isComparison) (hty : y.ty = x.ty) (hint : x.ty.isIntegral)
    (hx : x.Fits word) (hy : y.Fits word) (place : OperationSpan) :
    (Const.typed x).fold op (.typed y) word place =
      ⟨some (.typed ⟨.bool, .bool (op.machineHolds x.ty.isSigned (x.pattern (x.ty.width word))
        (y.pattern (x.ty.width word)))⟩), []⟩ := by
  have hinx := (TypedValue.number?_of_fits hint hx).2
  have hiny := (TypedValue.number?_of_fits (by rw [hty]; exact hint) hy).2
  rw [hty] at hiny
  rw [TypedValue.pattern_eq, TypedValue.pattern_eq,
    Operator.machineHolds_ofInt hop (Ty.width_bounds word hint).1 hinx hiny,
    fold_integers_eq (.inr hop) hty hint]
  simp only [foldAt, TypedValue.operate_integers op hty hint hx hy,
    Operator.onNumbers_ofInt_comparison hop, Operator.resultType, hop]
  rfl

end

/-! ## Checked operations -/

section

variable {ctx : Context} {x y : TypedValue} {op : Operator}

/-- The one quotient that is out of range wraps to its dividend. -/
theorem integer_of_wrapped {v : TypedValue} {word : WordSize} (hint : v.ty.isIntegral)
    (hs : v.ty.isSigned) (hv : v.Fits word)
    (hpat : v.pattern (v.ty.width word) =
      BitVec.ofInt (v.ty.width word) (2 ^ (v.ty.width word - 1))) :
    v.integer = -2 ^ (v.ty.width word - 1) := by
  have hw := Ty.width_bounds word hint
  have hpow : ((2 ^ v.ty.width word : ℕ) : ℤ) = 2 * 2 ^ (v.ty.width word - 1) := by
    rw [← two_pow_pred hw.1]; norm_cast
  have hpos : (0 : ℤ) < 2 ^ (v.ty.width word - 1) := by positivity
  have hin := (TypedValue.number?_of_fits hint hv).2
  rw [hs] at hin
  rw [TypedValue.pattern_eq] at hpat
  rw [← toInt_of_inWord hw.1 hin, hpat, BitVec.toInt_ofInt]
  -- the power is congruent to its negative, which is in range
  have hneg : ((2 : ℤ) ^ (v.ty.width word - 1)) =
      -2 ^ (v.ty.width word - 1) + (2 ^ v.ty.width word : ℕ) := by omega
  calc ((2 : ℤ) ^ (v.ty.width word - 1)).bmod (2 ^ v.ty.width word)
    _ = ((-2 ^ (v.ty.width word - 1) : ℤ) + (2 ^ v.ty.width word : ℕ)).bmod
        (2 ^ v.ty.width word) := by rw [← hneg]
    _ = (-2 ^ (v.ty.width word - 1) : ℤ).bmod (2 ^ v.ty.width word) := Int.add_bmod_right _ _
    _ = -2 ^ (v.ty.width word - 1) := by apply Int.bmod_eq_of_le <;> omega

/-- **A checked operation on two constants of an integer type computes as a machine does**, on words
of the width of the type.

An arithmetic operation yields the machine's word as a constant of the type, and an error besides
those of the operands if and only if the exact result is out of range. Remainders, bitwise
operations and unsigned quotients have none; a signed quotient has one for the least integer over
minus one, and yields the least integer. A comparison yields what the machine finds, as a bool,
without an error. -/
theorem integer_operation {a : Arena} {id : ExprId} {l r : Tree} {span : Span}
    (h : a.tree? id = some (.binary op l r span))
    (hl : (l.check ctx).node.constant? = some (.typed x))
    (hr : (r.check ctx).node.constant? = some (.typed y))
    (hty : y.ty = x.ty) (hint : x.ty.isIntegral) (hx : x.Fits ctx.word) (hy : y.Fits ctx.word) :
    ∃ c, a.check? ctx id = some c ∧
      (op.isArithmetic → (op.isDivision → y.integer ≠ 0) → ∃ v,
        c.node.info = .ofConst (.typed v) ∧ v.ty = x.ty ∧ v.Fits ctx.word ∧
        v.pattern (x.ty.width ctx.word) = op.machine x.ty.isSigned
          (x.pattern (x.ty.width ctx.word)) (y.pattern (x.ty.width ctx.word)) ∧
        c.errors = (l.check ctx).errors ++ (r.check ctx).errors ++
          (if InWord x.ty.isSigned (x.ty.width ctx.word) (op.exact x.integer y.integer) then []
          else [⟨span, .overflowed (.ofInt (op.exact x.integer y.integer)) x.ty⟩]) ∧
        (op.staysInRange x.ty.isSigned →
          InWord x.ty.isSigned (x.ty.width ctx.word) (op.exact x.integer y.integer)) ∧
        (op = .quo → x.ty.isSigned →
          (¬InWord true (x.ty.width ctx.word) (op.exact x.integer y.integer) ↔
            x.integer = -2 ^ (x.ty.width ctx.word - 1) ∧ y.integer = -1) ∧
          (x.integer = -2 ^ (x.ty.width ctx.word - 1) ∧ y.integer = -1 →
            v.integer = -2 ^ (x.ty.width ctx.word - 1)))) ∧
      (op.isComparison →
        c.node.info = .ofConst (.typed ⟨.bool, .bool (op.machineHolds x.ty.isSigned
          (x.pattern (x.ty.width ctx.word)) (y.pattern (x.ty.width ctx.word)))⟩) ∧
        c.errors = (l.check ctx).errors ++ (r.check ctx).errors) := by
  have hinx := (TypedValue.number?_of_fits hint hx).2
  have hiny := (TypedValue.number?_of_fits (by rw [hty]; exact hint) hy).2
  rw [hty] at hiny
  obtain ⟨hinfo, herrors⟩ := Tree.check_binary_of_constants op span hl hr
  refine ⟨_, Arena.check?_of_tree? h, fun hop hdiv => ?_, fun hop => ?_⟩
  · obtain ⟨v, hfold, hvty, hfit, hpat⟩ :=
      fold_arithmetic hop hdiv hty hint hx hy ⟨span, (r.check ctx).node.span⟩
    rw [hfold] at hinfo herrors
    refine ⟨v, hinfo, hvty, hfit, hpat, herrors, fun hstay => ?_, fun hquo hs => ⟨?_, ?_⟩⟩
    · exact Operator.exact_inWord hstay hinx hiny
    · subst hquo
      rw [hs] at hinx
      exact (inWord_tdiv_iff hinx).not.trans not_not
    · rintro ⟨hleast, hminus⟩
      subst hquo
      rw [hs] at hinx hiny
      rw [← hvty] at hpat hleast ⊢
      -- the exact quotient is one above the range
      refine integer_of_wrapped (by rw [hvty]; exact hint) (by rw [hvty]; exact hs) hfit ?_
      have hw := (Ty.width_bounds ctx.word hint).1
      rw [hpat, TypedValue.pattern_eq, TypedValue.pattern_eq, hvty, hs,
        ← Operator.word_exact hop hw hinx hiny]
      rw [hvty] at hleast
      simp [Operator.exact, hleast, hminus]
  · rw [fold_comparison hop hty hint hx hy] at hinfo herrors
    exact ⟨hinfo, by simpa using herrors⟩

/-- The least `int8` over minus one wraps to itself, with the one error that a quotient can have. -/
theorem integer_operation_least_quo : ∃ ctx c v,
    (Arena.operation .quo).check? ctx ⟨2⟩ = some c ∧ c.node.info = .ofConst (.typed v) ∧
    v.ty = .basic .int8 ∧ v.integer = -128 ∧
    v.pattern 8 = Operator.quo.machine true (BitVec.ofInt 8 (-128)) (BitVec.ofInt 8 (-1)) ∧
    c.errors = [⟨⟨0, 5⟩, .overflowed (.ofInt 128) (.basic .int8)⟩] := by
  let x : TypedValue := ⟨.basic .int8, .int (-128)⟩
  let y : TypedValue := ⟨.basic .int8, .int (-1)⟩
  let ctx : Context := .ofConsts .bits64 [("least", x), ("minus", y)]
  have hx : x.Fits ctx.word := ⟨-128, rfl, by decide, by decide⟩
  have hy : y.Fits ctx.word := ⟨-1, rfl, by decide, by decide⟩
  have hl : (Tree.check ctx (.leaf (.ident ⟨1⟩) ⟨0, 1⟩)).node.constant? = some (.typed x) := rfl
  have hr : (Tree.check ctx (.leaf (.ident ⟨2⟩) ⟨4, 5⟩)).node.constant? = some (.typed y) := rfl
  obtain ⟨c, hc, harith, -⟩ :=
    integer_operation (Arena.tree?_operation .quo) hl hr rfl rfl hx hy
  obtain ⟨v, hinfo, hty, -, hpat, herrors, -, hleast⟩ := harith rfl fun _ => by decide
  exact ⟨ctx, c, v, hc, hinfo, hty, (hleast rfl rfl).2 ⟨rfl, rfl⟩, hpat, herrors⟩

end

end ConstCheck
