import ConstCheck.Proofs.Reports

/-!
# The table of operators and their evaluation

Which operators a type has is decided twice. A table decides it by the category of the type, and a
fold asks the table first. The evaluation decides it again, by the kinds of the exact numbers that
two operands denote, or by their being strings or bools. The two agree, but for one case: a
remainder by zero is a division by zero even where numbers have no remainder.

* `Value.IsFinite`: a value without infinities.
* `TypedValue.Shaped.kind_eq`: the exact number that a value denotes is of the kind of its type.
* `Operator.onNumbers_undefined_iff`, `Operator.onStrings_undefined_iff`,
  `Operator.onBools_undefined_iff`: each evaluator against the table.
* `TypedValue.operate_undefined_iff`: any two operands against the table.
* `Const.fold_eq_foldAt`: a fold that passes the table evaluates its operands at their type.
* `operate_agrees_with_table` (every operator and type): **the evaluation and the table agree**, and
  no fold that passed the table finds its operator undefined.
-/

namespace ConstCheck

/-- No part of a value is an infinity, or no number. -/
def Value.IsFinite : Value → Prop
  | float x => x.isFinite
  | complex re im => re.isFinite ∧ im.isFinite
  | _ => True

/-! ## The kinds that values have -/

namespace Ty

variable {ty : Ty}

theorem isIntegral_numKind (hn : ty.isNumeric) : ty.numKind.isIntegral = ty.isIntegral := by
  rcases isNumeric_cases hn with hc | hc | hc | hc <;> rw [numKind, isIntegral, hc] <;> rfl

theorem isReal_numKind (hn : ty.isNumeric) : ty.numKind.isReal = ty.isReal := by
  rcases isNumeric_cases hn with hc | hc | hc | hc <;> rw [numKind, isReal, hc] <;> rfl

/-- A type that is basic below its names is of a basic category. -/
theorem isBasic_of_basic? {b : BasicType} (h : ty.basic? = some b) : ty.category.isBasic := by
  unfold basic? at h
  split at h
  · rename_i c hc
    rw [category_of_underlying hc]
    cases c <;> rfl
  · cases h

theorem category_beq_of_isNumeric (hn : ty.isNumeric) :
    (ty.category == .string) = false ∧ (ty.category == .bool) = false := by
  rcases isNumeric_cases hn with hc | hc | hc | hc <;> rw [hc] <;> exact ⟨rfl, rfl⟩

end Ty

namespace TypedValue

variable {v : TypedValue} {n : Number}

/-- **The exact number that a value denotes is of the kind of its type.** -/
theorem Shaped.kind_eq (hv : v.Shaped) (hn : v.ty.isNumeric) (h : v.number? = some n) :
    n.kind = v.ty.numKind := by
  rcases Ty.isNumeric_cases hn with hc | hc | hc | hc <;> simp only [Shaped, hc] at hv
  · obtain ⟨i, hi⟩ := hv
    simp only [number?, hi, Option.some.injEq] at h
    rw [← h, Ty.numKind, hc]; rfl
  · obtain ⟨m, hm⟩ := hv
    simp only [number?, hm, Option.some.injEq] at h
    rw [← h, Ty.numKind, hc]; rfl
  · obtain ⟨x, hx⟩ := hv
    simp only [number?, hx, Number.ofFloat?, Option.map_eq_some_iff] at h
    obtain ⟨q, -, rfl⟩ := h
    rw [Ty.numKind, hc]; rfl
  · obtain ⟨re, im, hval⟩ := hv
    simp only [number?, hval, Number.ofComplex?, Option.bind_eq_bind, Option.bind_eq_some_iff,
      Option.pure_def, Option.some.injEq] at h
    obtain ⟨p, -, q, -, rfl⟩ := h
    rw [Ty.numKind, hc]; rfl

/-- A finite number of a type denotes an exact number. -/
theorem Shaped.exists_number? (hv : v.Shaped) (hn : v.ty.isNumeric) (hf : v.value.IsFinite) :
    ∃ n, v.number? = some n := by
  rcases Ty.isNumeric_cases hn with hc | hc | hc | hc <;> simp only [Shaped, hc] at hv
  · obtain ⟨i, hi⟩ := hv
    exact ⟨_, by rw [number?, hi]⟩
  · obtain ⟨m, hm⟩ := hv
    exact ⟨_, by rw [number?, hm]⟩
  · obtain ⟨x, hx⟩ := hv
    rw [hx] at hf
    obtain ⟨q, hq⟩ := FloatValue.isFinite_iff.1 hf
    exact ⟨_, by simp only [number?, hx, Number.ofFloat?, hq]; rfl⟩
  · obtain ⟨re, im, hval⟩ := hv
    rw [hval] at hf
    obtain ⟨p, hp⟩ := FloatValue.isFinite_iff.1 hf.1
    obtain ⟨q, hq⟩ := FloatValue.isFinite_iff.1 hf.2
    exact ⟨_, by simp only [number?, hval, Number.ofComplex?, hp, hq]; rfl⟩

end TypedValue

/-! ## Each evaluator against the table -/

namespace Operator

variable {op : Operator} {ty : Ty}

/-- **On numbers of the kind of a type**, what the table leaves out is undefined, except a remainder
by zero. -/
theorem onNumbers_undefined_iff {x y : Number} (hn : ty.isNumeric) (hx : x.kind = ty.numKind)
    (hy : y.kind = ty.numKind) :
    op.onNumbers x y = .error .undefined ↔ op.definedOn ty = false ∧ ¬(op = .rem ∧ y.isZero) := by
  obtain ⟨hstr, hbool⟩ := Ty.category_beq_of_isNumeric hn
  have integral : ∀ f, onIntegral f x y = .error .undefined ↔ ty.isIntegral = false := by
    intro f
    rw [onIntegral, hx, hy, Bool.and_self, Ty.isIntegral_numKind hn]
    cases ty.isIntegral <;> simp
  cases op with
  | add | sub | mul => simp [onNumbers, definedOn, hn]
  | quo =>
    simp only [onNumbers, definedOn, hn]
    split
    · simp
    · split <;> simp
  | rem =>
    simp only [onNumbers, definedOn]
    by_cases hz : y.isZero
    · simp [hz]
    · simp [hz, integral]
  | and | or | xor | andNot => simp [onNumbers, definedOn, integral]
  | eq | ne => simp [onNumbers, definedOn, hn]
  | lt | le | gt | ge =>
    simp only [onNumbers, definedOn, hx, hy, Bool.and_self, Ty.isReal_numKind hn, Ty.isOrdered,
      hstr, Bool.or_false]
    cases ty.isReal <;> simp
  | logicalAnd | logicalOr => simp [onNumbers, definedOn, hbool]

/-- **On strings**, what the table leaves out is undefined. -/
theorem onStrings_undefined_iff {s t : String} (hc : ty.category = .string) :
    op.onStrings s t = .error .undefined ↔ op.definedOn ty = false := by
  simp only [definedOn, Ty.isNumeric, Ty.isIntegral, Ty.isOrdered, Ty.isReal, hc]
  cases op <;>
    simp [onStrings, Category.isNumeric, Category.isIntegral, Category.isReal]

/-- **On bools**, what the table leaves out is undefined. -/
theorem onBools_undefined_iff {p q : Bool} (hc : ty.category = .bool) :
    op.onBools p q = .error .undefined ↔ op.definedOn ty = false := by
  simp only [definedOn, Ty.isNumeric, Ty.isIntegral, Ty.isOrdered, Ty.isReal, hc]
  cases op <;>
    simp [onBools, Category.isNumeric, Category.isIntegral, Category.isReal]

/-- A type without a basic type below its names has no operators. -/
theorem definedOn_of_basic?_eq_none (h : ty.basic? = none) : op.definedOn ty = false := by
  rw [← Bool.not_eq_true]
  intro hdef
  obtain ⟨b, hb⟩ := Ty.exists_basic (isBasic_of_definedOn hdef)
  rw [Ty.basic?_of_underlying hb] at h
  cases h

/-- A remainder by zero, at a type of numbers that have no remainder. -/
def IsRemByZero (op : Operator) (ty : Ty) (divisor : Value) : Prop :=
  op = .rem ∧ ty.isNumeric ∧ ty.isIntegral = false ∧
    ∃ n, TypedValue.number? ⟨ty, divisor⟩ = some n ∧ n.isZero

end Operator

/-! ## Two operands against the table -/

namespace TypedValue

variable {op : Operator} {ty : Ty} {a b : Value} {r : Except OpError UntypedConst}

/-- Two finite values of their shape at a basic type are operated on. -/
theorem exists_operate (op : Operator) (hbasic : ty.category.isBasic) (ha : Shaped ⟨ty, a⟩)
    (hb : Shaped ⟨ty, b⟩) (hfa : a.IsFinite) (hfb : b.IsFinite) :
    ∃ r, operate op ⟨ty, a⟩ ⟨ty, b⟩ ty = some r := by
  by_cases hn : ty.isNumeric
  · obtain ⟨x, hx⟩ := ha.exists_number? hn hfa
    obtain ⟨y, hy⟩ := hb.exists_number? hn hfb
    exact ⟨_, by rw [operate, if_pos hn, hx, hy]; rfl⟩
  · exact Option.isSome_iff_exists.1
      (operate_isSome op hbasic (by simpa using hn) ha hb rfl rfl)

/-- **The outcome on two values of their shape at a basic type**: a remainder by zero is a division
by zero, and otherwise the operator is undefined where the table leaves it out. -/
theorem operate_undefined_iff (hbasic : ty.category.isBasic) (ha : Shaped ⟨ty, a⟩)
    (hb : Shaped ⟨ty, b⟩) (h : operate op ⟨ty, a⟩ ⟨ty, b⟩ ty = some r) :
    (op.IsRemByZero ty b → r = .error .divideByZero) ∧
    (¬op.IsRemByZero ty b → (r = .error .undefined ↔ op.definedOn ty = false)) := by
  by_cases hn : ty.isNumeric
  · simp only [operate, hn, if_true, Option.bind_eq_bind, Option.bind_eq_some_iff, Option.pure_def,
      Option.some.injEq] at h
    obtain ⟨x, hx, y, hy, rfl⟩ := h
    have hiff : op.onNumbers x y = .error .undefined ↔
        op.definedOn ty = false ∧ ¬(op = .rem ∧ y.isZero) :=
      Operator.onNumbers_undefined_iff hn (ha.kind_eq hn hx) (hb.kind_eq hn hy)
    constructor
    · rintro ⟨rfl, -, -, z, hz, hzero⟩
      obtain rfl : y = z := Option.some.inj (hy.symm.trans hz)
      simp [Operator.onNumbers, hzero]
    · intro hrem
      rw [hiff, and_iff_left_iff_imp]
      rintro hdef ⟨rfl, hzero⟩
      exact hrem ⟨rfl, hn, hdef, y, hy, hzero⟩
  · have hn' : ty.isNumeric = false := by simpa using hn
    refine ⟨fun hrem => absurd hrem.2.1 hn, fun _ => ?_⟩
    rcases strings_or_bools hbasic hn' ha hb with ⟨hc, s, t, rfl, rfl⟩ | ⟨hc, p, q, rfl, rfl⟩
    · simp only [operate, hn', Bool.false_eq_true, if_false, Option.some.injEq] at h
      rw [← h, Operator.onStrings_undefined_iff hc]
    · simp only [operate, hn', Bool.false_eq_true, if_false, Option.some.injEq] at h
      rw [← h, Operator.onBools_undefined_iff hc]

end TypedValue

/-! ## Folds that pass the table -/

/-- A loss of a number that is narrowed: of a fraction or of precision, or of the range. -/
def ErrorKind.IsLoss (k : ErrorKind) : Prop := k.code = .truncated ∨ k.code = .overflowed

/-- Where the kind converts, narrowing reports losses alone. -/
theorem UntypedConst.narrow_isLoss {c : UntypedConst} {ty : Ty} {word : WordSize} {k : ErrorKind}
    (hconv : c.kind.convertsTo ty) (h : k ∈ (c.narrow ty word).2) : k.IsLoss := by
  obtain ⟨n, -, ⟨kind, rfl⟩ | rfl⟩ := losses_of_mem_narrow hconv h
  · exact .inl rfl
  · exact .inr rfl

/-- The losses of an operand on its way to the common type. -/
def Const.lossesAt (word : WordSize) (ty : Ty) : Const → List ErrorKind
  | untyped u => (u.narrow ty word).2
  | typed _ => []

section

variable {op : Operator} {x y : Const} {ty : Ty} {word : WordSize} {place : OperationSpan}
  {k : ErrorKind}

/-- **A fold that passes the table evaluates its operands at their common type.** -/
theorem Const.fold_eq_foldAt (hty : x.commonTy? y = some ty) (hdef : op.definedOn ty) :
    x.fold op y word place = .after place (x.lossesAt word ty ++ y.lossesAt word ty)
      (foldAt op (x.operandAt word ty) (y.operandAt word ty) ty word place) := by
  rcases commonTy?_cases hty with
    ⟨v, u, rfl, rfl, hconv, rfl⟩ | ⟨u, v, rfl, rfl, hconv, rfl⟩ | ⟨v, w, rfl, rfl, hcommon⟩
  · rcases foldMixed_cases op v u .left word place with ⟨-, -, he⟩ | ⟨hnot, -⟩
    · exact he
    · exact absurd ⟨hconv, hdef⟩ hnot
  · rcases foldMixed_cases op v u .right word place with ⟨-, -, he⟩ | ⟨hnot, -⟩
    · rw [lossesAt, lossesAt, List.append_nil]
      exact he
    · exact absurd ⟨hconv, hdef⟩ hnot
  · rcases foldTyped_cases op v w word place with ⟨t, ht, -, he⟩ | ⟨hnot, -⟩
    · obtain rfl : t = ty := Option.some.inj (ht.symm.trans hcommon)
      exact he
    · exact absurd hdef (hnot ty hcommon)

/-- The operands of a fold at a basic type have its shape there. -/
theorem Const.shaped_operandAt (word : WordSize) (hx : x.Shaped) (hy : y.Shaped)
    (hty : x.commonTy? y = some ty) (hbasic : ty.category.isBasic) :
    TypedValue.Shaped ⟨ty, (x.operandAt word ty).value⟩ ∧
      TypedValue.Shaped ⟨ty, (y.operandAt word ty).value⟩ := by
  have narrowed : ∀ u : UntypedConst, TypedValue.Shaped ⟨ty, (u.narrow ty word).1.value⟩ :=
    fun u => (u.narrow_fits ty word).shaped.retag (by rw [UntypedConst.narrow_ty])
  rcases commonTy?_cases hty with
    ⟨v, u, rfl, rfl, -, rfl⟩ | ⟨u, v, rfl, rfl, -, rfl⟩ | ⟨v, w, rfl, rfl, hcommon⟩
  · exact ⟨hx, narrowed u⟩
  · exact ⟨narrowed u, hy⟩
  · obtain ⟨hv, hw⟩ := category_of_commonType? hcommon hbasic
    exact ⟨TypedValue.Shaped.retag hx hv, TypedValue.Shaped.retag hy hw⟩

/-- **A fold that passed the table does not find its operator undefined.** -/
theorem Const.operate_ne_undefined (hx : x.Shaped) (hy : y.Shaped) (hty : x.commonTy? y = some ty)
    (hdef : op.definedOn ty) :
    TypedValue.operate op (x.operandAt word ty) (y.operandAt word ty) ty ≠
      some (.error .undefined) := by
  intro h
  have hbasic := Operator.isBasic_of_definedOn hdef
  obtain ⟨hsx, hsy⟩ := shaped_operandAt word hx hy hty hbasic
  -- the operands may have types of their own, but only their values count
  obtain ⟨hzero, htable⟩ := TypedValue.operate_undefined_iff hbasic hsx hsy h
  by_cases hrem : op.IsRemByZero ty (y.operandAt word ty).value
  · cases hzero hrem
  · rw [(htable hrem).1 rfl] at hdef
    cases hdef

/-- On their way to the common type operands report losses alone. -/
theorem Const.lossesAt_isLoss (hty : x.commonTy? y = some ty)
    (h : k ∈ x.lossesAt word ty ++ y.lossesAt word ty) : k.IsLoss := by
  rcases commonTy?_cases hty with
    ⟨v, u, rfl, rfl, hconv, rfl⟩ | ⟨u, v, rfl, rfl, hconv, rfl⟩ | ⟨v, w, rfl, rfl, -⟩
  · exact UntypedConst.narrow_isLoss hconv h
  · rw [lossesAt, lossesAt, List.append_nil] at h
    exact UntypedConst.narrow_isLoss hconv h
  · cases h

/-- An operation at a type reports an undefined operation only where the evaluation does. -/
theorem foldAt_ne_undefinedOperation {a b : TypedValue} {e : CheckError} (hdef : op.definedOn ty)
    (hne : TypedValue.operate op a b ty ≠ some (.error .undefined))
    (he : e ∈ (foldAt op a b ty word place).errors) : e.kind.code ≠ .undefinedOperation := by
  unfold foldAt at he
  cases hop : TypedValue.operate op a b ty with
  | none =>
    by_cases hn : ty.isNumeric
    · simp [hop, hn, Folded.failed] at he
    · simp only [hop, hn, Bool.false_eq_true, if_false, Folded.failed, List.map_cons, List.map_nil,
        List.mem_singleton] at he
      simp [he, ErrorKind.code]
  | some r =>
    cases r with
    | ok c =>
      simp only [hop, Folded.narrowed, List.mem_map] at he
      obtain ⟨k, hk, rfl⟩ := he
      have hloss := UntypedConst.narrow_isLoss (TypedValue.operate_convertsTo hdef hop) hk
      rcases hloss with h | h <;> simp [h]
    | error f =>
      cases f with
      | divideByZero =>
        simp only [hop, List.mem_singleton] at he
        simp [he, ErrorKind.code]
      | undefined => exact absurd hop hne
      | fault =>
        simp only [hop, Folded.failed, List.map_cons, List.map_nil, List.mem_singleton] at he
        simp [he, ErrorKind.code]

/-- The same of folds that passed the table. -/
theorem Const.fold_ne_undefinedOperation {e : CheckError} (hx : x.Shaped) (hy : y.Shaped)
    (hty : x.commonTy? y = some ty) (hdef : op.definedOn ty)
    (he : e ∈ (x.fold op y word place).errors) : e.kind.code ≠ .undefinedOperation := by
  rw [fold_eq_foldAt hty hdef, Folded.after, List.mem_append, List.mem_map] at he
  rcases he with ⟨k, hk, rfl⟩ | he
  · rcases lossesAt_isLoss hty hk with h | h <;> simp [h]
  · exact foldAt_ne_undefinedOperation hdef (operate_ne_undefined hx hy hty hdef) he

end

/-- **The table of operators and their evaluation agree.**

Evaluated on two finite values of a type that is basic below its names, an operator is undefined if
and only if the table leaves it out at that type; but for a remainder by zero at a type without
remainders, which is a division by zero. Of the values the shape counts alone, not the range. At a
type that is not basic below its names the table leaves out every operator. So a fold that passed
the table never finds its operator undefined, and reports no undefined operation. -/
theorem operate_agrees_with_table :
    (∀ (op : Operator) (ty : Ty) (basic : BasicType) (a b : Value), ty.basic? = some basic →
      TypedValue.Shaped ⟨ty, a⟩ → TypedValue.Shaped ⟨ty, b⟩ → a.IsFinite → b.IsFinite →
      ∃ r, TypedValue.operate op ⟨ty, a⟩ ⟨ty, b⟩ ty = some r ∧
        (op.IsRemByZero ty b → r = .error .divideByZero) ∧
        (¬op.IsRemByZero ty b → (r = .error .undefined ↔ op.definedOn ty = false))) ∧
    (∀ (op : Operator) (ty : Ty), ty.basic? = none → op.definedOn ty = false) ∧
    ∀ (word : WordSize) (op : Operator) (x y : Const) (ty : Ty) (place : OperationSpan),
      x.Shaped → y.Shaped → x.commonTy? y = some ty → op.definedOn ty →
      TypedValue.operate op (x.operandAt word ty) (y.operandAt word ty) ty ≠
          some (.error .undefined) ∧
        ∀ e ∈ (x.fold op y word place).errors, e.kind.code ≠ .undefinedOperation := by
  refine ⟨?_, fun op ty => Operator.definedOn_of_basic?_eq_none, ?_⟩
  · intro op ty basic a b hbasic ha hb hfa hfb
    have hcat : ty.category.isBasic := Ty.isBasic_of_basic? hbasic
    obtain ⟨r, hr⟩ := TypedValue.exists_operate op hcat ha hb hfa hfb
    exact ⟨r, hr, TypedValue.operate_undefined_iff hcat ha hb hr⟩
  · intro word op x y ty place hx hy hty hdef
    exact ⟨Const.operate_ne_undefined hx hy hty hdef,
      fun e he => Const.fold_ne_undefinedOperation hx hy hty hdef he⟩

/-- Remainders and quotients of floats under a name: seven by two, and seven by minus zero. -/
theorem operate_agrees_with_table_celsius : ∃ celsius : Ty, celsius.isNamed ∧
    celsius.basic? = some .float32 ∧ Operator.definedOn .rem celsius = false ∧
    TypedValue.operate .rem ⟨celsius, .float (.finite 7)⟩ ⟨celsius, .float (.finite 2)⟩ celsius =
      some (.error .undefined) ∧
    TypedValue.operate .rem ⟨celsius, .float (.finite 7)⟩ ⟨celsius, .float .negZero⟩ celsius =
      some (.error .divideByZero) ∧
    Operator.definedOn .eq (.pointer celsius) = false ∧
    ∀ e ∈ (Const.fold .quo (.typed ⟨celsius, .float (.finite 7)⟩) (.number (.ofInt 2)) .bits64
      ⟨⟨0, 5⟩, ⟨4, 5⟩⟩).errors, e.kind.code ≠ .undefinedOperation := by
  let celsius : Ty := .declared "Celsius" .float32
  obtain ⟨hbasic, hnone, hguard⟩ := operate_agrees_with_table
  obtain ⟨r, hr, -, htable⟩ := hbasic .rem celsius .float32 (.float (.finite 7))
    (.float (.finite 2)) rfl ⟨_, rfl⟩ ⟨_, rfl⟩ rfl rfl
  obtain ⟨s, hs, hzero, -⟩ := hbasic .rem celsius .float32 (.float (.finite 7)) (.float .negZero)
    rfl ⟨_, rfl⟩ ⟨_, rfl⟩ rfl rfl
  obtain ⟨-, herrors⟩ := hguard .bits64 .quo (.typed ⟨celsius, .float (.finite 7)⟩)
    (.number (.ofInt 2)) celsius ⟨⟨0, 5⟩, ⟨4, 5⟩⟩ ⟨_, rfl⟩ trivial rfl rfl
  have hnot : ¬Operator.IsRemByZero .rem celsius (.float (.finite 2)) := by
    rintro ⟨-, -, -, n, hn, hz⟩
    cases hn
    cases hz
  refine ⟨celsius, rfl, rfl, rfl, ?_, ?_, hnone .eq (.pointer celsius) rfl, herrors⟩
  · rw [hr, (htable hnot).2 rfl]
  · rw [hs, hzero ⟨rfl, rfl, rfl, _, rfl, rfl⟩]

end ConstCheck
