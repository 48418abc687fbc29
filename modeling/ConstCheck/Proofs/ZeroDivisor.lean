import ConstCheck.Proofs.Evaluations
import ConstCheck.Proofs.OperatorTable

/-!
# Division by zero

A quotient or remainder of two constants is a division by zero if the exact number that it divides
by is zero. That is the right operand after it took the type of the left one, so a fraction that an
integer type cuts off, or a float too small for its type, divides by zero as well; and it is the
right operand that the report stands at, wherever the typed operand is.

* `Const.IsNumber`, `Const.Combines`: the numbers that are divided, and those that go together.
* `Const.divisor?`: the exact number that is divided by.
* `Const.zeroWith?`: the zero of the common kind or type.
* `Folded.Divides`: one report at the divisor and the zero as value, or no report.
* `foldUntyped_divides`, `foldAt_divides`: operations on two untyped numbers, and at a type.
* `divideByZero_iff_divisor_isZero` (every word size and any two numbers that go together): **a
  division by zero is reported, once and at the right operand, if and only if the divisor is zero**.
-/

namespace ConstCheck

/-- A well-kinded number, or a finite value that fits its type of numbers. -/
def Const.IsNumber (word : WordSize) : Const → Prop
  | untyped (.number n) => n.WellKinded
  | untyped _ => False
  | typed v => v.ty.isNumeric ∧ v.Fits word ∧ v.value.IsFinite

/-- Two constants go together under an operator: none is typed, or they have a common type on which
the operator is defined and at which an untyped one is finite. -/
inductive Const.Combines (word : WordSize) (op : Operator) : Const → Const → Prop
  | untyped (a b : UntypedConst) : Combines word op (.untyped a) (.untyped b)
  | typed {x y : Const} {ty : Ty} (hty : x.commonTy? y = some ty) (hdef : op.definedOn ty)
    (hfinite : ∀ u, x = .untyped u ∨ y = .untyped u → (u.narrow ty word).1.value.IsFinite) :
    Combines word op x y

/-- The exact number that an operation divides by: the right operand, which takes the type of a
typed left one if it has none. -/
def Const.divisor? (word : WordSize) : Const → Const → Option Number
  | typed v, untyped u => (u.narrow v.ty word).1.number?
  | untyped _, untyped (.number n) => some n
  | untyped _, untyped _ => none
  | _, typed w => w.number?

/-- Zero of the common kind of two untyped constants, or of the common type. -/
def Const.zeroWith? : Const → Const → Option Const
  | untyped a, untyped b =>
    match a.kind.promote b.kind with
    | .ok kind => some (.number (.zeroOf kind))
    | .error _ => none
  | a, b => (a.commonTy? b).map fun ty => .typed (.zero ty)

/-- The outcome of a division by a number: one report of a division by zero, at the divisor, and a
zero as the value; or no such report. There is no fault either way. -/
structure Folded.Divides (place : OperationSpan) (zero : Const) (d : Number) (f : Folded) :
    Prop where
  errors : f.errors.filter (·.kind.code = .divideByZero) =
    if d.isZero then [⟨place.divisor, .divideByZero⟩] else []
  value : d.isZero → f.value = some zero
  fault : ∀ e ∈ f.errors, e.kind ≠ .arithmeticFault

/-! ## One division -/

namespace Operator

variable {op : Operator} {x y : Number} {ty : Ty}

/-- **A division by zero is a division by the number zero**, whatever the kinds. -/
theorem onNumbers_divideByZero_iff :
    op.onNumbers x y = .error .divideByZero ↔ op.isDivision ∧ y.isZero := by
  have integral : ∀ f, onIntegral f x y ≠ .error .divideByZero := by
    intro f
    unfold onIntegral
    split <;> simp
  cases op with
  | quo =>
    by_cases hz : y.isZero
    · simp [onNumbers, isDivision, hz]
    · simp only [onNumbers, hz]
      cases x.quo? y <;> simp
  | rem =>
    by_cases hz : y.isZero
    · simp [onNumbers, isDivision, hz]
    · simpa [onNumbers, hz] using integral _
  | and | or | xor | andNot => simpa [onNumbers, isDivision] using integral _
  | lt | le | gt | ge =>
    simp only [onNumbers, isDivision, Bool.false_eq_true, false_and, iff_false]
    split <;> simp
  | add | sub | mul | eq | ne | logicalAnd | logicalOr => simp [onNumbers, isDivision]

/-- A type on which a division is defined holds numbers. -/
theorem isNumeric_of_isDivision (hop : op.isDivision) (hdef : op.definedOn ty) : ty.isNumeric := by
  cases op with
  | quo => exact hdef
  | rem => exact Ty.isNumeric_of_isIntegral hdef
  | _ => cases hop

/-- The result of a division is of the type of the operands. -/
theorem resultType_of_isDivision (hop : op.isDivision) : op.resultType ty = ty := by
  cases op with
  | quo | rem => rfl
  | _ => cases hop

end Operator

/-! ## Errors beside a division -/

/-- An error that is no division by zero, and no fault. -/
def ErrorKind.IsBeside (k : ErrorKind) : Prop := k.code ≠ .divideByZero ∧ k ≠ .arithmeticFault

theorem ErrorKind.IsLoss.isBeside {k : ErrorKind} (h : k.IsLoss) : k.IsBeside := by
  constructor
  · rcases h with h | h <;> simp [h]
  · rintro rfl
    rcases h with h | h <;> cases h

theorem ErrorKind.IsBeside.undefinedOperation {op : Operator} {left right : KnownType} :
    IsBeside (.undefinedOperation op left right) := by
  simp [IsBeside, code]

namespace Folded.Divides

variable {place : OperationSpan} {zero : Const} {d : Number} {kinds : List ErrorKind}

theorem filter_beside {span : Span} (hk : ∀ k ∈ kinds, k.IsBeside) :
    (kinds.map (CheckError.mk span)).filter (·.kind.code = .divideByZero) = [] := by
  rw [List.filter_eq_nil_iff]
  intro e he
  obtain ⟨k, hmem, rfl⟩ := List.mem_map.1 he
  simpa using (hk k hmem).1

/-- Losses may come before a division. -/
theorem after {f : Folded} (h : f.Divides place zero d) (hk : ∀ k ∈ kinds, k.IsLoss) :
    (Folded.after place kinds f).Divides place zero d where
  errors := by
    rw [Folded.after, List.filter_append, filter_beside fun k hmem => (hk k hmem).isBeside,
      List.nil_append, h.errors]
  value := h.value
  fault := by
    intro e he
    rcases List.mem_append.1 he with he | he
    · obtain ⟨k, hmem, rfl⟩ := List.mem_map.1 he
      exact (hk k hmem).isBeside.2
    · exact h.fault e he

/-- A division by zero: one report, and a zero. -/
theorem of_isZero (hz : d.isZero) :
    Divides place zero d ⟨some zero, [⟨place.divisor, .divideByZero⟩]⟩ where
  errors := by simp [hz, ErrorKind.code]
  value _ := rfl
  fault := by simp

/-- A division by another number, which may fail for another reason. -/
theorem of_ne_zero {value : Option Const} (hz : d.isZero = false)
    (hk : ∀ k ∈ kinds, k.IsBeside) :
    Divides place zero d ⟨value, kinds.map (⟨place.whole, ·⟩)⟩ where
  errors := by simp [hz, filter_beside hk]
  value h := by simp [hz] at h
  fault := by
    intro e he
    obtain ⟨k, hmem, rfl⟩ := List.mem_map.1 he
    exact (hk k hmem).2

end Folded.Divides

/-! ## Folds -/

section

variable {op : Operator} {place : OperationSpan} {word : WordSize} {m n : Number}

/-- What a division of well-kinded numbers comes to: it is by zero, or has a result, or is a
remainder that is not defined. -/
theorem Operator.onNumbers_division (hop : op.isDivision) (hm : m.WellKinded) (hn : n.WellKinded) :
    (n.isZero ∧ op.onNumbers m n = .error .divideByZero) ∨
    (n.isZero = false ∧
      ((∃ c, op.onNumbers m n = .ok c) ∨ op.onNumbers m n = .error .undefined)) := by
  by_cases hz : n.isZero
  · exact .inl ⟨hz, onNumbers_divideByZero_iff.2 ⟨hop, hz⟩⟩
  · refine .inr ⟨by simpa using hz, ?_⟩
    cases h : op.onNumbers m n with
    | ok c => exact .inl ⟨c, rfl⟩
    | error f =>
      cases f with
      | divideByZero => exact absurd (onNumbers_divideByZero_iff.1 h).2 hz
      | undefined => exact .inr rfl
      | fault => exact absurd h (onNumbers_ne_fault hm hn)

/-- **A division of two untyped numbers.** -/
theorem foldUntyped_divides (hop : op.isDivision) (hm : m.WellKinded) (hn : n.WellKinded) :
    (foldUntyped op (.number m) (.number n) place).Divides place
      (.number (.zeroOf (.number (m.kind.join n.kind)))) n := by
  simp only [foldUntyped, UntypedConst.kind, Kind.promote, UntypedConst.operate_numbers]
  rcases Operator.onNumbers_division hop hm hn with ⟨hz, h⟩ | ⟨hz, ⟨c, h⟩ | h⟩
  · rw [h]
    exact .of_isZero hz
  · rw [h]
    exact Folded.Divides.of_ne_zero hz (List.forall_mem_nil _)
  · rw [h]
    exact .of_ne_zero hz (List.forall_mem_singleton.2 .undefinedOperation)

/-- **A division of two numbers at a type.** -/
theorem foldAt_divides {a b : TypedValue} {ty : Ty} (hop : op.isDivision) (hdef : op.definedOn ty)
    (ha : a.number? = some m) (hb : b.number? = some n) :
    (foldAt op a b ty word place).Divides place (.typed (.zero ty)) n := by
  have hty := Operator.isNumeric_of_isDivision hop hdef
  have hoperate : TypedValue.operate op a b ty = some (op.onNumbers m n) := by
    simp [TypedValue.operate, hty, ha, hb]
  simp only [foldAt, hoperate, Operator.resultType_of_isDivision hop]
  have hm := TypedValue.number?_wellKinded ha
  have hn := TypedValue.number?_wellKinded hb
  rcases Operator.onNumbers_division hop hm hn with ⟨hz, h⟩ | ⟨hz, ⟨c, h⟩ | h⟩
  · rw [h]
    exact .of_isZero hz
  · rw [h] at hoperate ⊢
    have hconv := TypedValue.operate_convertsTo hdef hoperate
    rw [Operator.resultType_of_isDivision hop] at hconv
    exact .of_ne_zero hz fun k hk => (UntypedConst.narrow_isLoss hconv hk).isBeside
  · rw [h]
    exact .of_ne_zero hz (List.forall_mem_singleton.2 .undefinedOperation)

end

namespace Const

variable {op : Operator} {place : OperationSpan} {word : WordSize} {x y : Const} {ty : Ty}

theorem IsNumber.shaped (h : x.IsNumber word) : x.Shaped := by
  cases x with
  | untyped u => trivial
  | typed v => exact h.2.1.shaped

/-- The divisor is the right operand at the common type. -/
theorem divisor?_of_commonTy? (hty : x.commonTy? y = some ty) :
    x.divisor? word y = (y.operandAt word ty).number? := by
  rcases commonTy?_cases hty with
    ⟨v, u, rfl, rfl, -, rfl⟩ | ⟨u, v, rfl, rfl, -, rfl⟩ | ⟨v, w, rfl, rfl, -⟩ <;> rfl

theorem zeroWith?_of_commonTy? (hty : x.commonTy? y = some ty) :
    x.zeroWith? y = some (.typed (.zero ty)) := by
  rcases commonTy?_cases hty with
    ⟨v, u, rfl, rfl, -⟩ | ⟨u, v, rfl, rfl, -⟩ | ⟨v, w, rfl, rfl, -⟩ <;>
    simp only [zeroWith?, hty, Option.map_some]

/-- **A division of two numbers that go together.** -/
theorem fold_divides (hop : op.isDivision) (hx : x.IsNumber word) (hy : y.IsNumber word)
    (hc : x.Combines word op y) :
    ∃ d zero, x.divisor? word y = some d ∧ x.zeroWith? y = some zero ∧
      (x.fold op y word place).Divides place zero d := by
  cases hc with
  | untyped a b =>
    cases a with
    | number m =>
      cases b with
      | number n => exact ⟨n, _, rfl, rfl, foldUntyped_divides hop hx hy⟩
      | _ => cases hy
    | _ => cases hx
  | @typed _ _ ty hty hdef hfinite =>
    have hn := Operator.isNumeric_of_isDivision hop hdef
    have hbasic := Operator.isBasic_of_definedOn hdef
    obtain ⟨hsx, hsy⟩ := shaped_operandAt word hx.shaped hy.shaped hty hbasic
    have hfx : (x.operandAt word ty).value.IsFinite := by
      cases x with
      | untyped u => exact hfinite u (.inl rfl)
      | typed v => exact hx.2.2
    have hfy : (y.operandAt word ty).value.IsFinite := by
      cases y with
      | untyped u => exact hfinite u (.inr rfl)
      | typed v => exact hy.2.2
    obtain ⟨m, hm⟩ := hsx.exists_number? hn hfx
    obtain ⟨n, hd⟩ := hsy.exists_number? hn hfy
    refine ⟨n, _, (divisor?_of_commonTy? hty).trans hd, zeroWith?_of_commonTy? hty, ?_⟩
    rw [fold_eq_foldAt hty hdef]
    exact (foldAt_divides hop hdef hm hd).after fun k => lossesAt_isLoss hty

end Const

/-! ## Checked operations -/

/-- **A division by zero is reported if and only if the divisor is zero**, once and at the right
operand; the value is then the zero of the common kind or type.

The operands are two constants, numbers both; where one of them is typed, they have a common type on
which the operator is defined, and an untyped one is finite there. The divisor is the exact number
that the right operand is at the type of the left one. No division is a fault of the arithmetic. -/
theorem divideByZero_iff_divisor_isZero {ctx : Context} {op : Operator} {l r : Node} {x y : Const}
    (span : Span) (hop : op.isDivision) (hl : l.info = .ofConst x) (hr : r.info = .ofConst y)
    (hx : x.IsNumber ctx.word) (hy : y.IsNumber ctx.word) (hc : x.Combines ctx.word op y) :
    ∃ d zero, x.divisor? ctx.word y = some d ∧ x.zeroWith? y = some zero ∧
      (ctx.binaryInfo op l r span).errors.filter (·.kind.code = .divideByZero) =
        (if d.isZero then [⟨r.span, .divideByZero⟩] else []) ∧
      (d.isZero → (ctx.binaryInfo op l r span).info = .ofConst zero) ∧
      ∀ e ∈ (ctx.binaryInfo op l r span).errors, e.kind ≠ .arithmeticFault := by
  obtain ⟨d, zero, hd, hzero, hfold⟩ := Const.fold_divides hop hx hy hc
  rw [Context.binaryInfo_of_constants op span hl hr]
  refine ⟨d, zero, hd, hzero, hfold.errors, fun hz => ?_, hfold.fault⟩
  rw [hfold.value hz, Info.ofConst?]

/-- Nine, an `int8`, over three tenths: the divisor loses its fraction, and is zero. -/
theorem divideByZero_iff_divisor_isZero_fraction : ∃ (ctx : Context) (l r : Node),
    l.info = .ofConst (.typed ⟨.basic .int8, .int 9⟩) ∧
    r.info = .ofConst (.number (.ofRat (3 / 10))) ∧ r.span = ⟨4, 7⟩ ∧
    (ctx.binaryInfo .quo l r ⟨0, 7⟩).errors.filter (·.kind.code = .divideByZero) =
      [⟨⟨4, 7⟩, .divideByZero⟩] ∧
    (ctx.binaryInfo .quo l r ⟨0, 7⟩).info = .ofConst (.typed (.zero (.basic .int8))) := by
  let ctx : Context := .ofConsts .bits32 []
  let x : Const := .typed ⟨.basic .int8, .int 9⟩
  let y : Const := .number (.ofRat (3 / 10))
  let l : Node := .mk ⟨0, 1⟩ .literal (.ofConst x)
  let r : Node := .mk ⟨4, 7⟩ .literal (.ofConst y)
  have hx : x.IsNumber .bits32 := ⟨rfl, ⟨9, rfl, by decide, by decide⟩, trivial⟩
  have hy : y.IsNumber .bits32 := Number.wellKinded_ofRat _
  have hc : Const.Combines .bits32 .quo (.typed ⟨.basic .int8, .int 9⟩)
      (.number (.ofRat (3 / 10))) := by
    refine .typed rfl rfl ?_
    rintro u (h | h)
    · cases h
    · cases h
      trivial
  obtain ⟨d, zero, hd, hzero, herrors, hinfo, -⟩ :=
    @divideByZero_iff_divisor_isZero ctx .quo l r x y ⟨0, 7⟩ rfl rfl rfl hx hy hc
  have hd' : x.divisor? .bits32 y = some (.ofInt 0) := by decide +kernel
  obtain rfl : d = .ofInt 0 := Option.some.inj (hd.symm.trans hd')
  cases hzero
  exact ⟨ctx, l, r, rfl, rfl, rfl, herrors, hinfo rfl⟩

end ConstCheck
