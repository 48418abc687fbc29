import ConstCheck.Proofs.Lost

/-!
# The errors that a rule adds

Nearly all errors speak of the expression. Two causes speak of the checker: an internal error, and a
fault of the arithmetic. Here stands, for each rule, when an error of its own can be one of the two.

* `ErrorKind.IsReport`: the errors that speak of the expression.
* `Const.Evaluates`: the two numbers to which folding two constants applies an operator.
* `UntypedConst.narrow_isReport`, `Const.convert_isReport`: narrowing a kind that converts, and
  explicit conversions, report.
* `Const.fold_errors` (all operators and constants): **an error of a fold is a report**, unless the
  operator faults on the two numbers or a constant is not of the shape of its type.
* `Context.checkLeaf_isReport`, `Context.callInfo_isReport`: leaves and calls report.
* `Tree.causes_of_mem_errors`: **an error of an expression is a report**, or comes from the fold of
  an operation in it, or from a number of no expression.
-/

namespace ConstCheck

/-- An error in the expression, and neither a failure of the checker nor a fault. -/
def ErrorKind.IsReport (k : ErrorKind) : Prop := k.code.isReport = true

theorem ErrorKind.isReport_iff {k : ErrorKind} :
    k.IsReport ↔ k ≠ .internal ∧ k ≠ .arithmeticFault := by
  cases k with
  | builtin e => cases e <;> simp [IsReport, code, ErrorCode.isReport]
  | _ => simp [IsReport, code, ErrorCode.isReport]

/-- The code of internal errors is theirs alone. -/
theorem ErrorKind.code_eq_internal_iff {k : ErrorKind} : k.code = .internal ↔ k = .internal := by
  cases k with
  | builtin e => cases e <;> simp [code]
  | _ => simp [code]

/-! ## Narrowing and conversions -/

section

variable {word : WordSize} {ty : Ty} {k : ErrorKind}

/-- Where the kind converts, narrowing reports. -/
theorem UntypedConst.narrow_isReport {c : UntypedConst} (hconv : c.kind.convertsTo ty)
    (h : k ∈ (c.narrow ty word).2) : k.IsReport := by
  obtain ⟨n, -, ⟨kind, rfl⟩ | rfl⟩ := losses_of_mem_narrow hconv h <;> rfl

/-- **An explicit conversion reports.** -/
theorem Const.convert_isReport {c : Const} (h : k ∈ (c.convert ty word).2) : k.IsReport := by
  cases c with
  | untyped u =>
    by_cases hconv : u.kind.convertsTo ty
    · simp only [convert, hconv, if_true] at h
      exact UntypedConst.narrow_isReport hconv h
    · simp only [convert, hconv, Bool.false_eq_true, if_false, List.mem_singleton] at h
      rw [h]; rfl
  | typed v =>
    by_cases hconv : v.ty.convertibleTo ty
    · by_cases hn : ty.isNumeric
      · cases hnum : v.number? with
        | none => simp [convert, hconv, hn, hnum] at h
        | some n =>
          simp only [convert, hconv, hn, hnum, Bool.not_true, Bool.false_eq_true, if_false,
            if_true] at h
          exact UntypedConst.narrow_isReport (c := .number n) hn h
      · simp [convert, hconv, hn] at h
    · simp only [convert, hconv, Bool.not_false, if_true, List.mem_singleton] at h
      rw [h]; rfl

end

/-! ## Operators at a type -/

namespace Operator

variable {op : Operator} {ty : Ty} {c : UntypedConst}

/-- A type with operators is basic. -/
theorem isBasic_of_definedOn (h : op.definedOn ty) : ty.category.isBasic := by
  unfold definedOn Ty.isNumeric Ty.isIntegral Ty.isOrdered Ty.isReal at h
  cases op <;> cases hc : ty.category <;>
    simp_all [Category.isBasic, Category.isNumeric, Category.isIntegral, Category.isReal]

/-- What an operator yields on numbers converts to its result type at a number type. -/
theorem onNumbers_convertsTo {x y : Number} (hn : ty.isNumeric) (h : op.onNumbers x y = .ok c) :
    c.kind.convertsTo (op.resultType ty) := by
  have integral : ∀ f, onIntegral f x y = .ok c → c.kind.convertsTo ty := by
    intro f hf
    unfold onIntegral at hf
    split at hf <;> cases hf
    exact hn
  cases op with
  | add | sub | mul => cases h; exact hn
  | quo =>
    simp only [onNumbers] at h
    split at h
    · cases h
    · split at h <;> cases h
      exact hn
  | rem =>
    simp only [onNumbers] at h
    split at h
    · cases h
    · exact integral _ h
  | and | or | xor | andNot => exact integral _ h
  | eq | ne => cases h; rfl
  | lt | le | gt | ge =>
    simp only [onNumbers] at h
    split at h <;> cases h
    rfl
  | logicalAnd | logicalOr => cases h

/-- What an operator yields on strings converts to its result type, where it is defined. -/
theorem onStrings_convertsTo {s t : String} (hdef : op.definedOn ty) (hn : ty.isNumeric = false)
    (h : op.onStrings s t = .ok c) : c.kind.convertsTo (op.resultType ty) := by
  cases op with
  | add =>
    cases h
    rw [definedOn, hn, Bool.false_or] at hdef
    exact hdef
  | eq | ne | lt | le | gt | ge => cases h; rfl
  | _ => cases h

/-- What an operator yields on bools converts to its result type, where it is defined. -/
theorem onBools_convertsTo {p q : Bool} (hdef : op.definedOn ty) (h : op.onBools p q = .ok c) :
    c.kind.convertsTo (op.resultType ty) := by
  cases op with
  | eq | ne => cases h; rfl
  | logicalAnd | logicalOr => cases h; exact hdef
  | _ => cases h

theorem onStrings_ne_fault {s t : String} : op.onStrings s t ≠ .error .fault := by
  cases op <;> simp [onStrings]

theorem onBools_ne_fault {p q : Bool} : op.onBools p q ≠ .error .fault := by
  cases op <;> simp [onBools]

end Operator

section

variable {op : Operator} {ty : Ty} {a b : TypedValue} {word : WordSize} {place : OperationSpan}

/-- What two values at a type are operated on as: two numbers, two strings or two bools. -/
theorem TypedValue.operate_eq_some {r : Except OpError UntypedConst}
    (h : TypedValue.operate op a b ty = some r) :
    (ty.isNumeric ∧ ∃ x y, a.number? = some x ∧ b.number? = some y ∧ r = op.onNumbers x y) ∨
    (ty.isNumeric = false ∧ ∃ s t, r = op.onStrings s t) ∨
    (ty.isNumeric = false ∧ ∃ p q, r = op.onBools p q) := by
  unfold operate at h
  split at h
  · rename_i hn
    simp only [Option.bind_eq_bind, Option.bind_eq_some_iff, Option.pure_def,
      Option.some.injEq] at h
    obtain ⟨x, hx, y, hy, rfl⟩ := h
    exact .inl ⟨hn, x, y, hx, hy, rfl⟩
  · rename_i hn
    split at h
    · cases h; exact .inr (.inl ⟨by simpa using hn, _, _, rfl⟩)
    · cases h; exact .inr (.inr ⟨by simpa using hn, _, _, rfl⟩)
    · cases h

/-- **What an operator yields at a type where it is defined converts to its result type.** -/
theorem TypedValue.operate_convertsTo {c : UntypedConst} (hdef : op.definedOn ty)
    (h : TypedValue.operate op a b ty = some (.ok c)) : c.kind.convertsTo (op.resultType ty) := by
  rcases operate_eq_some h with ⟨hn, x, y, -, -, hr⟩ | ⟨hn, s, t, hr⟩ | ⟨-, p, q, hr⟩
  · exact Operator.onNumbers_convertsTo hn hr.symm
  · exact Operator.onStrings_convertsTo hdef hn hr.symm
  · exact Operator.onBools_convertsTo hdef hr.symm

/-- Two values of their shape at a basic type without numbers are strings or bools, both. -/
theorem TypedValue.strings_or_bools {x y : Value} (hbasic : ty.category.isBasic)
    (hn : ty.isNumeric = false) (hx : Shaped ⟨ty, x⟩) (hy : Shaped ⟨ty, y⟩) :
    (ty.category = .string ∧ ∃ s t, x = .str s ∧ y = .str t) ∨
    (ty.category = .bool ∧ ∃ p q, x = .bool p ∧ y = .bool q) := by
  unfold Ty.isNumeric at hn
  unfold Shaped at hx hy
  cases hc : ty.category with
  | string =>
    simp only [hc] at hx hy
    obtain ⟨s, rfl⟩ := hx
    obtain ⟨t, rfl⟩ := hy
    exact .inl ⟨rfl, s, t, rfl, rfl⟩
  | bool =>
    simp only [hc] at hx hy
    obtain ⟨p, rfl⟩ := hx
    obtain ⟨q, rfl⟩ := hy
    exact .inr ⟨rfl, p, q, rfl, rfl⟩
  | signed | unsigned | float | complex => simp [hc, Category.isNumeric] at hn
  | nilable | array | package => simp [hc, Category.isBasic] at hbasic

/-- Two values of their shape at a basic type without numbers are operated on. -/
theorem TypedValue.operate_isSome (op : Operator) (hbasic : ty.category.isBasic)
    (hn : ty.isNumeric = false) (ha : a.Shaped) (hb : b.Shaped) (hca : a.ty.category = ty.category)
    (hcb : b.ty.category = ty.category) : (TypedValue.operate op a b ty).isSome := by
  unfold operate
  rw [hn]
  rcases strings_or_bools hbasic hn (ha.retag hca) (hb.retag hcb) with
    ⟨-, s, t, hs, ht⟩ | ⟨-, p, q, hp, hq⟩
  · simp [hs, ht]
  · simp [hp, hq]

/-- **The errors of an operation at a type where the operator is defined.** Those that are no
reports come of a fault on the two numbers, or of values that are neither two strings nor two
bools. -/
theorem foldAt_errors (hdef : op.definedOn ty) {e : CheckError}
    (h : e ∈ (foldAt op a b ty word place).errors) :
    e.kind.IsReport ∨
    (e.kind = .arithmeticFault ∧ ty.isNumeric ∧ ∃ x y, a.number? = some x ∧ b.number? = some y ∧
      op.onNumbers x y = .error .fault) ∨
    (e.kind = .internal ∧ ty.isNumeric = false ∧ TypedValue.operate op a b ty = none) := by
  unfold foldAt at h
  cases hop : TypedValue.operate op a b ty with
  | none =>
    by_cases hn : ty.isNumeric
    · simp [hop, hn, Folded.failed] at h
    · simp only [hop, hn, Bool.false_eq_true, if_false, Folded.failed, List.map_cons, List.map_nil,
        List.mem_singleton] at h
      rw [h]
      exact .inr (.inr ⟨rfl, by simpa using hn, rfl⟩)
  | some r =>
    cases r with
    | ok c =>
      simp only [hop, Folded.narrowed, List.mem_map] at h
      obtain ⟨k, hk, rfl⟩ := h
      exact .inl (UntypedConst.narrow_isReport (TypedValue.operate_convertsTo hdef hop) hk)
    | error f =>
      cases f with
      | divideByZero | undefined =>
        simp only [hop, Folded.failed, List.map_cons, List.map_nil, List.mem_singleton] at h
        rw [h]
        exact .inl rfl
      | fault =>
        simp only [hop, Folded.failed, List.map_cons, List.map_nil, List.mem_singleton] at h
        rw [h]
        refine .inr (.inl ⟨rfl, ?_⟩)
        rcases TypedValue.operate_eq_some hop with
          ⟨hn, x, y, hx, hy, hr⟩ | ⟨-, s, t, hr⟩ | ⟨-, p, q, hr⟩
        · exact ⟨hn, x, y, hx, hy, hr.symm⟩
        · exact absurd hr.symm Operator.onStrings_ne_fault
        · exact absurd hr.symm Operator.onBools_ne_fault

end

/-! ## Folds -/

/-- A typed constant is of the shape of its type. -/
def Const.Shaped : Const → Prop
  | untyped _ => True
  | typed v => v.Shaped

/-- Folding two constants by an operator evaluates it on two numbers: on two untyped ones, or on
what the operands are at their common type, if that is a number type on which the operator is
defined. -/
inductive Const.Evaluates (word : WordSize) (op : Operator) : Const → Const → Number → Number → Prop
  | untyped (x y : Number) : Evaluates word op (.number x) (.number y) x y
  | typed {a b : Const} {ty : Ty} {x y : Number} (hty : a.commonTy? b = some ty)
    (hdef : op.definedOn ty) (hn : ty.isNumeric) (hx : (a.operandAt word ty).number? = some x)
    (hy : (b.operandAt word ty).number? = some y) : Evaluates word op a b x y

/-- Two typed operands combine at a type of the category of both, if the type is basic. -/
theorem category_of_commonType? {s t ty : Ty} (h : commonType? s t = some ty)
    (hb : ty.category.isBasic) : s.category = ty.category ∧ t.category = ty.category := by
  have alike : ∀ {source target : Ty}, source.assignableTo target → target.category.isBasic →
      source.category = target.category := fun ha hbasic =>
    Ty.category_of_underlying_eq ((Ty.assignableTo_iff (Ty.ne_any_of_isBasic hbasic)).1 ha).1
  unfold commonType? at h
  split at h
  · rename_i hst
    cases h
    exact ⟨alike hst hb, rfl⟩
  · split at h
    · rename_i hts
      cases h
      exact ⟨rfl, alike hts hb⟩
    · cases h

section

variable {op : Operator} {word : WordSize} {place : OperationSpan} {e : CheckError}

theorem foldUntyped_errors {a b : UntypedConst} (h : e ∈ (foldUntyped op a b place).errors) :
    e.kind.IsReport ∨ (e.kind = .arithmeticFault ∧
      ∃ x y, a = .number x ∧ b = .number y ∧ op.onNumbers x y = .error .fault) := by
  unfold foldUntyped at h
  cases hkind : a.kind.promote b.kind with
  | error misfits =>
    simp only [hkind, Folded.failed, List.mem_map, List.mem_append, List.mem_singleton] at h
    obtain ⟨k, ⟨m, -, rfl⟩ | rfl, rfl⟩ := h <;> exact .inl rfl
  | ok kind =>
    cases hop : a.operate op kind b with
    | ok c => simp [hkind, hop] at h
    | error f =>
      cases f with
      | divideByZero | undefined =>
        simp only [hkind, hop, Folded.failed, List.map_cons, List.map_nil, List.mem_singleton] at h
        rw [h]
        exact .inl rfl
      | fault =>
        simp only [hkind, hop, Folded.failed, List.map_cons, List.map_nil, List.mem_singleton] at h
        rw [h]
        refine .inr ⟨rfl, ?_⟩
        unfold UntypedConst.operate at hop
        split at hop
        · rename_i x y
          refine ⟨x, y, rfl, rfl, ?_⟩
          cases hnumbers : op.onNumbers x y with
          | ok c => simp [hnumbers, Except.map] at hop
          | error f => simpa [hnumbers, Except.map] using hop
        · exact absurd hop Operator.onStrings_ne_fault
        · exact absurd hop Operator.onBools_ne_fault
        · cases hop

theorem foldMixed_errors {v : TypedValue} {u : UntypedConst} {side : Side}
    (h : e ∈ (foldMixed op v u side word place).errors) :
    e.kind.IsReport ∨
    u.kind.convertsTo v.ty ∧ op.definedOn v.ty ∧
      ((e.kind = .arithmeticFault ∧ v.ty.isNumeric ∧ ∃ x y,
        (side.pick v (u.narrow v.ty word).1).number? = some x ∧
        (side.pick (u.narrow v.ty word).1 v).number? = some y ∧
        op.onNumbers x y = .error .fault) ∨
      (e.kind = .internal ∧ ¬v.Shaped)) := by
  unfold foldMixed at h
  by_cases hconv : u.kind.convertsTo v.ty
  · have losses : ∀ k ∈ (u.narrow v.ty word).2, k.IsReport := fun k hk =>
      UntypedConst.narrow_isReport hconv hk
    by_cases hdef : op.definedOn v.ty
    · simp only [hconv, hdef, Bool.not_true, Bool.false_eq_true, if_false, Folded.after,
        List.mem_append, List.mem_map] at h
      rcases h with ⟨k, hk, rfl⟩ | h
      · exact .inl (losses k hk)
      rcases foldAt_errors hdef h with hrep | hfault | ⟨hint, hn, hnone⟩
      · exact .inl hrep
      · exact .inr ⟨hconv, hdef, .inl hfault⟩
      · -- the narrowed operand has its shape, so the other one has not
        refine .inr ⟨hconv, hdef, .inr ⟨hint, fun hv => ?_⟩⟩
        have hu := (u.narrow_fits v.ty word).shaped
        have hbasic := Operator.isBasic_of_definedOn hdef
        have hcat : (u.narrow v.ty word).1.ty.category = v.ty.category := by
          rw [UntypedConst.narrow_ty]
        have hsome : (TypedValue.operate op (side.pick v (u.narrow v.ty word).1)
            (side.pick (u.narrow v.ty word).1 v) v.ty).isSome := by
          cases side with
          | left => exact TypedValue.operate_isSome op hbasic hn hv hu rfl hcat
          | right => exact TypedValue.operate_isSome op hbasic hn hu hv hcat rfl
        rw [hnone] at hsome
        cases hsome
    · simp only [hconv, hdef, Bool.not_true, Bool.not_false, Bool.false_eq_true, if_false, if_true,
        Folded.failed, List.mem_map, List.mem_append, List.mem_singleton] at h
      obtain ⟨k, hk | rfl, rfl⟩ := h
      · exact .inl (losses k hk)
      · exact .inl rfl
  · simp only [hconv, Bool.not_false, if_true, Folded.failed, List.map_cons, List.map_nil,
      List.mem_cons, List.not_mem_nil, or_false] at h
    rcases h with rfl | rfl <;> exact .inl rfl

theorem foldTyped_errors {a b : TypedValue} (h : e ∈ (foldTyped op a b word place).errors) :
    e.kind.IsReport ∨ ∃ ty, commonType? a.ty b.ty = some ty ∧ op.definedOn ty ∧
      ((e.kind = .arithmeticFault ∧ ty.isNumeric ∧ ∃ x y, a.number? = some x ∧
        b.number? = some y ∧ op.onNumbers x y = .error .fault) ∨
      (e.kind = .internal ∧ ¬(a.Shaped ∧ b.Shaped))) := by
  unfold foldTyped at h
  cases hcommon : commonType? a.ty b.ty with
  | none =>
    simp only [hcommon, Folded.failed, List.map_cons, List.map_nil, List.mem_singleton] at h
    rw [h]
    exact .inl rfl
  | some ty =>
    by_cases hdef : op.definedOn ty
    · simp only [hcommon, hdef, if_true] at h
      rcases foldAt_errors hdef h with hrep | hfault | ⟨hint, hn, hnone⟩
      · exact .inl hrep
      · exact .inr ⟨ty, rfl, hdef, .inl hfault⟩
      · -- two values of their shapes would have been operated on
        refine .inr ⟨ty, rfl, hdef, .inr ⟨hint, fun hshaped => ?_⟩⟩
        obtain ⟨ha, hb⟩ := hshaped
        have hbasic := Operator.isBasic_of_definedOn hdef
        obtain ⟨hca, hcb⟩ := category_of_commonType? hcommon hbasic
        have hsome := TypedValue.operate_isSome op hbasic hn ha hb hca hcb
        rw [hnone] at hsome
        cases hsome
    · simp only [hcommon, hdef, Bool.false_eq_true, if_false, Folded.failed, List.map_cons,
        List.map_nil, List.mem_singleton] at h
      rw [h]
      exact .inl rfl

/-- **The errors of a fold**: reports, but for a fault of the operator on the two numbers on which
it is evaluated, and for a constant that is not of the shape of its type. -/
theorem Const.fold_errors {a b : Const} (h : e ∈ (a.fold op b word place).errors) :
    e.kind.IsReport ∨
    (e.kind = .arithmeticFault ∧
      ∃ x y, Evaluates word op a b x y ∧ op.onNumbers x y = .error .fault) ∨
    (e.kind = .internal ∧ ¬(a.Shaped ∧ b.Shaped)) := by
  cases a with
  | untyped a =>
    cases b with
    | untyped b =>
      rcases foldUntyped_errors h with hrep | ⟨hk, x, y, rfl, rfl, hfault⟩
      · exact .inl hrep
      · exact .inr (.inl ⟨hk, x, y, .untyped x y, hfault⟩)
    | typed b =>
      rcases foldMixed_errors h with hrep | ⟨hconv, hdef, ⟨hk, hn, x, y, hx, hy, hf⟩ | ⟨hk, hs⟩⟩
      · exact .inl hrep
      · have hty : (untyped a).commonTy? (typed b) = some b.ty := if_pos hconv
        exact .inr (.inl ⟨hk, x, y, .typed hty hdef hn hx hy, hf⟩)
      · exact .inr (.inr ⟨hk, fun h => hs h.2⟩)
  | typed a =>
    cases b with
    | untyped b =>
      rcases foldMixed_errors h with hrep | ⟨hconv, hdef, ⟨hk, hn, x, y, hx, hy, hf⟩ | ⟨hk, hs⟩⟩
      · exact .inl hrep
      · have hty : (typed a).commonTy? (untyped b) = some a.ty := if_pos hconv
        exact .inr (.inl ⟨hk, x, y, .typed hty hdef hn hx hy, hf⟩)
      · exact .inr (.inr ⟨hk, fun h => hs h.1⟩)
    | typed b =>
      rcases foldTyped_errors h with
        hrep | ⟨ty, hty, hdef, ⟨hk, hn, x, y, hx, hy, hf⟩ | ⟨hk, hs⟩⟩
      · exact .inl hrep
      · exact .inr (.inl ⟨hk, x, y, .typed hty hdef hn hx hy, hf⟩)
      · exact .inr (.inr ⟨hk, hs⟩)

end

/-! ## Leaves and calls -/

section

variable {ctx : Context} {e : CheckError}

/-- **A leaf reports.** -/
theorem Context.checkLeaf_isReport {l : Leaf} {span : Span}
    (h : e ∈ (ctx.checkLeaf l span).errors) : e.kind.IsReport := by
  have hleaf := ctx.checkLeaf_result l span
  generalize ctx.checkLeaf l span = r at h hleaf
  cases hleaf with
  | malformed | undefined => rw [List.mem_singleton.1 h]; rfl
  | _ => exact absurd h List.not_mem_nil

/-- The one error of a rule that fails. -/
theorem Finding.mem_failed {span : Span} {k : ErrorKind} (h : e ∈ (failed span k).errors) :
    e = ⟨span, k⟩ := List.mem_singleton.1 h

theorem Context.applyBuiltin_isReport {b : Builtin} {args : List Node} {span : Span}
    (h : e ∈ (ctx.applyBuiltin b args span).errors) : e.kind.IsReport := by
  have builtin : ∀ f, (ErrorKind.builtin f).IsReport := by
    intro f
    cases f <;> rfl
  unfold applyBuiltin at h
  split at h
  · rw [Finding.mem_failed h]; rfl
  split at h
  · split at h
    · exact absurd h List.not_mem_nil
    · rw [Finding.mem_failed h]; exact builtin _
  · split at h
    · exact absurd h List.not_mem_nil
    · rw [Finding.mem_failed h]; exact builtin _

/-- A call of a builtin reports, if the name is found again. -/
theorem Context.callBuiltin_isReport {name : Name} {b : Builtin} {args : List Node} {span : Span}
    (hb : Builtin.ofName? (ctx.names.lookup name) = some b)
    (h : e ∈ (ctx.callBuiltin name args span).errors) : e.kind.IsReport := by
  rcases ctx.callBuiltin_cases name args span with ⟨hnone, -⟩ | ⟨c, -, ⟨-, he⟩ | ⟨-, he⟩⟩
  · -- the one case with an internal error
    rw [hnone] at hb
    cases hb
  · rw [he] at h
    rw [Finding.mem_failed h]; rfl
  · rw [he] at h
    exact applyBuiltin_isReport h

theorem Context.callConversion_isReport {ty : Ty} {args : List Node} {span : Span}
    (h : e ∈ (ctx.callConversion ty args span).errors) : e.kind.IsReport := by
  unfold callConversion at h
  split at h
  · split at h
    · obtain ⟨k, hk, rfl⟩ := List.mem_map.1 h
      exact Const.convert_isReport hk
    · split at h
      · split at h
        · exact absurd h List.not_mem_nil
        · rw [Finding.mem_failed h]; rfl
      · exact absurd h List.not_mem_nil
  · rw [Finding.mem_failed h]; rfl

theorem Context.callFunc_isReport {f : Node} {sig : Ty.Signature} {found : Nat} {span : Span}
    (h : e ∈ (ctx.callFunc f sig found span).errors) : e.kind.IsReport := by
  unfold callFunc at h
  by_cases hfits : if sig.variadic then sig.params.length ≤ found + 1 else found = sig.params.length
  · simp only [hfits, if_true] at h
    exact absurd h List.not_mem_nil
  · simp only [hfits, if_false] at h
    rw [Finding.mem_failed h]; rfl

/-- **A call reports**, if its callee is no builtin or one that is found again by name. -/
theorem Context.callInfo_isReport {f : Node} {args : List Node} {span : Span}
    (hname : ∀ name, f.kind = .builtin name →
      ∃ b, Builtin.ofName? (ctx.names.lookup name) = some b)
    (h : e ∈ (ctx.callInfo f args span).errors) : e.kind.IsReport := by
  unfold callInfo at h
  split at h
  · rename_i name hkind
    obtain ⟨b, hb⟩ := hname name hkind
    exact callBuiltin_isReport hb h
  · exact callConversion_isReport h
  · split at h
    · exact absurd h List.not_mem_nil
    · split at h
      · exact callFunc_isReport h
      · rw [Finding.mem_failed h]; rfl

end

/-! ## Whole expressions -/

section

variable {ctx : Context} {e : CheckError} {s t : Tree}

/-- The errors of an operation itself are those of the fold of its operands. -/
theorem Context.mem_binaryInfo_errors {l r : Node} {op : Operator} {span : Span}
    (h : e ∈ (ctx.binaryInfo op l r span).errors) : ∃ a b, l.constant? = some a ∧
      r.constant? = some b ∧ e ∈ (a.fold op b ctx.word ⟨span, r.span⟩).errors := by
  unfold binaryInfo at h
  split at h
  · rename_i a b _ _ ha hb
    exact ⟨a, b, ha, hb, h⟩
  · exact absurd h List.not_mem_nil

/-- Where an error in an expression comes from: it is a report, or a number of no expression, or it
is in the fold of an operation on constants. -/
inductive Tree.Causes (ctx : Context) (e : CheckError) (t : Tree) : Prop
  | report (h : e.kind.IsReport)
  | missing (hk : e.kind = .internal) (hs : SubOf .missing t)
  | fold {op : Operator} {l r : Tree} {span : Span} {a b : Const}
    (hs : SubOf (.binary op l r span) t) (ha : (l.check ctx).node.constant? = some a)
    (hb : (r.check ctx).node.constant? = some b)
    (he : e ∈ (a.fold op b ctx.word ⟨span, (r.check ctx).node.span⟩).errors)

theorem Tree.Causes.mono (hs : s.SubOf t) (h : s.Causes ctx e) : t.Causes ctx e := by
  cases h with
  | report h => exact .report h
  | missing hk hm => exact .missing hk (hm.trans hs)
  | fold hf ha hb he => exact .fold (hf.trans hs) ha hb he

/-- **Where the errors of an expression come from.** -/
theorem Tree.causes_of_mem_errors (h : e ∈ (t.check ctx).errors) : t.Causes ctx e := by
  induction t with
  | missing =>
    rw [List.mem_singleton.1 h]
    exact .missing rfl .self
  | leaf l span => exact .report (Context.checkLeaf_isReport h)
  | paren inner span ih => exact (ih h).mono (.paren .self)
  | binary op l r span ihl ihr =>
    simp only [check, Context.checkBinary, List.mem_append] at h
    obtain (hl | hr) | hown := h
    · exact (ihl hl).mono (.left .self)
    · exact (ihr hr).mono (.right .self)
    · obtain ⟨a, b, ha, hb, he⟩ := Context.mem_binaryInfo_errors hown
      exact .fold .self ha hb he
  | call f args span ihf ihargs =>
    simp only [check, checkAll_eq_map, Context.checkCall, List.mem_append, List.mem_flatMap,
      List.mem_map] at h
    obtain (hf | ⟨c, ⟨s, hs, rfl⟩, hc⟩) | hown := h
    · exact (ihf hf).mono (.func .self)
    · exact (ihargs s hs hc).mono (.arg hs .self)
    · exact .report (Context.callInfo_isReport (fun _ => ofName?_of_builtin) hown)

/-- The errors of an expression are among those of any that it is part of. -/
theorem Tree.errors_subset (hs : s.SubOf t) : (s.check ctx).errors ⊆ (t.check ctx).errors := by
  induction hs with
  | self => exact List.Subset.refl _
  | paren _ ih => exact ih
  | left _ ih => exact fun _ he => List.mem_append_left _ (List.mem_append_left _ (ih he))
  | right _ ih => exact fun _ he => List.mem_append_left _ (List.mem_append_right _ (ih he))
  | func _ ih => exact fun _ he => List.mem_append_left _ (List.mem_append_left _ (ih he))
  | arg ha _ ih =>
    intro e he
    refine List.mem_append_left _ (List.mem_append_right _ ?_)
    rw [checkAll_eq_map]
    exact List.mem_flatMap.2 ⟨_, List.mem_map_of_mem ha, ih he⟩

end

end ConstCheck
