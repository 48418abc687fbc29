import ConstCheck.Proofs.Fits

/-!
# Machine words of two widths

The width of a machine word is that of `int`, `uint` and `uintptr`. It is seen where a number is
narrowed to one of them, and there only by what does not fit: a number that fits a short word is the
same on a long one. So the rules of the checker come to the same on both, as long as they find no
error on the short one.

* `Number.narrow_wider`, `UntypedConst.narrow_wider`: narrowing without a loss does not depend on
  the word.
* `Const.convert_wider`, `Const.fold_wider`: nor do conversions and folds without an error.
* `Builtin.call_word`: foldable builtins do not depend on it at all.
* `Context.callInfo_wider`, `Context.binaryInfo_wider`: the rules of calls and operations.
* `word_monotone` (every arena and environment): **an expression without errors on a short word is
  checked the same on a long one**.
-/

namespace ConstCheck

/-! ## Narrowing -/

namespace Number

variable {n : Number} {w w' : ℕ}

/-- A number that fits a width as a signed integer fits every greater one, as the same integer. -/
theorem toSigned_wider (hw : 1 ≤ w) (hle : w ≤ w') (hw' : w' ≤ 64)
    (h : (n.toSigned w).overflowed = false) : n.toSigned w' = n.toSigned w := by
  have hvalue := (toSigned_value_eq_iff n w).2 h
  have hbounds := toSigned_bounds ⟨hw, by omega⟩ n
  rw [hvalue] at hbounds
  have hpow : (2 : ℤ) ^ (w - 1) ≤ 2 ^ (w' - 1) := pow_le_pow_right₀ (by omega) (by omega)
  have htwo := two_pow_pred (w := w') (by omega)
  have hvalue' : (n.toSigned w').value = n.truncated := by
    rw [toSigned_value ⟨by omega, hw'⟩]
    apply Int.bmod_eq_of_le <;> push_cast <;> omega
  have hfits := (toSigned_value_eq_iff n w').1 hvalue'
  calc n.toSigned w'
    _ = ⟨(n.toSigned w').value, !n.isWhole, (n.toSigned w').overflowed⟩ := rfl
    _ = ⟨(n.toSigned w).value, !n.isWhole, (n.toSigned w).overflowed⟩ := by
      rw [hvalue', hvalue, hfits, h]

/-- The same of unsigned integers. -/
theorem toUnsigned_wider (hw : 1 ≤ w) (hle : w ≤ w') (hw' : w' ≤ 64)
    (h : (n.toUnsigned w).overflowed = false) : n.toUnsigned w' = n.toUnsigned w := by
  have hvalue := (toUnsigned_value_eq_iff n w).2 h
  have hlt := toUnsigned_lt ⟨hw, by omega⟩ n
  have hpow : 2 ^ w ≤ 2 ^ w' := pow_le_pow_right₀ (by omega) hle
  have hvalue' : ((n.toUnsigned w').value : ℤ) = n.truncated := by
    rw [toUnsigned_value ⟨by omega, hw'⟩, ← hvalue]
    apply Int.emod_eq_of_lt (Int.natCast_nonneg _)
    exact_mod_cast lt_of_lt_of_le hlt hpow
  have hsame : (n.toUnsigned w').value = (n.toUnsigned w).value := by
    exact_mod_cast hvalue'.trans hvalue.symm
  have hfits := (toUnsigned_value_eq_iff n w').1 (by rw [hsame, hvalue])
  calc n.toUnsigned w'
    _ = ⟨(n.toUnsigned w').value, !n.isWhole, (n.toUnsigned w').overflowed⟩ := rfl
    _ = ⟨(n.toUnsigned w).value, !n.isWhole, (n.toUnsigned w).overflowed⟩ := by
      rw [hsame, hfits, h]

/-- The width of a float type is not that of the word. -/
theorem narrow_float {ty : Ty} (h : ty.category = .float) (n : Number) (word word' : WordSize) :
    n.narrow ty word = n.narrow ty word' := by
  rw [narrow_of_float h, narrow_of_float h]

end Number

section

variable {short long : WordSize} (hword : short.bits ≤ long.bits)

include hword

theorem Ty.width_mono (ty : Ty) : ty.width short ≤ ty.width long := by
  unfold width bits?
  cases ty.basic? with
  | none => exact le_rfl
  | some b =>
    simp only [Option.bind_some]
    cases b with
    | int | uint | uintptr => exact hword
    | _ => exact le_rfl

/-- **A number narrowed without a loss is the same on a longer word.** -/
theorem Number.narrow_wider {n : Number} {ty : Ty} (h : (n.narrow ty short).2 = []) :
    n.narrow ty long = n.narrow ty short := by
  have hwidth := Ty.width_mono hword ty
  cases hn : ty.isNumeric with
  | false => rw [narrow_of_not_isNumeric hn, narrow_of_not_isNumeric hn]
  | true =>
    rcases Ty.isNumeric_cases hn with hs | hu | hf | hx
    · have hint := Ty.isIntegral_of_signed hs
      rw [narrow_of_signed hs] at h
      have hfits := (losses_eq_nil.1 h).2
      rw [narrow_of_signed hs, narrow_of_signed hs, toSigned_wider (Ty.width_bounds short hint).1
        hwidth (Ty.width_bounds long hint).2 hfits]
    · have hint := Ty.isIntegral_of_unsigned hu
      rw [narrow_of_unsigned hu] at h
      have hfits := (losses_eq_nil.1 h).2
      rw [narrow_of_unsigned hu, narrow_of_unsigned hu,
        toUnsigned_wider (Ty.width_bounds short hint).1 hwidth (Ty.width_bounds long hint).2 hfits]
    · exact narrow_float hf n long short
    · rw [narrow_of_complex hx, narrow_of_complex hx]

theorem UntypedConst.narrow_wider {c : UntypedConst} {ty : Ty} (h : (c.narrow ty short).2 = []) :
    c.narrow ty long = c.narrow ty short := by
  cases c with
  | number n => exact Number.narrow_wider hword h
  | string _ | bool _ | nil => rfl

/-! ## Conversions and folds -/

/-- **A conversion without an error is the same on a longer word.** -/
theorem Const.convert_wider {c : Const} {ty : Ty} (h : (c.convert ty short).2 = []) :
    c.convert ty long = c.convert ty short := by
  cases c with
  | untyped u =>
    by_cases hconv : u.kind.convertsTo ty
    · simp only [convert, hconv, if_true] at h ⊢
      rw [UntypedConst.narrow_wider hword h]
    · simp only [convert, hconv, Bool.false_eq_true, if_false]
  | typed v =>
    by_cases hconv : v.ty.convertibleTo ty
    · by_cases hn : ty.isNumeric
      · cases hnum : v.number? with
        | none => simp only [convert, hn, hnum]
        | some n =>
          simp only [convert, hconv, hn, hnum, Bool.not_true, Bool.false_eq_true, if_false,
            if_true] at h ⊢
          rw [Number.narrow_wider hword h]
      · simp only [convert, hn]
        rfl
    · simp only [convert, hconv, Bool.not_false, if_true]

variable {op : Operator} {place : OperationSpan}

theorem foldAt_wider {a b : TypedValue} {ty : Ty} (h : (foldAt op a b ty short place).errors = []) :
    foldAt op a b ty long place = foldAt op a b ty short place := by
  unfold foldAt at h ⊢
  cases hop : TypedValue.operate op a b ty with
  | none => rfl
  | some r =>
    cases r with
    | error e => cases e <;> rfl
    | ok c =>
      simp only [hop, Folded.errors_narrowed_eq_nil] at h ⊢
      rw [UntypedConst.narrow_wider hword h]

/-- An operand that is narrowed without a loss is the same on both words, and so is the fold that
goes on with it. -/
theorem foldMixed_wider {v : TypedValue} {u : UntypedConst} {side : Side}
    (h : (foldMixed op v u side short place).errors = []) :
    foldMixed op v u side long place = foldMixed op v u side short place := by
  by_cases hok : u.kind.convertsTo v.ty ∧ op.definedOn v.ty
  · obtain ⟨hconv, hdef⟩ := hok
    simp only [foldMixed, hconv, hdef, Bool.not_true, Bool.false_eq_true, if_false,
      Folded.errors_after_eq_nil] at h ⊢
    obtain ⟨hlosses, hfold⟩ := h
    have hnarrow := UntypedConst.narrow_wider hword hlosses
    rw [hnarrow, foldAt_wider hword hfold]
  · rcases foldMixed_cases op v u side short place with ⟨hconv, hdef, -⟩ | ⟨-, -, herrors⟩
    · exact absurd ⟨hconv, hdef⟩ hok
    · exact absurd h herrors

theorem foldTyped_wider {a b : TypedValue} (h : (foldTyped op a b short place).errors = []) :
    foldTyped op a b long place = foldTyped op a b short place := by
  unfold foldTyped at h ⊢
  cases hcommon : commonType? a.ty b.ty with
  | none => rfl
  | some ty =>
    by_cases hdef : op.definedOn ty
    · simp only [hcommon, hdef, if_true] at h ⊢
      exact foldAt_wider hword h
    · simp only [hdef, Bool.false_eq_true, if_false]

/-- **A fold without an error is the same on a longer word.** -/
theorem Const.fold_wider {a b : Const} (h : (a.fold op b short place).errors = []) :
    a.fold op b long place = a.fold op b short place := by
  cases a with
  | untyped a =>
    cases b with
    | untyped b => rfl
    | typed b => exact foldMixed_wider hword h
  | typed a =>
    cases b with
    | untyped b => exact foldMixed_wider hword h
    | typed b => exact foldTyped_wider hword h

end

/-! ## Builtins -/

section

variable {word word' : WordSize}

/-- A constant passed as a float does not depend on the word. -/
theorem UntypedConst.pass?_float {c : UntypedConst} {ty : Ty} (h : ty.category = .float) :
    c.pass? ty word = c.pass? ty word' := by
  have hnarrow : c.narrow ty word = c.narrow ty word' := by
    cases c with
    | number n => exact n.narrow_float h word word'
    | string _ | bool _ | nil => rfl
  unfold pass?
  rw [hnarrow]

theorem Const.float?_float {c : Const} {ty : Ty} (h : ty.category = .float) :
    c.float? ty word = c.float? ty word' := by
  cases c with
  | typed v => rfl
  | untyped u => rw [float?, float?, UntypedConst.pass?_float h]

/-- **What a foldable builtin yields does not depend on the word.** -/
theorem Builtin.call_word {b : Builtin} (hb : b.isFoldable) (store : Store) (args : List Arg) :
    b.call word store args = b.call word' store args := by
  cases b with
  | complex =>
    have hpair : ∀ re im : Const, complexOf? word re im = complexOf? word' re im := by
      intro re im
      have hfloat : ∀ (c : Const) (ty : Ty), ty.category = .float →
          c.float? ty word = c.float? ty word' := fun c ty h => Const.float?_float h
      simp only [complexOf?, hfloat _ .float64 rfl, hfloat _ .float32 rfl]
    simp only [call, complexCall, hpair]
  | real | imag | len | cap => rfl
  | append | new | panic => cases hb

end

/-! ## The rules -/

namespace Context

/-- The same context, with machine words of another width. -/
def withWord (ctx : Context) (word : WordSize) : Context := { ctx with word }

variable {ctx : Context}

/-- A builtin that is called on constants is the same on both words, and so are the types of its
results. -/
theorem applyBuiltin_word (word word' : WordSize) (b : Builtin) (args : List Node) (span : Span) :
    (ctx.withWord word).applyBuiltin b args span =
      (ctx.withWord word').applyBuiltin b args span := by
  unfold applyBuiltin
  cases argsOf args with
  | error n => rfl
  | ok as =>
    by_cases hfold : b.isFoldable && as.all isKnown
    · have hb : b.isFoldable = true := (Bool.and_eq_true _ _ ▸ hfold).1
      have hcall : b.call word ctx.env.store as = b.call word' ctx.env.store as :=
        Builtin.call_word hb ctx.env.store as
      simp only [hfold, if_true, withWord, hcall]
    · simp only [hfold, Bool.false_eq_true, if_false]

theorem callBuiltin_word (word word' : WordSize) (name : Name) (args : List Node) (span : Span) :
    (ctx.withWord word).callBuiltin name args span =
      (ctx.withWord word').callBuiltin name args span := by
  simp only [callBuiltin, applyBuiltin_word word word']
  rfl

variable {short long : WordSize} (hword : short.bits ≤ long.bits)

include hword

/-- An operation without an error of its own. -/
theorem binaryInfo_wider {op : Operator} {l r : Node} {span : Span}
    (h : ((ctx.withWord short).binaryInfo op l r span).errors = []) :
    (ctx.withWord long).binaryInfo op l r span = (ctx.withWord short).binaryInfo op l r span := by
  unfold binaryInfo at h ⊢
  split
  · rename_i a b hl hr ha hb
    simp only [hl, hr, ha, hb] at h
    have hfold := Const.fold_wider hword h
    simp only [withWord] at hfold ⊢
    rw [hfold]
  · rfl

theorem callConversion_wider {ty : Ty} {args : List Node} {span : Span}
    (h : ((ctx.withWord short).callConversion ty args span).errors = []) :
    (ctx.withWord long).callConversion ty args span =
      (ctx.withWord short).callConversion ty args span := by
  unfold callConversion at h ⊢
  split
  · rename_i arg
    cases hc : arg.constant? with
    | none => rfl
    | some c =>
      simp only [hc, List.map_eq_nil_iff] at h ⊢
      have hconvert := Const.convert_wider hword h
      simp only [withWord] at hconvert ⊢
      rw [hconvert]
  · rfl

/-- A call without an error of its own. -/
theorem callInfo_wider {f : Node} {args : List Node} {span : Span}
    (h : ((ctx.withWord short).callInfo f args span).errors = []) :
    (ctx.withWord long).callInfo f args span = (ctx.withWord short).callInfo f args span := by
  unfold callInfo at h ⊢
  cases hkind : f.kind with
  | builtin name => exact callBuiltin_word long short name args span
  | typeName ty =>
    simp only [hkind] at h
    exact callConversion_wider hword h
  | _ => rfl

end Context

/-! ## Whole expressions -/

/-- **An expression without errors on a short word is checked the same on a longer one**, node for
node. -/
theorem Tree.check_wider {ctx : Context} {short long : WordSize} (hword : short.bits ≤ long.bits)
    {t : Tree} (h : (t.check (ctx.withWord short)).errors = []) :
    t.check (ctx.withWord long) = t.check (ctx.withWord short) := by
  induction t with
  | missing => rfl
  | leaf l span => cases l <;> rfl
  | paren inner span ih =>
    have hi := ih h
    rw [check, check, hi]
  | binary op l r span ihl ihr =>
    simp only [check, Context.checkBinary, List.append_eq_nil_iff] at h ⊢
    obtain ⟨⟨hl, hr⟩, hown⟩ := h
    rw [ihl hl, ihr hr, Context.binaryInfo_wider hword hown]
  | call f args span ihf ihargs =>
    simp only [check, checkAll_eq_map, Context.checkCall, List.append_eq_nil_iff,
      List.flatMap_eq_nil_iff, List.mem_map, forall_exists_index, and_imp,
      forall_apply_eq_imp_iff₂] at h ⊢
    obtain ⟨⟨hf, hargs⟩, hown⟩ := h
    have hsame : args.map (check (ctx.withWord long)) = args.map (check (ctx.withWord short)) := by
      refine List.map_congr_left fun a ha => ?_
      exact ihargs a ha (hargs a ha)
    rw [ihf hf, hsame, Context.callInfo_wider hword hown]

/-- **An expression without errors on words of 32 bits is checked the same on words of 64**: the
same nodes, with the same types, constants and values at each of them, and no error. The named
constants are any, whether or not they fit their types. -/
theorem word_monotone {ctx : Context} {a : Arena} {root : ExprId} {r : Checked}
    (h : a.check? (ctx.withWord .bits32) root = some r) (hclean : r.errors = []) :
    a.check? (ctx.withWord .bits64) root = some r := by
  obtain ⟨t, ht, rfl⟩ := Arena.exists_tree?_of_check? h
  have hsame : t.check (ctx.withWord .bits64) = t.check (ctx.withWord .bits32) :=
    Tree.check_wider (by decide) hclean
  rw [Arena.check?_of_tree? ht, hsame]

/-- The difference of two constants of type `int` that only a long word holds. It is seven, which
every word holds. -/
theorem word_monotone_difference : ∃ ctx r,
    (Arena.operation .sub).check? (Context.withWord ctx .bits32) ⟨2⟩ = some r ∧ r.errors = [] ∧
    r.node.constant?.bind Const.int? = some 7 ∧
    (Arena.operation .sub).check? (Context.withWord ctx .bits64) ⟨2⟩ = some r := by
  let ctx : Context := .ofConsts .bits32
    [("high", ⟨.int, .int (2 ^ 40 + 7)⟩), ("low", ⟨.int, .int (2 ^ 40)⟩)]
  let r : Checked := (Tree.operation .sub).check (ctx.withWord .bits32)
  have hr : (Arena.operation .sub).check? (ctx.withWord .bits32) ⟨2⟩ = some r :=
    Arena.check?_of_tree? (Arena.tree?_operation .sub)
  have hclean : r.errors = [] := List.isEmpty_iff.1 (by decide +kernel)
  exact ⟨ctx, r, hr, hclean, by decide +kernel, word_monotone hr hclean⟩

end ConstCheck
