import ConstCheck.Proofs.Alike
import ConstCheck.Proofs.Fits

/-!
# Names of types

A name around a type shows in the type alone. What a value of the type looks like, which operators
there are for it and what is lost on the way to it are those of the type below its names.

* `Const.nameless`: a constant without the names around its type.
* `Folded.AlikeBelow`: two folds with the same value but for the name of its type, and errors of the
  same codes.
* `Number.narrow_below`, `UntypedConst.narrow_below`: **narrowing does not look at names**.
* `Operator.definedOn_of_category`, `Operator.resultType_underlying`: nor do operators.
* `foldAt_below`: operations with one outcome fold alike below the names.
-/

namespace ConstCheck

/-! ## Constants and folds -/

/-- A value under the type below the names of its own. -/
def TypedValue.nameless (v : TypedValue) : TypedValue := ⟨v.ty.underlying, v.value⟩

/-- A constant without the names around its type. -/
def Const.nameless : Const → Const
  | untyped c => untyped c
  | typed v => typed v.nameless

/-- Two folds with the same value but for the name of its type, and errors of the same codes. -/
structure Folded.AlikeBelow (f g : Folded) : Prop where
  value : f.value.map Const.nameless = g.value.map Const.nameless
  codes : f.errors.map CheckError.code = g.errors.map CheckError.code

theorem TypedValue.nameless_eq {v w : TypedValue} (hty : v.ty.underlying = w.ty.underlying)
    (hvalue : v.value = w.value) : v.nameless = w.nameless := by
  rw [nameless, nameless, hty, hvalue]

/-- The type and the rest make the constant. -/
theorem Const.eq_of_nameless {c d : Const} (h : c.nameless = d.nameless)
    (hknown : c.knownType = d.knownType) : c = d := by
  cases c with
  | untyped u =>
    cases d with
    | untyped u' => exact h
    | typed w => cases h
  | typed v =>
    cases d with
    | untyped u' => cases h
    | typed w =>
      obtain ⟨ty, value⟩ := v
      obtain ⟨ty', value'⟩ := w
      simp only [nameless, TypedValue.nameless, typed.injEq, TypedValue.mk.injEq] at h
      simp only [knownType, KnownType.typed.injEq] at hknown
      rw [h.2, hknown]

namespace Folded

variable {f g : Folded} {p q : OperationSpan}

theorem Alike.below (h : f.Alike g) : f.AlikeBelow g := ⟨congrArg _ h.value, h.codes⟩

/-- Folds that are alike below the names are alike if their values are of one type. -/
theorem AlikeBelow.alike (h : f.AlikeBelow g) {known : KnownType}
    (hf : ∀ c, f.value = some c → c.knownType = known)
    (hg : ∀ c, g.value = some c → c.knownType = known) : f.Alike g := by
  refine ⟨?_, h.codes⟩
  have hvalue := h.value
  cases hc : f.value with
  | none =>
    rw [hc] at hvalue
    exact (Option.map_eq_none_iff.1 hvalue.symm).symm
  | some c =>
    rw [hc] at hvalue
    obtain ⟨d, hd, hcd⟩ := Option.map_eq_some_iff.1 hvalue.symm
    rw [hd, Const.eq_of_nameless hcd ((hg d hd).trans (hf c hc).symm)]

end Folded

section

variable {s t : Ty}

/-! ## Narrowing -/

theorem Value.zero_of_underlying (h : s.underlying = t.underlying) :
    Value.zero s = Value.zero t := by
  rw [← Value.zero_underlying s, h, Value.zero_underlying]

/-- The codes of losses do not tell the type. -/
theorem Narrowed.losses_codes {α : Type} (r : Narrowed α) (n : Number) (kind : NumKind) (s t : Ty) :
    (r.losses n kind s).map ErrorKind.code = (r.losses n kind t).map ErrorKind.code := by
  unfold losses
  cases r.truncated <;> cases r.overflowed <;> rfl

/-- **A number is narrowed to a type as to the type below its names.** -/
theorem Number.narrow_below (h : s.underlying = t.underlying) (n : Number) (word : WordSize) :
    (n.narrow s word).1.value = (n.narrow t word).1.value ∧
      (n.narrow s word).2.map ErrorKind.code = (n.narrow t word).2.map ErrorKind.code := by
  have hcat := Ty.category_of_underlying_eq h
  have hbits : s.bits? word = t.bits? word := by simp only [Ty.bits?, Ty.basic?, h]
  unfold narrow
  rw [hcat, hbits]
  cases t.category with
  | signed => exact ⟨rfl, Narrowed.losses_codes ..⟩
  | unsigned => exact ⟨rfl, Narrowed.losses_codes ..⟩
  | float => exact ⟨rfl, Narrowed.losses_codes ..⟩
  | complex => exact ⟨rfl, rfl⟩
  | _ => exact ⟨Value.zero_of_underlying h, rfl⟩

theorem UntypedConst.narrow_below (h : s.underlying = t.underlying) (c : UntypedConst)
    (word : WordSize) :
    (c.narrow s word).1.value = (c.narrow t word).1.value ∧
      (c.narrow s word).2.map ErrorKind.code = (c.narrow t word).2.map ErrorKind.code := by
  have hcat := Ty.category_of_underlying_eq h
  have hzero := Value.zero_of_underlying h
  cases c with
  | number n => exact n.narrow_below h word
  | string x =>
    simp only [narrow, hcat]
    split
    · exact ⟨rfl, rfl⟩
    · exact ⟨hzero, rfl⟩
  | bool x =>
    simp only [narrow, hcat]
    split
    · exact ⟨rfl, rfl⟩
    · exact ⟨hzero, rfl⟩
  | nil =>
    have hnil : s.isNilable = t.isNilable := by simp only [Ty.isNilable, hcat]
    simp only [narrow, hnil]
    cases t.isNilable with
    | true => exact ⟨hzero, rfl⟩
    | false => exact ⟨hzero, rfl⟩

/-! ## Operators -/

theorem Ty.isNumeric_of_underlying (h : s.underlying = t.underlying) :
    s.isNumeric = t.isNumeric := by
  rw [isNumeric, isNumeric, category_of_underlying_eq h]

/-- Operators ask a type for its category alone. -/
theorem Operator.definedOn_of_category (op : Operator) (h : s.category = t.category) :
    op.definedOn s = op.definedOn t := by
  simp only [definedOn, Ty.isNumeric, Ty.isIntegral, Ty.isOrdered, Ty.isReal, h]

theorem Operator.resultType_underlying (op : Operator) (h : s.underlying = t.underlying) :
    (op.resultType s).underlying = (op.resultType t).underlying := by
  unfold resultType
  split
  · rfl
  · exact h

/-- **Operations with one outcome fold alike below the names**, if the types that they are done at
are alike there, and those of their results. -/
theorem foldAt_below {op op' : Operator} {a b a' b' : TypedValue} {word : WordSize}
    {p q : OperationSpan} (hty : s.underlying = t.underlying)
    (hresult : (op.resultType s).underlying = (op'.resultType t).underlying)
    (hoperate : TypedValue.operate op a b s = TypedValue.operate op' a' b' t) :
    (foldAt op a b s word p).AlikeBelow (foldAt op' a' b' t word q) := by
  have hn := Ty.isNumeric_of_underlying hty
  unfold foldAt
  rw [hoperate]
  cases TypedValue.operate op' a' b' t with
  | none =>
    simp only [hn]
    exact (Folded.Alike.failed rfl).below
  | some r =>
    cases r with
    | ok c =>
      obtain ⟨hvalue, hcodes⟩ := c.narrow_below hresult word
      have hsame : (c.narrow (op.resultType s) word).1.nameless =
          (c.narrow (op'.resultType t) word).1.nameless :=
        TypedValue.nameless_eq (by simpa only [UntypedConst.narrow_ty] using hresult) hvalue
      refine ⟨congrArg (some ∘ Const.typed) hsame, ?_⟩
      simp only [Folded.narrowed, codes_at, hcodes]
    | error e =>
      cases e with
      | divideByZero =>
        have hzero : (TypedValue.zero (op.resultType s)).nameless =
            (TypedValue.zero (op'.resultType t)).nameless :=
          TypedValue.nameless_eq hresult (Value.zero_of_underlying hresult)
        exact ⟨congrArg (some ∘ Const.typed) hzero, rfl⟩
      | undefined => exact ⟨rfl, rfl⟩
      | fault => exact ⟨rfl, rfl⟩

end

end ConstCheck
