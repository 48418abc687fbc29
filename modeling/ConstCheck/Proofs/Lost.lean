import ConstCheck.Proofs.Exact
import ConstCheck.Proofs.Fits

/-!
# Operations on constants that have no value

An operation on constants either has a value or reports an error, with one exception. Narrowing to a
complex type checks no range, so a part of a complex value can be an infinity of which no error
tells; an operation that meets it has no value, and no error either. No other operation does that.

* `TypedValue.NonFinite`: complex values with a part that is not finite.
* `TypedValue.Sound`, `Const.Sound`: the invariant; values of basic types, of their shape, finite
  unless complex.
* `Operator.MeetsNonFinite`, `Const.ConvertsNonFinite`: an operation comes to such a complex value,
  or a conversion is of one.
* `Const.fold_sound`, `Const.convert_sound`: **without errors the invariant is kept**.
* `Const.fold_lost_iff`, `Const.convert_lost_iff`: **neither a value nor an error** is what exactly
  the folds and conversions have that meet one.
-/

namespace ConstCheck

/-- A complex value with a part that is not finite. -/
def TypedValue.NonFinite (v : TypedValue) : Prop :=
  ∃ re im, v.value = .complex re im ∧ ¬(re.isFinite ∧ im.isFinite)

/-- A value of a basic type, of its shape; a float is finite. -/
structure TypedValue.Sound (v : TypedValue) : Prop where
  basic : v.ty.category.isBasic
  shaped : v.Shaped
  float : v.ty.category = .float → v.number?.isSome

/-- A typed constant is sound; nothing is asked of an untyped one. -/
def Const.Sound : Const → Prop
  | untyped _ => True
  | typed v => v.Sound

namespace TypedValue

variable {v : TypedValue}

/-- A value that is not finite is of a complex type. -/
theorem NonFinite.category (h : v.NonFinite) (hv : v.Sound) : v.ty.category = .complex := by
  obtain ⟨re, im, hval, -⟩ := h
  have hs := hv.shaped
  have hb := hv.basic
  unfold Shaped at hs
  cases hc : v.ty.category <;> simp_all [Category.isBasic]

theorem NonFinite.isNumeric (h : v.NonFinite) (hv : v.Sound) : v.ty.isNumeric := by
  rw [Ty.isNumeric, h.category hv]; rfl

/-- **A sound number has an exact value unless a part of it is not finite.** -/
theorem number?_eq_none_iff (hv : v.Sound) (hn : v.ty.isNumeric) :
    v.number? = none ↔ v.NonFinite := by
  have hs := hv.shaped
  rcases Ty.isNumeric_cases hn with hc | hc | hc | hc
  · simp only [Shaped, hc] at hs
    obtain ⟨i, hi⟩ := hs
    simp [number?, NonFinite, hi]
  · simp only [Shaped, hc] at hs
    obtain ⟨n, hn⟩ := hs
    simp [number?, NonFinite, hn]
  · have hf := hv.float hc
    simp only [Shaped, hc] at hs
    obtain ⟨x, hx⟩ := hs
    obtain ⟨n, hnum⟩ := Option.isSome_iff_exists.1 hf
    simp [hnum, NonFinite, hx]
  · simp only [Shaped, hc] at hs
    obtain ⟨re, im, hval⟩ := hs
    -- a complex value has an exact value if and only if both parts have
    simp only [number?, hval, NonFinite, Value.complex.injEq, Number.ofComplex?,
      FloatValue.isFinite]
    constructor
    · intro h
      refine ⟨re, im, ⟨rfl, rfl⟩, fun hfin => ?_⟩
      obtain ⟨p, hp⟩ := Option.isSome_iff_exists.1 hfin.1
      obtain ⟨q, hq⟩ := Option.isSome_iff_exists.1 hfin.2
      simp [hp, hq] at h
    · rintro ⟨_, _, ⟨rfl, rfl⟩, hnot⟩
      cases hp : re.toRat? with
      | none => rfl
      | some p =>
        cases hq : im.toRat? with
        | none => rfl
        | some q => simp [hp, hq] at hnot

end TypedValue

section

variable {word : WordSize} {ty : Ty}

/-- Narrowing to a basic type without an error yields a sound value. -/
theorem UntypedConst.narrow_sound {c : UntypedConst} (hb : ty.category.isBasic)
    (h : (c.narrow ty word).2 = []) : (c.narrow ty word).1.Sound := by
  refine ⟨by rw [narrow_ty]; exact hb, (c.narrow_fits ty word).shaped, fun hf => ?_⟩
  rw [narrow_ty] at hf
  have hn : ty.isNumeric := by rw [Ty.isNumeric, hf]; rfl
  cases c with
  | number n =>
    obtain ⟨-, hnum⟩ := Number.narrow_exact hn (by rw [hf]; decide) h
    rw [narrow, hnum]; rfl
  | string s => simp [narrow, hf] at h
  | bool b => simp [narrow, hf] at h
  | nil => simp [narrow, Ty.isNilable, hf] at h

end

/-! ## Folds -/

/-- The concrete type at which two constants combine, if they do at one. -/
def Const.commonTy? : Const → Const → Option Ty
  | untyped _, untyped _ => none
  | typed v, untyped u => if u.kind.convertsTo v.ty then some v.ty else none
  | untyped u, typed v => if u.kind.convertsTo v.ty then some v.ty else none
  | typed v, typed w => commonType? v.ty w.ty

/-- **How two constants have a common type**: an untyped one converts to the type of a typed one, on
either side, or two typed ones combine. -/
theorem Const.commonTy?_cases {a b : Const} {ty : Ty} (h : a.commonTy? b = some ty) :
    (∃ v u, a = .typed v ∧ b = .untyped u ∧ u.kind.convertsTo v.ty ∧ v.ty = ty) ∨
    (∃ u v, a = .untyped u ∧ b = .typed v ∧ u.kind.convertsTo v.ty ∧ v.ty = ty) ∨
    ∃ v w, a = .typed v ∧ b = .typed w ∧ commonType? v.ty w.ty = some ty := by
  cases a with
  | untyped u =>
    cases b with
    | untyped _ => cases h
    | typed v =>
      obtain ⟨hconv, hty⟩ := Option.ite_none_right_eq_some.1 h
      exact .inr (.inl ⟨u, v, rfl, rfl, hconv, Option.some.inj hty⟩)
  | typed v =>
    cases b with
    | untyped u =>
      obtain ⟨hconv, hty⟩ := Option.ite_none_right_eq_some.1 h
      exact .inl ⟨v, u, rfl, rfl, hconv, Option.some.inj hty⟩
    | typed w => exact .inr (.inr ⟨v, w, rfl, rfl, h⟩)

/-- An operand as a value of the common type. -/
def Const.operandAt (word : WordSize) (ty : Ty) : Const → TypedValue
  | untyped u => (u.narrow ty word).1
  | typed v => v

/-- An operator meets a complex value with a part that is not finite: it is defined on the common
type, and one of the operands is such a value there. -/
def Operator.MeetsNonFinite (word : WordSize) (op : Operator) (a b : Const) : Prop :=
  ∃ ty, a.commonTy? b = some ty ∧ op.definedOn ty ∧
    ((a.operandAt word ty).NonFinite ∨ (b.operandAt word ty).NonFinite)

/-- No value, and no error. -/
def Folded.IsLost (f : Folded) : Prop := f.value = none ∧ f.errors = []

section

variable {word : WordSize} {ty : Ty} {op : Operator} {place : OperationSpan}

/-- Two sound values at a number type have no exact values if and only if one of them is not
finite. -/
theorem TypedValue.operate_eq_none_iff {a b : TypedValue} (op : Operator) (ha : a.Sound)
    (hb : b.Sound) (hca : a.ty.category = ty.category) (hcb : b.ty.category = ty.category) :
    TypedValue.operate op a b ty = none ∧ ty.isNumeric ↔ a.NonFinite ∨ b.NonFinite := by
  have hna : a.ty.isNumeric = ty.isNumeric := by rw [Ty.isNumeric, hca]; rfl
  have hnb : b.ty.isNumeric = ty.isNumeric := by rw [Ty.isNumeric, hcb]; rfl
  -- of a number type are they all, as soon as one value is not finite
  have numeric : a.NonFinite ∨ b.NonFinite → ty.isNumeric := by
    rintro (h | h)
    · exact hna ▸ h.isNumeric ha
    · exact hnb ▸ h.isNumeric hb
  have hiff : ty.isNumeric →
      (TypedValue.operate op a b ty = none ↔ a.NonFinite ∨ b.NonFinite) := by
    intro hn
    rw [← number?_eq_none_iff ha (hna.trans hn), ← number?_eq_none_iff hb (hnb.trans hn)]
    cases hma : a.number? <;> cases hmb : b.number? <;> simp [operate, hn, hma, hmb]
  constructor
  · rintro ⟨hnone, hn⟩
    exact (hiff hn).1 hnone
  · intro h
    exact ⟨(hiff (numeric h)).2 h, numeric h⟩

/-- **Two sound values at a type are lost if and only if one of them is not finite.** -/
theorem foldAt_lost_iff {a b : TypedValue} (ha : a.Sound) (hb : b.Sound)
    (hca : a.ty.category = ty.category) (hcb : b.ty.category = ty.category) :
    (foldAt op a b ty word place).IsLost ↔ a.NonFinite ∨ b.NonFinite := by
  rw [← TypedValue.operate_eq_none_iff op ha hb hca hcb]
  rcases foldAt_cases op a b ty word place with ⟨z, hz, he⟩ | ⟨e, hz, herr, -⟩ | ⟨hz, he⟩
  · simp [he, hz, Folded.IsLost]
  · exact iff_of_false (fun h => herr h.2) (by simp [hz])
  · by_cases hn : ty.isNumeric <;> simp [he, hz, hn, Folded.IsLost, Folded.failed]

/-- A value that two sound values at a basic type yield without an error is sound. -/
theorem foldAt_sound {a b : TypedValue} {c : Const} (hb : ty.category.isBasic)
    (h : (foldAt op a b ty word place).errors = [])
    (hc : (foldAt op a b ty word place).value = some c) : c.Sound := by
  rcases foldAt_cases op a b ty word place with ⟨z, -, he⟩ | ⟨e, -, herr, -⟩ | ⟨-, he⟩
  · rw [he, Folded.value_narrowed, Option.some.injEq] at hc
    rw [he, Folded.errors_narrowed_eq_nil] at h
    rw [← hc]
    refine UntypedConst.narrow_sound ?_ h
    unfold Operator.resultType
    split
    · rfl
    · exact hb
  · exact absurd h herr
  · simp [he, Folded.failed] at hc

/-- **A typed and an untyped constant are lost** if and only if one of them is not finite at the
type, where the operator is defined. -/
theorem foldMixed_lost_iff {v : TypedValue} {u : UntypedConst} {side : Side} (hv : v.Sound) :
    (foldMixed op v u side word place).IsLost ↔ u.kind.convertsTo v.ty ∧ op.definedOn v.ty ∧
      (v.NonFinite ∨ (u.narrow v.ty word).1.NonFinite) := by
  have hcat : (u.narrow v.ty word).1.ty.category = v.ty.category := by rw [UntypedConst.narrow_ty]
  -- a value that is not finite is of a complex type, and narrowing to those reports nothing
  have lossless : u.kind.convertsTo v.ty → v.ty.category = .complex →
      (u.narrow v.ty word).2 = [] := by
    intro hconv hc
    cases u with
    | number n => rw [UntypedConst.narrow, Number.narrow_of_complex hc]
    | _ => simp [UntypedConst.kind, Kind.convertsTo, Ty.isNilable, hc] at hconv
  have complex : (u.narrow v.ty word).1.NonFinite → v.ty.category = .complex := by
    rintro ⟨re, im, hval, -⟩
    have hs := (u.narrow_fits v.ty word).shaped
    have hb := hv.basic
    unfold TypedValue.Shaped at hs
    rw [hcat] at hs
    cases hc : v.ty.category <;> simp_all [Category.isBasic]
  rcases foldMixed_cases op v u side word place with ⟨hconv, hdef, he⟩ | ⟨hnot, -, herr⟩
  · have hafter : (foldMixed op v u side word place).IsLost ↔ (u.narrow v.ty word).2 = [] ∧
        (foldAt op (side.pick v (u.narrow v.ty word).1) (side.pick (u.narrow v.ty word).1 v) v.ty
          word place).IsLost := by
      simp only [he, Folded.IsLost, Folded.value_after, Folded.errors_after_eq_nil]
      tauto
    simp only [hafter, hconv, hdef, true_and]
    constructor
    · rintro ⟨hlosses, hlost⟩
      have hu := UntypedConst.narrow_sound hv.basic hlosses
      cases side with
      | left => exact (foldAt_lost_iff hv hu rfl hcat).1 hlost
      | right => exact ((foldAt_lost_iff hu hv hcat rfl).1 hlost).symm
    · intro h
      have hlosses := lossless hconv (h.elim (fun h => h.category hv) complex)
      have hu := UntypedConst.narrow_sound hv.basic hlosses
      refine ⟨hlosses, ?_⟩
      cases side with
      | left => exact (foldAt_lost_iff hv hu rfl hcat).2 h
      | right => exact (foldAt_lost_iff hu hv hcat rfl).2 h.symm
  · exact iff_of_false (fun h => herr h.2) fun h => hnot ⟨h.1, h.2.1⟩

/-- **Which folds have neither a value nor an error**: those that meet a complex value with a part
that is not finite. -/
theorem Const.fold_lost_iff {a b : Const} (ha : a.Sound) (hb : b.Sound) :
    (a.fold op b word place).IsLost ↔ op.MeetsNonFinite word a b := by
  cases a with
  | untyped a =>
    cases b with
    | untyped b =>
      have hnot : ¬op.MeetsNonFinite word (untyped a) (untyped b) := by
        rintro ⟨ty, hty, -⟩
        simp [commonTy?] at hty
      refine iff_of_false ?_ hnot
      rcases foldUntyped_cases op a b place with ⟨kind, c, -, -, he⟩ | ⟨herr, -⟩
      · simp [fold, he, Folded.IsLost]
      · exact fun h => herr h.2
    | typed b =>
      rw [fold, foldMixed_lost_iff hb]
      by_cases hconv : a.kind.convertsTo b.ty
      · simp [Operator.MeetsNonFinite, commonTy?, operandAt, hconv, or_comm]
      · simp [Operator.MeetsNonFinite, commonTy?, hconv]
  | typed a =>
    cases b with
    | untyped b =>
      rw [fold, foldMixed_lost_iff ha]
      by_cases hconv : b.kind.convertsTo a.ty
      · simp [Operator.MeetsNonFinite, commonTy?, operandAt, hconv]
      · simp [Operator.MeetsNonFinite, commonTy?, hconv]
    | typed b =>
      rw [fold]
      rcases foldTyped_cases op a b word place with ⟨ty, hcommon, hdef, he⟩ | ⟨hnot, -, herr⟩
      · obtain ⟨rfl, hu, -⟩ := commonType?_of_isBasic ha.basic hb.basic hcommon
        rw [he, foldAt_lost_iff ha hb (Ty.category_of_underlying_eq hu) rfl]
        simp [Operator.MeetsNonFinite, commonTy?, hcommon, operandAt, hdef]
      · refine iff_of_false (fun h => herr h.2) ?_
        rintro ⟨ty, hty, hdef, -⟩
        exact hnot ty hty hdef

/-- A constant that a fold of sound constants yields without an error is sound. -/
theorem Const.fold_sound {a b c : Const} (ha : a.Sound) (hb : b.Sound)
    (h : (a.fold op b word place).errors = []) (hc : (a.fold op b word place).value = some c) :
    c.Sound := by
  have mixed : ∀ {v : TypedValue} {u : UntypedConst} {side : Side}, v.Sound →
      (foldMixed op v u side word place).errors = [] →
      (foldMixed op v u side word place).value = some c → c.Sound := by
    intro v u side hv h hc
    rcases foldMixed_cases op v u side word place with ⟨-, -, he⟩ | ⟨-, -, herr⟩
    · rw [he, Folded.errors_after_eq_nil] at h
      rw [he, Folded.value_after] at hc
      exact foldAt_sound hv.basic h.2 hc
    · exact absurd h herr
  cases a with
  | untyped a =>
    cases b with
    | untyped b =>
      rcases foldUntyped_cases op a b place with ⟨kind, d, -, -, he⟩ | ⟨herr, -⟩
      · rw [fold, he, Option.some.injEq] at hc
        rw [← hc]; trivial
      · exact absurd h herr
    | typed b => exact mixed hb h hc
  | typed a =>
    cases b with
    | untyped b => exact mixed ha h hc
    | typed b =>
      rw [fold] at h hc
      rcases foldTyped_cases op a b word place with ⟨ty, hcommon, -, he⟩ | ⟨-, -, herr⟩
      · obtain ⟨rfl, -, -⟩ := commonType?_of_isBasic ha.basic hb.basic hcommon
        rw [he] at h hc
        exact foldAt_sound hb.basic h hc
      · exact absurd h herr

/-! ## Conversions -/

/-- A conversion meets a complex value with a part that is not finite. -/
def Const.ConvertsNonFinite (ty : Ty) : Const → Prop
  | untyped _ => False
  | typed v => v.ty.convertibleTo ty ∧ v.NonFinite

/-- **Which conversions to a basic type have neither a value nor an error.** -/
theorem Const.convert_lost_iff {c : Const} (hc : c.Sound) (hb : ty.category.isBasic) :
    (c.convert ty word).1 = none ∧ (c.convert ty word).2 = [] ↔ c.ConvertsNonFinite ty := by
  rcases c.convert_cases ty word with
    ⟨d, has, he⟩ | ⟨v, rfl, hconv, hn, he⟩ | ⟨v, rfl, hconv, hn, hnum, he⟩ | ⟨hnot, -, herr⟩
  · refine iff_of_false (by simp [he]) ?_
    cases c with
    | untyped u => exact id
    | typed v =>
      obtain ⟨hconv, hn, n, hnum, -⟩ := has
      -- a number that is narrowed is finite
      have hnv := Ty.isNumeric_of_convertibleTo hconv hn
      rintro ⟨-, hinf⟩
      rw [← TypedValue.number?_eq_none_iff hc hnv, hnum] at hinf
      cases hinf
  · -- what converts to a basic type that holds no numbers is no number itself
    refine iff_of_false (by simp [he]) fun h => ?_
    have hnv := h.2.isNumeric hc
    rw [Ty.isNumeric, Ty.category_of_convertibleTo hconv hb hn] at hnv
    exact absurd (hn.symm.trans hnv) Bool.false_ne_true
  · refine iff_of_true (by simp [he]) ⟨hconv, ?_⟩
    exact (TypedValue.number?_eq_none_iff hc (Ty.isNumeric_of_convertibleTo hconv hn)).1 hnum
  · refine iff_of_false (fun h => herr h.2) ?_
    cases c with
    | untyped u => exact id
    | typed v => exact fun h => hnot v rfl h.1

/-- A constant that a conversion to a basic type yields without an error is sound. -/
theorem Const.convert_sound {c : Const} {v : TypedValue} (hc : c.Sound) (hb : ty.category.isBasic)
    (h : (c.convert ty word).2 = []) (hv : (c.convert ty word).1 = some v) : v.Sound := by
  rcases c.convert_cases ty word with
    ⟨d, -, he⟩ | ⟨t, rfl, hconv, hn, he⟩ | ⟨t, -, -, -, -, he⟩ | ⟨-, he, -⟩
  · rw [he] at h hv
    rw [← Option.some.inj hv]
    exact UntypedConst.narrow_sound hb h
  · rw [he] at hv
    rw [← Option.some.inj hv]
    have hcat := Ty.category_of_convertibleTo hconv hb hn
    refine ⟨hb, hc.shaped.retag hcat, fun hf => ?_⟩
    rw [Ty.isNumeric, hf] at hn
    cases hn
  · simp [he] at hv
  · simp [he] at hv

end

end ConstCheck
