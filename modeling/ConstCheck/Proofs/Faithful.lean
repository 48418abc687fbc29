import Mathlib.Data.String.Basic
import ConstCheck.Proofs.Fits
import ConstCheck.Proofs.WellKinded

/-!
# Expressions without errors keep their exact values

The checker rounds, wraps and cuts off, and says so whenever it does. An expression in which it says
nothing has the value and the type that exact evaluation gives it.

* `Const.Plain`: the constants that the argument is about; the kind of an untyped one tells the
  truth, a typed one is of a basic type, not complex, of the right shape and finite.
* `UntypedConst.narrow_faithful`: narrowing without an error changes the type alone.
* `Const.fold_faithful`, `Const.convert_faithful`: folds and conversions without an error yield what
  they mean.
* `check_faithful` (every arena and environment of plain constants): **an expression checked without
  an error is constant, with its exact value and type**.
-/

namespace ConstCheck

/-! ## Plain constants -/

/-- The basic types that are not complex. -/
def Ty.IsPlain (ty : Ty) : Prop := ty.category.isBasic ∧ ty.category ≠ .complex

/-- A value of a basic type that is not complex, of its shape and finite. -/
structure TypedValue.Plain (v : TypedValue) : Prop where
  ty : v.ty.IsPlain
  shaped : v.Shaped
  finite : v.ty.isNumeric → v.number?.isSome

/-- An untyped number of which the kind tells the truth, any other untyped constant, or a plain
value. -/
def Const.Plain : Const → Prop
  | untyped c => c.WellKinded
  | typed v => v.Plain

namespace Ty.IsPlain

variable {ty : Ty}

theorem cases (h : ty.IsPlain) :
    ty.isNumeric ∨ ty.category = .string ∨ ty.category = .bool := by
  obtain ⟨hb, -⟩ := h
  unfold isNumeric
  cases hc : ty.category <;> simp_all [Category.isBasic, Category.isNumeric]

theorem bool : Ty.bool.IsPlain := ⟨rfl, by decide⟩

theorem not_isNilable (h : ty.IsPlain) : ty.isNilable = false := by
  obtain ⟨hb, -⟩ := h
  unfold isNilable
  cases hc : ty.category <;> simp_all [Category.isBasic]

end Ty.IsPlain

theorem Ty.not_isNumeric_of_string {ty : Ty} (h : ty.category = .string) :
    ty.isNumeric = false := by rw [isNumeric, h]; rfl

theorem Ty.not_isNumeric_of_bool {ty : Ty} (h : ty.category = .bool) :
    ty.isNumeric = false := by rw [isNumeric, h]; rfl

theorem Ty.numKind_of_category {s t : Ty} (h : s.category = t.category) :
    s.numKind = t.numKind := by
  rw [numKind, numKind, h]

namespace TypedValue

variable {v : TypedValue}

theorem Plain.str (h : v.Plain) (hc : v.ty.category = .string) :
    ∃ s, v.value = .str s ∧ v.exactValue? = some (.string s) := by
  have hf := h.shaped
  simp only [Shaped, hc] at hf
  obtain ⟨s, hs⟩ := hf
  exact ⟨s, hs, by simp [exactValue?, hs]⟩

theorem Plain.bool (h : v.Plain) (hc : v.ty.category = .bool) :
    ∃ b, v.value = .bool b ∧ v.exactValue? = some (.bool b) := by
  have hf := h.shaped
  simp only [Shaped, hc] at hf
  obtain ⟨b, hb⟩ := hf
  exact ⟨b, hb, by simp [exactValue?, hb]⟩

/-- **A plain number denotes an exact number** of the kind of its type. -/
theorem Plain.number (h : v.Plain) (hn : v.ty.isNumeric) :
    ∃ n, v.number? = some n ∧ n.WellKinded ∧ n.kind = v.ty.numKind ∧
      v.exactValue? = some (.number n.exact) := by
  obtain ⟨n, hnum⟩ := Option.isSome_iff_exists.1 (h.finite hn)
  have hf := h.shaped
  rcases Ty.isNumeric_cases hn with hc | hc | hc | hc
  · simp only [Shaped, hc] at hf
    obtain ⟨i, hi⟩ := hf
    have he : n = .ofInt i := by simpa [number?, hi] using hnum.symm
    refine ⟨n, hnum, by rw [he]; exact Number.wellKinded_ofInt i, ?_, ?_⟩
    · rw [he, Ty.numKind, hc]; rfl
    · simp [exactValue?, hi, hnum]
  · simp only [Shaped, hc] at hf
    obtain ⟨m, hm⟩ := hf
    have he : n = .ofInt m := by simpa [number?, hm] using hnum.symm
    refine ⟨n, hnum, by rw [he]; exact Number.wellKinded_ofInt m, ?_, ?_⟩
    · rw [he, Ty.numKind, hc]; rfl
    · simp [exactValue?, hm, hnum]
  · simp only [Shaped, hc] at hf
    obtain ⟨x, hx⟩ := hf
    have hx' : Number.ofFloat? x = some n := by simpa [number?, hx] using hnum
    obtain ⟨q, -, rfl⟩ := Option.map_eq_some_iff.1 hx'
    refine ⟨_, hnum, ⟨by simp [Number.ofRat, NumKind.isIntegral], fun _ => rfl⟩, ?_, ?_⟩
    · rw [Ty.numKind, hc]; rfl
    · simp [exactValue?, hx, hnum]
  · exact absurd hc h.ty.2

/-- A plain value that is no number is plain, and the same, under another type of its category. -/
theorem Plain.retag {ty : Ty} (h : v.Plain) (hty : ty.IsPlain) (hc : v.ty.category = ty.category)
    (hn : ty.isNumeric = false) :
    TypedValue.Plain ⟨ty, v.value⟩ ∧ ∃ x, v.exactValue? = some x ∧
      TypedValue.exactValue? ⟨ty, v.value⟩ = some x ∧ x.suits ty := by
  refine ⟨⟨hty, h.shaped.retag hc, fun hn' => by simp [hn] at hn'⟩, ?_⟩
  rcases hty.cases with hn' | hs | hb
  · simp [hn] at hn'
  · obtain ⟨s, hsv, hsx⟩ := h.str (hc.trans hs)
    exact ⟨_, hsx, by simp [exactValue?, hsv], by simp [ExactValue.suits, hs]⟩
  · obtain ⟨b, hbv, hbx⟩ := h.bool (hc.trans hb)
    exact ⟨_, hbx, by simp [exactValue?, hbv], by simp [ExactValue.suits, hb]⟩

end TypedValue

/-- A plain constant denotes a value. -/
theorem Const.denote?_isSome {c : Const} (h : c.Plain) :
    c.denote?.isSome := by
  cases c with
  | untyped u => rfl
  | typed v =>
    rcases h.ty.cases with hn | hs | hb
    · obtain ⟨n, -, -, -, hx⟩ := h.number hn
      simp [denote?, hx]
    · obtain ⟨s, -, hx⟩ := h.str hs
      simp [denote?, hx]
    · obtain ⟨b, -, hx⟩ := h.bool hb
      simp [denote?, hx]

/-! ## Narrowing -/

section

variable {word : WordSize} {ty : Ty}

/-- **Narrowing without an error changes the type alone.** -/
theorem UntypedConst.narrow_faithful {c : UntypedConst} (hty : ty.IsPlain)
    (h : (c.narrow ty word).2 = []) :
    (c.narrow ty word).1.Plain ∧ (c.narrow ty word).1.exactValue? = some c.exact ∧
      c.exact.suits ty := by
  have hshaped := (c.narrow_fits ty word).shaped
  -- type and shape are those of any narrowed value; that it is finite is left to each kind
  have plain : (ty.isNumeric → (c.narrow ty word).1.number?.isSome) →
      (c.narrow ty word).1.Plain := fun hfin =>
    ⟨by rw [narrow_ty]; exact hty, hshaped, by rw [narrow_ty]; exact hfin⟩
  cases c with
  | number n =>
    by_cases hn : ty.isNumeric
    · obtain ⟨him, hnum⟩ := Number.narrow_exact hn hty.2 h
      have hp := plain fun _ => by rw [narrow, hnum]; rfl
      obtain ⟨m, hm, -, -, hexact⟩ := hp.number (by rw [narrow_ty]; exact hn)
      have he : m = ⟨n.re, n.im, ty.numKind⟩ := by
        rw [narrow] at hm
        exact Option.some.inj (hm.symm.trans hnum)
      exact ⟨hp, by rw [hexact, he]; rfl, hn⟩
    · rw [narrow, Number.narrow_of_not_isNumeric (by simpa using hn)] at h
      simp at h
  | string s =>
    by_cases hc : ty.category = .string
    · have hn := Ty.not_isNumeric_of_string hc
      refine ⟨plain fun hn' => by simp [hn] at hn', ?_, by simp [exact, ExactValue.suits, hc]⟩
      simp [narrow, hc, TypedValue.exactValue?, exact]
    · simp [narrow, hc] at h
  | bool b =>
    by_cases hc : ty.category = .bool
    · have hn := Ty.not_isNumeric_of_bool hc
      refine ⟨plain fun hn' => by simp [hn] at hn', ?_, by simp [exact, ExactValue.suits, hc]⟩
      simp [narrow, hc, TypedValue.exactValue?, exact]
    · simp [narrow, hc] at h
  | nil => simp [narrow, hty.not_isNilable] at h

end

/-! ## Operators -/

namespace Operator

variable {op : Operator} {known : KnownType} {c : UntypedConst}

theorem onStrings_exact {s t : String} (h : op.onStrings s t = .ok c) :
    op.onValues? known (.string s) (.string t) = some c.exact ∧ c.WellKinded ∧
      c.kind = if op.isComparison then .bool else .string := by
  cases op with
  | add => cases h; exact ⟨rfl, trivial, rfl⟩
  | eq | ne | lt | le | gt | ge =>
    cases h
    refine ⟨congrArg (fun b => some (ExactValue.bool b)) ?_, trivial, rfl⟩
    exact decide_eq_holds Iff.rfl
  | _ => simp [onStrings] at h

theorem onBools_exact {p q : Bool} (h : op.onBools p q = .ok c) :
    op.onValues? known (.bool p) (.bool q) = some c.exact ∧ c.WellKinded ∧ c.kind = .bool := by
  cases op with
  | eq | ne | logicalAnd | logicalOr =>
    cases h
    refine ⟨?_, trivial, rfl⟩
    cases p <;> cases q <;> simp [onValues?, UntypedConst.exact]
  | _ => simp [onBools] at h

/-- An operator means what it does to the values at the common type. -/
theorem denote?_of_common {a b : Denotation} {z : ExactValue}
    (hcommon : a.known.common? b.known = some known)
    (hvalue : op.onValues? known a.value b.value = some z) :
    op.denote? a b = some ⟨if op.isComparison then known.bool else known, z⟩ := by
  simp [denote?, hcommon, hvalue]

/-- **Untyped constants are combined as they are meant**, at their common kind. -/
theorem operate_exact {a b : UntypedConst} {tag : Kind} (ha : a.WellKinded) (hb : b.WellKinded)
    (hpromote : a.kind.promote b.kind = .ok tag) (h : a.operate op tag b = .ok c) :
    ∃ kind, KnownType.common? (.untyped a.kind) (.untyped b.kind) = some (.untyped kind) ∧
      op.onValues? (.untyped kind) a.exact b.exact = some c.exact ∧ c.WellKinded ∧
      c.kind = if op.isComparison then .bool else kind := by
  cases a with
  | number x =>
    cases b with
    | number y =>
      cases hpromote
      rw [UntypedConst.operate_numbers] at h
      obtain ⟨hexact, hwell, hkind⟩ := onNumbers_exact ha hb h
      exact ⟨_, rfl, hexact, hwell, hkind⟩
    | _ => simp [UntypedConst.operate] at h
  | string s =>
    cases b with
    | string t =>
      obtain ⟨hexact, hwell, hkind⟩ := onStrings_exact h
      exact ⟨_, rfl, hexact, hwell, hkind⟩
    | _ => simp [UntypedConst.operate] at h
  | bool p =>
    cases b with
    | bool q =>
      obtain ⟨hexact, hwell, hkind⟩ := onBools_exact h
      exact ⟨.bool, rfl, hexact, hwell, by rw [hkind, ite_self]⟩
    | _ => simp [UntypedConst.operate] at h
  | nil => cases b <;> simp [UntypedConst.operate] at h

end Operator

/-! ## Folds -/

section

variable {word : WordSize} {ty : Ty} {op : Operator} {place : OperationSpan}

/-- **Two untyped constants**, folded without an error, yield what the operator means. -/
theorem foldUntyped_faithful {a b : UntypedConst} (ha : a.WellKinded) (hb : b.WellKinded)
    (h : (foldUntyped op a b place).errors = []) :
    ∃ c, (foldUntyped op a b place).value = some (.untyped c) ∧ c.WellKinded ∧
      op.denote? ⟨.untyped a.kind, a.exact⟩ ⟨.untyped b.kind, b.exact⟩ =
        some ⟨.untyped c.kind, c.exact⟩ := by
  rcases foldUntyped_cases op a b place with ⟨tag, c, hpromote, hop, he⟩ | ⟨herr, -⟩
  · obtain ⟨kind, hcommon, hvalue, hwell, hkind⟩ := Operator.operate_exact ha hb hpromote hop
    refine ⟨c, by rw [he], hwell, ?_⟩
    rw [Operator.denote?_of_common hcommon hvalue, hkind]
    split <;> rfl
  · exact absurd h herr

/-- Two plain values at a type have exact values, and what the operator makes of them is what it
means. -/
theorem TypedValue.operate_exact {a b : TypedValue} (op : Operator) (ha : a.Plain)
    (hb : b.Plain) (hty : ty.IsPlain) (hca : a.ty.category = ty.category)
    (hcb : b.ty.category = ty.category) :
    ∃ x y r, a.exactValue? = some x ∧ b.exactValue? = some y ∧
      TypedValue.operate op a b ty = some r ∧
      ∀ c, r = .ok c → op.onValues? (.typed ty) x y = some c.exact := by
  unfold operate
  -- the category of the type picks the evaluator, and the shape of the values agrees with it
  rcases hty.cases with hn | hs | hb'
  · have hna : a.ty.isNumeric := by rw [Ty.isNumeric, hca]; exact hn
    have hnb : b.ty.isNumeric := by rw [Ty.isNumeric, hcb]; exact hn
    obtain ⟨m, hm, hmw, hmk, hmx⟩ := ha.number hna
    obtain ⟨n, hnn, hnw, hnk, hnx⟩ := hb.number hnb
    refine ⟨_, _, op.onNumbers m n, hmx, hnx, by simp [hn, hm, hnn], fun c hc => ?_⟩
    obtain ⟨hexact, -, -⟩ := Operator.onNumbers_exact hmw hnw hc
    rw [hmk, hnk, Ty.numKind_of_category hca, Ty.numKind_of_category hcb, NumKind.join_self]
      at hexact
    exact hexact
  · obtain ⟨s, hsv, hsx⟩ := ha.str (hca.trans hs)
    obtain ⟨t, htv, htx⟩ := hb.str (hcb.trans hs)
    refine ⟨_, _, op.onStrings s t, hsx, htx, ?_, fun c hc => (Operator.onStrings_exact hc).1⟩
    simp [Ty.not_isNumeric_of_string hs, hsv, htv]
  · obtain ⟨p, hpv, hpx⟩ := ha.bool (hca.trans hb')
    obtain ⟨q, hqv, hqx⟩ := hb.bool (hcb.trans hb')
    refine ⟨_, _, op.onBools p q, hpx, hqx, ?_, fun c hc => (Operator.onBools_exact hc).1⟩
    simp [Ty.not_isNumeric_of_bool hb', hpv, hqv]

theorem Operator.resultType_isPlain (hty : ty.IsPlain) : (op.resultType ty).IsPlain := by
  unfold resultType
  split
  · exact Ty.IsPlain.bool
  · exact hty

/-- **Two plain values at a type**, folded without an error, yield what the operator means. -/
theorem foldAt_faithful {a b : TypedValue} (ha : a.Plain) (hb : b.Plain)
    (hty : ty.IsPlain) (hca : a.ty.category = ty.category) (hcb : b.ty.category = ty.category)
    (h : (foldAt op a b ty word place).errors = []) :
    ∃ v x y z, (foldAt op a b ty word place).value = some (.typed v) ∧ v.Plain ∧
      v.ty = op.resultType ty ∧ a.exactValue? = some x ∧ b.exactValue? = some y ∧
      op.onValues? (.typed ty) x y = some z ∧ v.exactValue? = some z := by
  obtain ⟨x, y, r, hx, hy, hop, hvalue⟩ := TypedValue.operate_exact op ha hb hty hca hcb
  rcases foldAt_cases op a b ty word place with ⟨c, hr, he⟩ | ⟨e, -, herr, -⟩ | ⟨hnone, -⟩
  · rw [hop, Option.some.injEq] at hr
    rw [he, Folded.errors_narrowed_eq_nil] at h
    obtain ⟨hplain, hexact, -⟩ := UntypedConst.narrow_faithful (Operator.resultType_isPlain hty) h
    exact ⟨_, x, y, c.exact, by rw [he]; rfl, hplain, UntypedConst.narrow_ty _ _ _, hx, hy,
      hvalue c hr, hexact⟩
  · exact absurd h herr
  · rw [hop] at hnone
    cases hnone

/-- What an operator means on operands of a common concrete type. -/
theorem Operator.denote?_typed {a b : Denotation} {z : ExactValue}
    (hcommon : a.known.common? b.known = some (.typed ty))
    (hvalue : op.onValues? (.typed ty) a.value b.value = some z) :
    op.denote? a b = some ⟨.typed (op.resultType ty), z⟩ := by
  rw [denote?_of_common hcommon hvalue, resultType]
  split <;> rfl

/-- **A typed and an untyped constant**, folded without an error, yield what the operator means. -/
theorem foldMixed_faithful {v : TypedValue} {c : UntypedConst} {side : Side} (hv : v.Plain)
    (h : (foldMixed op v c side word place).errors = []) :
    ∃ w x z, (foldMixed op v c side word place).value = some (.typed w) ∧ w.Plain ∧
      v.exactValue? = some x ∧ w.exactValue? = some z ∧
      op.denote? (side.pick ⟨.typed v.ty, x⟩ ⟨.untyped c.kind, c.exact⟩)
        (side.pick ⟨.untyped c.kind, c.exact⟩ ⟨.typed v.ty, x⟩) = some ⟨.typed w.ty, z⟩ := by
  rcases foldMixed_cases op v c side word place with ⟨-, -, he⟩ | ⟨-, -, herr⟩
  · rw [he, Folded.errors_after_eq_nil] at h
    rw [he, Folded.value_after]
    obtain ⟨hlosses, hfold⟩ := h
    obtain ⟨hplain, hexact, -⟩ := UntypedConst.narrow_faithful hv.ty hlosses
    have hcat : (c.narrow v.ty word).1.ty.category = v.ty.category := by
      rw [UntypedConst.narrow_ty]
    -- the typed operand keeps its side, as operators need not commute
    cases side with
    | left =>
      obtain ⟨w, x, y, z, hvalue, hw, hwty, hx, hy, hz, hwz⟩ :=
        foldAt_faithful hv hplain hv.ty rfl hcat hfold
      rw [hexact, Option.some.injEq] at hy
      subst hy
      refine ⟨w, x, z, hvalue, hw, hx, hwz, ?_⟩
      rw [hwty]
      exact Operator.denote?_typed rfl hz
    | right =>
      obtain ⟨w, y, x, z, hvalue, hw, hwty, hy, hx, hz, hwz⟩ :=
        foldAt_faithful hplain hv hv.ty hcat rfl hfold
      rw [hexact, Option.some.injEq] at hy
      subst hy
      refine ⟨w, x, z, hvalue, hw, hx, hwz, ?_⟩
      rw [hwty]
      refine Operator.denote?_typed ?_ hz
      simp [Side.pick, KnownType.common?]
  · exact absurd h herr

/-- **Two typed constants**, folded without an error, yield what the operator means. -/
theorem foldTyped_faithful {a b : TypedValue} (ha : a.Plain) (hb : b.Plain)
    (h : (foldTyped op a b word place).errors = []) :
    ∃ v x y z, (foldTyped op a b word place).value = some (.typed v) ∧ v.Plain ∧
      a.exactValue? = some x ∧ b.exactValue? = some y ∧ v.exactValue? = some z ∧
      op.denote? ⟨.typed a.ty, x⟩ ⟨.typed b.ty, y⟩ = some ⟨.typed v.ty, z⟩ := by
  rcases foldTyped_cases op a b word place with ⟨ty, hcommon, -, he⟩ | ⟨-, -, herr⟩
  · obtain ⟨rfl, hu, hknown⟩ := commonType?_of_isBasic ha.ty.1 hb.ty.1 hcommon
    rw [he] at h ⊢
    obtain ⟨v, x, y, z, hvalue, hv, hvty, hx, hy, hz, hvz⟩ :=
      foldAt_faithful ha hb hb.ty (Ty.category_of_underlying_eq hu) rfl h
    refine ⟨v, x, y, z, hvalue, hv, hx, hy, hvz, ?_⟩
    rw [hvty]
    exact Operator.denote?_typed hknown hz
  · exact absurd h herr

/-- **A fold of plain constants without an error yields what the operator means.** -/
theorem Const.fold_faithful {a b : Const} (ha : a.Plain) (hb : b.Plain)
    (h : (a.fold op b word place).errors = []) :
    ∃ c x y, (a.fold op b word place).value = some c ∧ c.Plain ∧ a.denote? = some x ∧
      b.denote? = some y ∧ (op.denote? x y).isSome ∧ c.denote? = op.denote? x y := by
  cases a with
  | untyped a =>
    cases b with
    | untyped b =>
      obtain ⟨c, hvalue, hc, hdenote⟩ := foldUntyped_faithful ha hb h
      exact ⟨_, _, _, hvalue, hc, rfl, rfl, by rw [hdenote]; rfl, hdenote.symm⟩
    | typed b =>
      obtain ⟨w, x, z, hvalue, hw, hx, hz, hdenote⟩ := foldMixed_faithful hb h
      exact ⟨_, _, ⟨.typed b.ty, x⟩, hvalue, hw, rfl, by simp [denote?, hx],
        Option.isSome_of_eq_some hdenote, by simp [denote?, hz]; exact hdenote.symm⟩
  | typed a =>
    cases b with
    | untyped b =>
      obtain ⟨w, x, z, hvalue, hw, hx, hz, hdenote⟩ := foldMixed_faithful ha h
      exact ⟨_, ⟨.typed a.ty, x⟩, _, hvalue, hw, by simp [denote?, hx], rfl,
        Option.isSome_of_eq_some hdenote, by simp [denote?, hz]; exact hdenote.symm⟩
    | typed b =>
      obtain ⟨v, x, y, z, hvalue, hv, hx, hy, hz, hdenote⟩ := foldTyped_faithful ha hb h
      exact ⟨_, ⟨.typed a.ty, x⟩, ⟨.typed b.ty, y⟩, hvalue, hv, by simp [denote?, hx],
        by simp [denote?, hy], Option.isSome_of_eq_some hdenote, by simp [denote?, hz, hdenote]⟩

/-! ## Conversions -/

/-- What a conversion narrows is what the operand denotes. -/
theorem Const.Plain.denote?_of_narrowsAs {c : Const} {d : UntypedConst} (hc : c.Plain)
    (h : c.NarrowsAs ty d) : ∃ known, c.denote? = some ⟨known, d.exact⟩ := by
  cases c with
  | untyped u =>
    obtain ⟨-, rfl⟩ := h
    exact ⟨_, rfl⟩
  | typed v =>
    obtain ⟨hconv, hn, n, hnum, rfl⟩ := h
    obtain ⟨m, hm, -, -, hx⟩ := TypedValue.Plain.number hc (Ty.isNumeric_of_convertibleTo hconv hn)
    obtain rfl : m = n := Option.some.inj (hm.symm.trans hnum)
    exact ⟨.typed v.ty, by rw [denote?, hx]; rfl⟩

/-- **An explicit conversion without an error changes the type alone.** -/
theorem Const.convert_faithful {c : Const} (hc : c.Plain) (hty : ty.IsPlain)
    (h : (c.convert ty word).2 = []) :
    ∃ v x, (c.convert ty word).1 = some v ∧ v.Plain ∧ c.denote? = some x ∧
      (typed v).denote? = x.value.retag? ty ∧ (x.value.retag? ty).isSome := by
  have htag : ∀ {x : ExactValue} {v : TypedValue}, v.ty = ty → v.exactValue? = some x →
      x.suits ty → (typed v).denote? = x.retag? ty ∧ (x.retag? ty).isSome := by
    intro x v hv hx hs
    simp [denote?, hv, hx, ExactValue.retag?, hs]
  rcases c.convert_cases ty word with
    ⟨d, has, he⟩ | ⟨t, rfl, hconv, hn, he⟩ | ⟨t, rfl, hconv, hn, hnum, -⟩ | ⟨-, -, herr⟩
  · rw [he] at h ⊢
    obtain ⟨hplain, hexact, hsuits⟩ := UntypedConst.narrow_faithful hty h
    obtain ⟨known, hdenote⟩ := hc.denote?_of_narrowsAs has
    exact ⟨_, ⟨known, d.exact⟩, rfl, hplain, hdenote, htag (d.narrow_ty ty word) hexact hsuits⟩
  · rw [he]
    obtain ⟨hplain, x, hx, hx', hsuits⟩ :=
      hc.retag hty (Ty.category_of_convertibleTo hconv hty.1 hn) hn
    exact ⟨_, ⟨.typed t.ty, x⟩, rfl, hplain, by rw [denote?, hx]; rfl, htag rfl hx' hsuits⟩
  · -- a plain number is finite
    have hfin := hc.finite (Ty.isNumeric_of_convertibleTo hconv hn)
    rw [hnum] at hfin
    cases hfin
  · exact absurd h herr

end

/-! ## Whole expressions -/

section

variable {ctx : Context}

/-- A numeric literal without an error is read. -/
theorem Context.checkNumber_faithful {text : Name} {kind : NumKind}
    {parse : List Char → Option Number} {span : Span}
    (hwell : ∀ n, parse (ctx.names.lookup text).toList = some n → n.WellKinded)
    (h : (ctx.checkNumber text kind parse span).errors = []) :
    ∃ n, parse (ctx.names.lookup text).toList = some n ∧ n.WellKinded ∧
      (ctx.checkNumber text kind parse span).node.info = .ofConst (.number n) := by
  unfold checkNumber at h ⊢
  simp only at h ⊢
  cases hn : parse (ctx.names.lookup text).toList with
  | none => simp [hn] at h
  | some n => exact ⟨n, rfl, hwell n hn, rfl⟩

/-- The constants that identifiers stand for are plain. -/
theorem Context.resolve?_plain
    (henv : ∀ name c, ctx.env.const? name = some c → c.Plain) {name : Name} {c : Const}
    (h : ctx.resolve? name = some (.const c)) : c.Plain := by
  rcases resolve?_const h with rfl | hc | ⟨b, rfl⟩
  · trivial
  · exact henv name c hc
  · trivial

/-- A leaf checked without an error is constant, plain, and what it means. -/
theorem Tree.leaf_denotes
    (henv : ∀ name c, ctx.env.const? name = some c → c.Plain) {l : Leaf} {span : Span}
    (ht : (Tree.leaf l span).ConstExpr ctx Ty.IsPlain)
    (h : ((Tree.leaf l span).check ctx).errors = []) :
    ∃ c, ((Tree.leaf l span).check ctx).node.info = .ofConst c ∧ c.Plain ∧ c.denote?.isSome ∧
      (Tree.leaf l span).denote? ctx = c.denote? := by
  cases ht with
  | int text =>
    obtain ⟨n, hn, hwell, hinfo⟩ :=
      Context.checkNumber_faithful (fun n hn => Literal.wellKinded (.inl hn)) h
    exact ⟨_, hinfo, hwell, rfl, by simp [denote?, Leaf.denote?, hn]⟩
  | float text =>
    obtain ⟨n, hn, hwell, hinfo⟩ :=
      Context.checkNumber_faithful (fun n hn => Literal.wellKinded (.inr (.inl hn))) h
    exact ⟨_, hinfo, hwell, rfl, by simp [denote?, Leaf.denote?, hn]⟩
  | imag text =>
    obtain ⟨n, hn, hwell, hinfo⟩ :=
      Context.checkNumber_faithful (fun n hn => Literal.wellKinded (.inr (.inr hn))) h
    exact ⟨_, hinfo, hwell, rfl, by simp [denote?, Leaf.denote?, hn]⟩
  | rune r =>
    refine ⟨_, rfl, Number.wellKinded_of_isWhole (by simp [Number.ofRune, Number.isWhole]), rfl, ?_⟩
    have hexact : (Number.ofRune r).exact = ((r.toNat : ℕ) : Exact) := by
      ext <;> simp [Number.exact, Number.ofRune]
    rw [denote?, Leaf.denote?, ← hexact]
    rfl
  | string text => exact ⟨_, rfl, trivial, rfl, rfl⟩
  | @ident name c _ hres =>
    have hplain := Context.resolve?_plain henv hres
    refine ⟨c, ?_, hplain, ?_, ?_⟩
    · simp only [check, Context.checkLeaf, Context.checkIdent, hres]
      rfl
    · exact Const.denote?_isSome hplain
    · simp [denote?, Leaf.denote?, hres]

/-- **A tree checked without an error is constant**, plain, and what it means. -/
theorem Tree.check_denotes
    (henv : ∀ name c, ctx.env.const? name = some c → c.Plain) {t : Tree}
    (ht : t.ConstExpr ctx Ty.IsPlain) (h : (t.check ctx).errors = []) :
    ∃ c, (t.check ctx).node.info = .ofConst c ∧ c.Plain ∧ c.denote?.isSome ∧
      t.denote? ctx = c.denote? := by
  induction ht with
  | int text span => exact leaf_denotes henv (.int text span) h
  | float text span => exact leaf_denotes henv (.float text span) h
  | imag text span => exact leaf_denotes henv (.imag text span) h
  | rune r span => exact leaf_denotes henv (.rune r span) h
  | string text span => exact leaf_denotes henv (.string text span) h
  | ident span hres => exact leaf_denotes henv (.ident span hres) h
  | paren span _ ih =>
    obtain ⟨c, hinfo, hplain, hsome, hdenote⟩ := ih h
    exact ⟨c, hinfo, hplain, hsome, by rw [denote?, hdenote]⟩
  | @binary l r op span _ _ ihl ihr =>
    -- an operation without an error has operands without one
    have herrors := errors_of_binary h
    obtain ⟨a, hla, hpa, hsa, hda⟩ := ihl herrors.1
    obtain ⟨b, hrb, hpb, hsb, hdb⟩ := ihr herrors.2
    have hca : (l.check ctx).node.constant? = some a := by rw [Node.constant?, hla]; rfl
    have hcb : (r.check ctx).node.constant? = some b := by rw [Node.constant?, hrb]; rfl
    obtain ⟨hinfo, herr⟩ := check_binary_of_constants op span hca hcb
    rw [herr, List.append_eq_nil_iff] at h
    obtain ⟨c, x, y, hvalue, hplain, hx, hy, hsome, hdenote⟩ := Const.fold_faithful hpa hpb h.2
    rw [hvalue] at hinfo
    refine ⟨c, hinfo, hplain, by rw [hdenote]; exact hsome, ?_⟩
    simp [denote?, hda, hdb, hx, hy, hdenote]
  | @convert name ty arg place span hres hty _ ih =>
    obtain ⟨hinfo, herr⟩ := check_conversion arg place span hres
    rw [herr, List.append_eq_nil_iff] at h
    obtain ⟨c, hla, hpc, hsc, hdc⟩ := ih h.1
    have hc : (arg.check ctx).node.constant? = some c := by rw [Node.constant?, hla]; rfl
    rw [Context.callConversion_of_constant span hc] at hinfo h
    obtain ⟨v, x, hvalue, hplain, hx, hdenote, hsome⟩ :=
      Const.convert_faithful hpc hty (List.map_eq_nil_iff.1 h.2)
    rw [hvalue] at hinfo
    refine ⟨.typed v, hinfo, hplain, by rw [hdenote]; exact hsome, ?_⟩
    simp [denote?, hres, hdc, hx, hdenote]

/-- **An expression checked without an error is constant, with its exact value and type.** The
expression is built of literals, plain named constants, all operators, and conversions to the basic
types that are not complex. Nothing was rounded, wrapped or cut off on the way, and `/` dropped a
fraction only between integers. -/
theorem check_faithful {a : Arena} {id : ExprId} {t : Tree}
    (htree : a.tree? id = some t) (ht : t.ConstExpr ctx Ty.IsPlain)
    (henv : ∀ name c, ctx.env.const? name = some c → c.Plain) :
    ∃ r, a.check? ctx id = some r ∧ (r.errors = [] → ∃ c x,
      r.node.constant? = some c ∧ r.node.singleType? = some x.known ∧
      t.denote? ctx = some x ∧ c.denote? = some x) := by
  refine ⟨_, Arena.check?_of_tree? htree, fun h => ?_⟩
  obtain ⟨c, hinfo, -, hsome, hdenote⟩ := Tree.check_denotes henv ht h
  obtain ⟨x, hx⟩ := Option.isSome_iff_exists.1 hsome
  have hknown : c.knownType = x.known := by
    cases c with
    | untyped u => rw [← Option.some.inj hx]; rfl
    | typed v =>
      obtain ⟨y, -, rfl⟩ := Option.map_eq_some_iff.1 hx
      rfl
  refine ⟨c, x, ?_, ?_, hdenote.trans hx, hx⟩
  · rw [Node.constant?, hinfo]; rfl
  · rw [Node.singleType?, hinfo, ← hknown]; rfl

/-- Seven over two, as constants of type `int8`. -/
theorem check_faithful_seven_quo_two : ∃ ctx r c x,
    (Arena.operation .quo).check? ctx ⟨2⟩ = some r ∧ r.errors.isEmpty ∧
    r.node.constant?.bind Const.int? = some 3 ∧ r.node.constant? = some c ∧
    (Tree.operation .quo).denote? ctx = some x ∧ c.denote? = some x := by
  let ctx : Context := .ofConsts .bits64
    [("seven", ⟨.basic .int8, .int 7⟩), ("two", ⟨.basic .int8, .int 2⟩)]
  have plain : ∀ i : ℤ, TypedValue.Plain ⟨.basic .int8, .int i⟩ := fun i =>
    ⟨⟨rfl, by simp [Ty.category, BasicType.category]⟩, ⟨i, rfl⟩, fun _ => rfl⟩
  have henv : ∀ name c, ctx.env.const? name = some c → c.Plain := by
    intro name c h
    obtain ⟨v, hv, rfl⟩ := Context.mem_of_const?_ofConsts h
    simp only [List.map_cons, List.map_nil, List.mem_cons, List.not_mem_nil, or_false] at hv
    rcases hv with rfl | rfl
    · exact plain 7
    · exact plain 2
  have hexpr : (Tree.operation .quo).ConstExpr ctx Ty.IsPlain :=
    .binary _ _ (.ident _ (c := .typed ⟨.basic .int8, .int 7⟩) rfl)
      (.ident _ (c := .typed ⟨.basic .int8, .int 2⟩) rfl)
  obtain ⟨r, hr, hfaithful⟩ := check_faithful (Arena.tree?_operation .quo) hexpr henv
  have hr' : r = (Tree.operation .quo).check ctx := by
    rw [Arena.check?_of_tree? (Arena.tree?_operation .quo)] at hr
    exact (Option.some.inj hr).symm
  have hempty : r.errors.isEmpty := by rw [hr']; decide +kernel
  obtain ⟨c, x, hc, -, hx, hcx⟩ := hfaithful (List.isEmpty_iff.1 hempty)
  exact ⟨ctx, r, c, x, hr, hempty, by rw [hr']; decide +kernel, hc, hx, hcx⟩

end

end ConstCheck
