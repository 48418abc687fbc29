import ConstCheck.Proofs.Lost

/-!
# Expressions that lose a constant

An operation on constants either has a value or reports an error, with one exception: narrowing to
a complex type checks no range, and an operation that meets a complex value with an infinite part
has no value and no error. An expression that reports nothing is constant unless it has such an
operation.

* `Tree.LostSilently`, `Tree.MeetsNonFinite`: an operation on constants with neither value nor
  error, and one that meets a complex value that is not finite.
* `Tree.check_sound`: without errors every constant is sound.
* `lost_iff_meetsNonFinite` (every arena and environment of finite constants): **the two are the
  same**, and an expression without errors is constant if and only if it has no such operation.
-/

namespace ConstCheck

/-- The basic types, names seen through. -/
def Ty.IsBasic (ty : Ty) : Prop := ty.category.isBasic

/-- A finite value of a basic type, of its shape. -/
structure TypedValue.FiniteBasic (v : TypedValue) : Prop where
  basic : v.ty.IsBasic
  shaped : v.Shaped
  finite : v.ty.isNumeric → v.number?.isSome

theorem TypedValue.FiniteBasic.sound {v : TypedValue} (h : v.FiniteBasic) : v.Sound :=
  ⟨h.basic, h.shaped, fun hf => h.finite (by rw [Ty.isNumeric, hf]; rfl)⟩

namespace Tree

/-- A binary operation or a conversion, all operands of which are constant. -/
def OnConstants (ctx : Context) : Tree → Prop
  | binary _ l r _ =>
    (l.check ctx).node.constant?.isSome ∧ (r.check ctx).node.constant?.isSome
  | call (leaf (.ident name) _) [arg] _ =>
    (∃ ty, ctx.resolve? name = some (.type ty)) ∧ (arg.check ctx).node.constant?.isSome
  | _ => False

/-- An operation on constants that has no value, in an expression that has no error. -/
def LostSilently (ctx : Context) (t : Tree) : Prop :=
  t.OnConstants ctx ∧ (t.check ctx).node.constant? = none ∧ (t.check ctx).errors = []

/-- An operation on constants without errors that meets a complex value with a part that is not
finite. -/
def MeetsNonFinite (ctx : Context) : Tree → Prop
  | binary op l r _ =>
    (l.check ctx).errors = [] ∧ (r.check ctx).errors = [] ∧
      ∃ a b, (l.check ctx).node.constant? = some a ∧ (r.check ctx).node.constant? = some b ∧
        op.MeetsNonFinite ctx.word a b
  | call (leaf (.ident name) _) [arg] _ =>
    (arg.check ctx).errors = [] ∧ ∃ ty c, ctx.resolve? name = some (.type ty) ∧
      (arg.check ctx).node.constant? = some c ∧ c.ConvertsNonFinite ty
  | _ => False

end Tree

section

variable {ctx : Context}
  (henv : ∀ name v, ctx.env.const? name = some (.typed v) → v.FiniteBasic)

include henv

/-- **The leaves of a constant expression are constants**, and sound. -/
theorem Tree.leaf_sound {T : Ty → Prop} {l : Leaf} {span : Span}
    (ht : (Tree.leaf l span).ConstExpr ctx T) :
    ∃ c, ((Tree.leaf l span).check ctx).node.info = .ofConst c ∧ c.Sound := by
  have hnumber : ∀ text kind parse,
      ∃ c, (ctx.checkNumber text kind parse span).node.info = .ofConst c ∧ c.Sound := by
    intro text kind parse
    unfold Context.checkNumber
    simp only
    split <;> exact ⟨_, rfl, trivial⟩
  cases ht with
  | int text => exact hnumber _ _ _
  | float text => exact hnumber _ _ _
  | imag text => exact hnumber _ _ _
  | rune r => exact ⟨_, rfl, trivial⟩
  | string text => exact ⟨_, rfl, trivial⟩
  | @ident name c _ hres =>
    refine ⟨c, ?_, ?_⟩
    · simp only [check, Context.checkLeaf, Context.checkIdent, hres]
      rfl
    · rcases Context.resolve?_const hres with rfl | hc | ⟨b, rfl⟩
      · trivial
      · cases c with
        | untyped u => trivial
        | typed v => exact (henv name v hc).sound
      · trivial

/-- **Without errors every constant is sound.** -/
theorem Tree.check_sound {t : Tree} (ht : t.ConstExpr ctx Ty.IsBasic)
    (h : (t.check ctx).errors = []) {c : Const} (hc : (t.check ctx).node.constant? = some c) :
    c.Sound := by
  have leaf : ∀ {l span}, (Tree.leaf l span).ConstExpr ctx Ty.IsBasic → ∀ {c : Const},
      ((Tree.leaf l span).check ctx).node.constant? = some c → c.Sound := by
    intro l span hl c hc
    obtain ⟨d, hinfo, hd⟩ := leaf_sound henv hl
    rw [Node.constant?, hinfo, Info.constant?_ofConst, Option.some.injEq] at hc
    rwa [← hc]
  induction ht generalizing c with
  | int text span => exact leaf (.int text span) hc
  | float text span => exact leaf (.float text span) hc
  | imag text span => exact leaf (.imag text span) hc
  | rune r span => exact leaf (.rune r span) hc
  | string text span => exact leaf (.string text span) hc
  | ident span hres => exact leaf (.ident span hres) hc
  | paren span _ ih => exact ih h hc
  | @binary l r op span _ _ ihl ihr =>
    obtain ⟨a, b, ha, hb, hfold⟩ := Context.binaryInfo_const hc
    obtain ⟨-, herr⟩ := check_binary_of_constants op span ha hb
    -- the fold adds its errors to those of the operands, so all three are without
    rw [herr, List.append_eq_nil_iff, List.append_eq_nil_iff] at h
    exact Const.fold_sound (ihl h.1.1 ha) (ihr h.1.2 hb) h.2 hfold
  | @convert name ty arg place span hres hty _ ih =>
    obtain ⟨hinfo, herr⟩ := check_conversion arg place span hres
    rw [Node.constant?, hinfo] at hc
    obtain ⟨n, a, v, hn, ha, hv, rfl⟩ := Context.callConversion_const hc
    cases hn
    rw [herr, Context.callConversion_of_constant span ha, List.append_eq_nil_iff] at h
    exact Const.convert_sound (ih h.1 ha) hty (List.map_eq_nil_iff.1 h.2) hv

/-- **A binary operation is lost if and only if it meets a value that is not finite.** -/
theorem Tree.binary_lost_iff {op : Operator} {l r : Tree} {span : Span}
    (hl : l.ConstExpr ctx Ty.IsBasic) (hr : r.ConstExpr ctx Ty.IsBasic) :
    (Tree.binary op l r span).LostSilently ctx ↔ (Tree.binary op l r span).MeetsNonFinite ctx := by
  constructor
  · rintro ⟨⟨hla, hrb⟩, hnone, herrors⟩
    obtain ⟨a, ha⟩ := Option.isSome_iff_exists.1 hla
    obtain ⟨b, hb⟩ := Option.isSome_iff_exists.1 hrb
    obtain ⟨hinfo, herr⟩ := check_binary_of_constants op span ha hb
    rw [herr, List.append_eq_nil_iff, List.append_eq_nil_iff] at herrors
    obtain ⟨⟨hle, hre⟩, hfold⟩ := herrors
    rw [Node.constant?, hinfo, Info.constant?_ofConst?] at hnone
    exact ⟨hle, hre, a, b, ha, hb, (Const.fold_lost_iff (check_sound henv hl hle ha)
      (check_sound henv hr hre hb)).1 ⟨hnone, hfold⟩⟩
  · rintro ⟨hle, hre, a, b, ha, hb, hmeets⟩
    obtain ⟨hinfo, herr⟩ := check_binary_of_constants op span ha hb
    have hlost : (a.fold op b ctx.word ⟨span, (r.check ctx).node.span⟩).IsLost :=
      (Const.fold_lost_iff (check_sound henv hl hle ha) (check_sound henv hr hre hb)).2 hmeets
    obtain ⟨hnone, hfold⟩ := hlost
    refine ⟨⟨by rw [ha]; rfl, by rw [hb]; rfl⟩, ?_, ?_⟩
    · rw [Node.constant?, hinfo, Info.constant?_ofConst?]; exact hnone
    · rw [herr, hle, hre, hfold]; rfl

/-- **A conversion is lost if and only if it meets a value that is not finite.** -/
theorem Tree.convert_lost_iff {name : Name} {ty : Ty} {arg : Tree} {place span : Span}
    (hres : ctx.resolve? name = some (.type ty)) (hty : ty.IsBasic)
    (harg : arg.ConstExpr ctx Ty.IsBasic) :
    (Tree.call (.leaf (.ident name) place) [arg] span).LostSilently ctx ↔
      (Tree.call (.leaf (.ident name) place) [arg] span).MeetsNonFinite ctx := by
  obtain ⟨hinfo, herr⟩ := check_conversion arg place span hres
  constructor
  · rintro ⟨⟨-, hconst⟩, hnone, herrors⟩
    obtain ⟨c, hc⟩ := Option.isSome_iff_exists.1 hconst
    rw [herr, Context.callConversion_of_constant span hc, List.append_eq_nil_iff] at herrors
    rw [Node.constant?, hinfo, Context.callConversion_of_constant span hc,
      Info.constant?_ofConst?, Option.map_eq_none_iff] at hnone
    exact ⟨herrors.1, ty, c, hres, hc, (Const.convert_lost_iff
      (check_sound henv harg herrors.1 hc) hty).1 ⟨hnone, List.map_eq_nil_iff.1 herrors.2⟩⟩
  · rintro ⟨hempty, ty', c, hres', hc, hmeets⟩
    obtain rfl : ty' = ty := by
      rw [hres] at hres'
      simpa using hres'.symm
    obtain ⟨hnone, hkinds⟩ :=
      (Const.convert_lost_iff (check_sound henv harg hempty hc) hty).2 hmeets
    refine ⟨⟨⟨ty', hres⟩, by rw [hc]; rfl⟩, ?_, ?_⟩
    · rw [Node.constant?, hinfo, Context.callConversion_of_constant span hc,
        Info.constant?_ofConst?, hnone]
      rfl
    · rw [herr, hempty, Context.callConversion_of_constant span hc, hkinds]; rfl

/-- **What is lost in a constant expression is what meets a value that is not finite.** -/
theorem Tree.lost_iff {t : Tree} (ht : t.ConstExpr ctx Ty.IsBasic) :
    t.LostSilently ctx ↔ t.MeetsNonFinite ctx := by
  cases ht with
  | binary op span hl hr => exact binary_lost_iff henv hl hr
  | convert place span hres hty harg => exact convert_lost_iff henv hres hty harg
  | _ => exact ⟨fun h => h.1, False.elim⟩

/-- An operation on constants without errors is constant unless it is lost itself. -/
theorem Tree.isConstant_root_iff {t : Tree} (ht : t.ConstExpr ctx Ty.IsBasic)
    (h : (t.check ctx).errors = []) (hon : t.OnConstants ctx) :
    (t.check ctx).node.constant?.isSome ↔ ¬t.MeetsNonFinite ctx := by
  rw [← lost_iff henv ht, ← Option.ne_none_iff_isSome]
  exact not_congr ⟨fun hnone => ⟨hon, hnone, h⟩, fun hlost => hlost.2.1⟩

theorem Tree.binary_isConstant_iff {op : Operator} {l r : Tree} {span : Span}
    (hl : l.ConstExpr ctx Ty.IsBasic) (hr : r.ConstExpr ctx Ty.IsBasic)
    (h : ((Tree.binary op l r span).check ctx).errors = []) :
    ((Tree.binary op l r span).check ctx).node.constant?.isSome ↔
      ¬(Tree.binary op l r span).MeetsNonFinite ctx ∧
        (l.check ctx).node.constant?.isSome ∧ (r.check ctx).node.constant?.isSome := by
  constructor
  · intro hconst
    obtain ⟨c, hc⟩ := Option.isSome_iff_exists.1 hconst
    obtain ⟨a, b, ha, hb, -⟩ := Context.binaryInfo_const hc
    have hon : (Tree.binary op l r span).OnConstants ctx :=
      ⟨Option.isSome_of_eq_some ha, Option.isSome_of_eq_some hb⟩
    exact ⟨(isConstant_root_iff henv (.binary op span hl hr) h hon).1 hconst, hon⟩
  · rintro ⟨hmeets, hon⟩
    exact (isConstant_root_iff henv (.binary op span hl hr) h hon).2 hmeets

theorem Tree.convert_isConstant_iff {name : Name} {ty : Ty} {arg : Tree} {place span : Span}
    (hres : ctx.resolve? name = some (.type ty)) (hty : ty.IsBasic)
    (harg : arg.ConstExpr ctx Ty.IsBasic)
    (h : ((Tree.call (.leaf (.ident name) place) [arg] span).check ctx).errors = []) :
    ((Tree.call (.leaf (.ident name) place) [arg] span).check ctx).node.constant?.isSome ↔
      ¬(Tree.call (.leaf (.ident name) place) [arg] span).MeetsNonFinite ctx ∧
        (arg.check ctx).node.constant?.isSome := by
  have hroot := isConstant_root_iff henv (.convert place span hres hty harg) h
  constructor
  · intro hconst
    obtain ⟨c, hc⟩ := Option.isSome_iff_exists.1 hconst
    rw [Node.constant?, (check_conversion arg place span hres).1] at hc
    obtain ⟨n, a, v, hn, ha, -, -⟩ := Context.callConversion_const hc
    cases hn
    exact ⟨(hroot ⟨⟨ty, hres⟩, Option.isSome_of_eq_some ha⟩).1 hconst, Option.isSome_of_eq_some ha⟩
  · rintro ⟨hmeets, hconst⟩
    exact (hroot ⟨⟨ty, hres⟩, hconst⟩).2 hmeets

/-- **An expression without errors is constant if and only if nothing in it is lost.** -/
theorem Tree.isConstant_iff {t : Tree} (ht : t.ConstExpr ctx Ty.IsBasic)
    (h : (t.check ctx).errors = []) :
    (t.check ctx).node.constant?.isSome ↔ ∀ s : Tree, s.SubOf t → ¬s.MeetsNonFinite ctx := by
  have leaf : ∀ {l span}, (Tree.leaf l span).ConstExpr ctx Ty.IsBasic →
      (((Tree.leaf l span).check ctx).node.constant?.isSome ↔
        ∀ s : Tree, s.SubOf (.leaf l span) → ¬s.MeetsNonFinite ctx) := by
    intro l span hl
    obtain ⟨c, hinfo, -⟩ := leaf_sound henv hl
    rw [forall_subOf_leaf]
    exact iff_of_true (by rw [Node.constant?, hinfo]; rfl) id
  -- what is lost in an operation is lost in an operand, or is the operation
  induction ht with
  | int text span => exact leaf (.int text span)
  | float text span => exact leaf (.float text span)
  | imag text span => exact leaf (.imag text span)
  | rune r span => exact leaf (.rune r span)
  | string text span => exact leaf (.string text span)
  | ident span hres => exact leaf (.ident span hres)
  | paren span _ ih =>
    rw [forall_subOf_paren]
    exact (ih h).trans (and_iff_right id).symm
  | binary op span hl hr ihl ihr =>
    have herrors := errors_of_binary h
    rw [binary_isConstant_iff henv hl hr h, forall_subOf_binary]
    exact and_congr_right' (and_congr (ihl herrors.1) (ihr herrors.2))
  | convert place span hres hty harg ih =>
    have herrors := h
    rw [(check_conversion _ place span hres).2, List.append_eq_nil_iff] at herrors
    rw [convert_isConstant_iff henv hres hty harg h, forall_subOf_call, forall_subOf_leaf]
    exact and_congr_right' ((ih herrors.1).trans (and_iff_right id).symm)

omit henv in
/-- The parts of a constant expression are constant expressions and the names of types. -/
theorem Tree.ConstExpr.sub {T : Ty → Prop} {s t : Tree} (hs : s.SubOf t) (ht : t.ConstExpr ctx T) :
    s.ConstExpr ctx T ∨ ∃ l span, s = .leaf l span := by
  induction hs with
  | self => exact .inl ht
  | paren _ ih => cases ht with | paren _ h => exact ih h
  | left _ ih => cases ht with | binary _ _ h _ => exact ih h
  | right _ ih => cases ht with | binary _ _ _ h => exact ih h
  | func h =>
    cases ht with
    | convert => cases h; exact .inr ⟨_, _, rfl⟩
  | arg hmem _ ih =>
    cases ht with
    | convert _ _ _ _ h =>
      cases List.mem_singleton.1 hmem
      exact ih h

/-- **No constant is lost but for a complex value that is not finite.** The expression is built of
literals, finite named constants of basic types, all operators, and conversions to the basic types,
complex ones included.

An operation in it on constants has neither a value nor an error if and only if it meets a complex
value with a part that is not finite; and an expression without errors is constant if and only if
no operation in it does. -/
theorem lost_iff_meetsNonFinite {a : Arena} {id : ExprId} {t : Tree}
    (htree : a.tree? id = some t) (ht : t.ConstExpr ctx Ty.IsBasic) :
    ∃ r, a.check? ctx id = some r ∧
      (∀ s : Tree, s.SubOf t → (s.LostSilently ctx ↔ s.MeetsNonFinite ctx)) ∧
      (r.errors = [] →
        (r.node.constant?.isSome ↔ ∀ s : Tree, s.SubOf t → ¬s.MeetsNonFinite ctx)) := by
  refine ⟨_, Arena.check?_of_tree? htree, fun s hs => ?_, fun h => Tree.isConstant_iff henv ht h⟩
  rcases Tree.ConstExpr.sub hs ht with h | ⟨l, span, rfl⟩
  · exact Tree.lost_iff henv h
  · exact ⟨fun h => h.1, False.elim⟩

end

/-! ## A sum beyond the range of a part

`1e39` is beyond the range of the parts of `complex64`, which the conversion does not report: it
makes an infinity of it. The sum meets the infinity and is lost. -/

/-- The names and numbers of `complex64(1e39) + 1`, and no bindings. -/
def Context.beyondRange : Context where
  names := { strings := #["", "complex64", "1e39", "1"], numbers := {} }
  env := .empty
  word := .bits64

/-- The expression `complex64(1e39) + 1`. -/
def Arena.beyondRange : Arena where
  exprs := #[⟨.leaf (.ident ⟨1⟩), ⟨0, 1⟩⟩, ⟨.leaf (.float ⟨2⟩), ⟨1, 2⟩⟩, ⟨.call ⟨0⟩ ⟨0, 1⟩, ⟨2, 3⟩⟩,
    ⟨.leaf (.int ⟨3⟩), ⟨3, 4⟩⟩, ⟨.binary .add ⟨2⟩ ⟨3⟩, ⟨4, 5⟩⟩]
  args := #[⟨1⟩]

/-- The same expression as a tree. -/
def Tree.beyondRange : Tree :=
  .binary .add (.call (.leaf (.ident ⟨1⟩) ⟨0, 1⟩) [.leaf (.float ⟨2⟩) ⟨1, 2⟩] ⟨2, 3⟩)
    (.leaf (.int ⟨3⟩) ⟨3, 4⟩) ⟨4, 5⟩

theorem Arena.tree?_beyondRange : beyondRange.tree? ⟨4⟩ = some .beyondRange := rfl

theorem Tree.constExpr_beyondRange : beyondRange.ConstExpr .beyondRange Ty.IsBasic := by
  have hres : Context.beyondRange.resolve? ⟨1⟩ = some (.type (.basic .complex64)) := rfl
  exact .binary _ _ (.convert _ _ hres rfl (.float _ _)) (.int _ _)

theorem Tree.lostSilently_beyondRange : beyondRange.LostSilently .beyondRange := by
  have hconst : beyondRange.OnConstants .beyondRange := ⟨by decide +kernel, by decide +kernel⟩
  have hnone : (beyondRange.check .beyondRange).node.constant?.isNone := by decide +kernel
  have herrors : (beyondRange.check .beyondRange).errors.isEmpty := by decide +kernel
  exact ⟨hconst, Option.isNone_iff_eq_none.1 hnone, List.isEmpty_iff.1 herrors⟩

/-- **A constant is lost silently.** Both operands are constant, the sum is not, and nothing is
reported. -/
theorem check_sum_beyondRange : ∃ t r, Arena.beyondRange.tree? ⟨4⟩ = some t ∧
    t.ConstExpr .beyondRange Ty.IsBasic ∧ (∀ name, Context.beyondRange.env.const? name = none) ∧
    Arena.beyondRange.check? .beyondRange ⟨4⟩ = some r ∧
    t.OnConstants .beyondRange ∧ r.errors = [] ∧ r.node.constant? = none := by
  obtain ⟨hconst, hnone, herrors⟩ := Tree.lostSilently_beyondRange
  exact ⟨_, _, Arena.tree?_beyondRange, Tree.constExpr_beyondRange, fun _ => rfl,
    Arena.check?_of_tree? Arena.tree?_beyondRange, hconst, herrors, hnone⟩

/-- What the sum meets is a value that is not finite. -/
theorem lost_iff_meetsNonFinite_beyondRange :
    Tree.beyondRange.MeetsNonFinite .beyondRange := by
  have henv : ∀ name v, Context.beyondRange.env.const? name = some (.typed v) → v.FiniteBasic := by
    intro name v h
    cases h
  obtain ⟨r, -, hiff, -⟩ :=
    lost_iff_meetsNonFinite henv Arena.tree?_beyondRange Tree.constExpr_beyondRange
  exact (hiff _ .self).1 Tree.lostSilently_beyondRange

end ConstCheck
