import ConstCheck.Proofs.Exact
import ConstCheck.Proofs.Implicit
import ConstCheck.Proofs.Mirrored
import ConstCheck.Proofs.Nameless
import ConstCheck.Proofs.Reports

/-!
# Swapped operands

Where an operator has a mirror image, an operation may be read from the right. Nothing of what the
checker says of it depends on the order of the operands, but the name of the type where one operand
has a type of its own name and the other has none: there the right operand decides.

* `foldUntyped_swap`, `foldMixed_swap`, `foldTyped_swap`: the three shapes of folds, swapped.
* `commonType?_of_definedOn`: what two types combine at, in either order.
* `Const.OneNamed`: the operands on which the order decides.
* `Const.fold_swap`: any two constants.
* `swapped_operands` (every arena, all constants): **an operation and its mirror image come to the
  same**.
-/

namespace ConstCheck

/-! ## Folds -/

section

variable {op op' : Operator} {word : WordSize} {p q : OperationSpan}

/-- The value of an operation at a type is of the result type. -/
theorem foldAt_knownType {a b : TypedValue} {ty : Ty} {c : Const}
    (h : (foldAt op a b ty word p).value = some c) : c.knownType = .typed (op.resultType ty) := by
  rcases foldAt_cases op a b ty word p with ⟨d, -, he⟩ | ⟨e, -, -, hzero⟩ | ⟨-, he⟩
  · rw [he, Folded.value_narrowed, Option.some.injEq] at h
    rw [← h, Const.knownType, UntypedConst.narrow_ty]
  · rw [hzero c h]
    rfl
  · rw [he] at h
    cases h

/-- Two values at a type yield the same when they are swapped; strings are not added. -/
theorem TypedValue.operate_swap (h : op.mirror? = some op') {s t : Ty}
    (hty : s.underlying = t.underlying) (hadd : op = .add → s.isNumeric) (a b : TypedValue) :
    operate op' b a t = operate op a b s := by
  have hn := Ty.isNumeric_of_underlying hty
  unfold operate
  rw [← hn]
  by_cases hs : s.isNumeric
  · simp only [hs, if_true]
    cases a.number? with
    | none => cases b.number? <;> rfl
    | some x =>
      cases b.number? with
      | none => rfl
      | some y => simp [Operator.onNumbers_swap h]
  · have hne : op ≠ .add := fun heq => hs (hadd heq)
    simp only [hs, Bool.false_eq_true, if_false]
    cases ha : a.value <;> cases hb : b.value <;>
      simp only [Operator.onStrings_swap h hne, Operator.onBools_swap h]

/-- **An operation on two values, swapped**, at types that are alike below their names. -/
theorem foldAt_swap (h : op.mirror? = some op') {s t : Ty} (hty : s.underlying = t.underlying)
    (hadd : op = .add → s.isNumeric) (a b : TypedValue) :
    (foldAt op a b s word p).AlikeBelow (foldAt op' b a t word q) := by
  have hresult : (op.resultType s).underlying = (op'.resultType t).underlying := by
    rw [Operator.resultType_mirror h, op.resultType_underlying hty]
  exact foldAt_below hty hresult (TypedValue.operate_swap h hty hadd a b).symm

/-- At one type nothing depends on the order. -/
theorem foldAt_swap_self (h : op.mirror? = some op') {ty : Ty} (hadd : op = .add → ty.isNumeric)
    (a b : TypedValue) : (foldAt op a b ty word p).Alike (foldAt op' b a ty word q) := by
  have hbelow : (foldAt op a b ty word p).AlikeBelow (foldAt op' b a ty word q) :=
    foldAt_swap h rfl hadd a b
  refine hbelow.alike (fun c hc => foldAt_knownType hc) fun c hc => ?_
  rw [foldAt_knownType hc, Operator.resultType_mirror h]

/-- A typed constant is of a string type, or an untyped one a string. -/
def Const.IsString : Const → Prop
  | untyped c => c.kind = .string
  | typed v => v.ty.category = .string

/-- Where an addition is defined and not of strings, it is of numbers. -/
theorem Operator.isNumeric_of_add {ty : Ty} (hdef : op.definedOn ty) (hop : op = .add)
    (hstring : ty.category ≠ .string) : ty.isNumeric := by
  subst hop
  simpa [definedOn, hstring] using hdef

/-- Only a string converts to a string type. -/
theorem Kind.eq_string_of_convertsTo {k : Kind} {ty : Ty} (h : k.convertsTo ty)
    (hty : ty.category = .string) : k = .string := by
  cases k with
  | string => rfl
  | number => simp [convertsTo, Ty.isNumeric, Category.isNumeric, hty] at h
  | bool | nil => simp [convertsTo, Ty.isNilable, hty] at h

/-- **A typed and an untyped constant, swapped.** -/
theorem foldMixed_swap (h : op.mirror? = some op') (side : Side) {v : TypedValue} {u : UntypedConst}
    (hadd : op = .add → ¬((Const.typed v).IsString ∧ (Const.untyped u).IsString)) :
    (foldMixed op v u side word p).Alike
      (foldMixed op' v u (side.pick .right .left) word q) := by
  by_cases hconv : u.kind.convertsTo v.ty
  · by_cases hdef : op.definedOn v.ty
    · have hdef' : op'.definedOn v.ty := by rw [Operator.definedOn_mirror h]; exact hdef
      have hnumeric : op = .add → v.ty.isNumeric := by
        intro hop
        refine Operator.isNumeric_of_add hdef hop fun hstring => hadd hop ⟨hstring, ?_⟩
        exact Kind.eq_string_of_convertsTo hconv hstring
      simp only [foldMixed, hconv, hdef, hdef', Bool.not_true, Bool.false_eq_true, if_false]
      cases side with
      | left => exact .after (foldAt_swap_self h hnumeric _ _)
      | right => exact .after (foldAt_swap_self h hnumeric _ _)
    · have hdef' : ¬op'.definedOn v.ty := by rw [Operator.definedOn_mirror h]; exact hdef
      simp only [foldMixed, hconv, hdef, hdef', Bool.not_true, Bool.not_false, Bool.false_eq_true,
        if_false, if_true]
      refine .failed ?_
      simp only [List.map_append]
      rfl
  · simp only [foldMixed, hconv, Bool.not_false, if_true]
    exact .failed rfl

/-- Types that have no common type have none in the other order. -/
theorem commonType?_eq_none_comm {s t : Ty} : commonType? s t = none ↔ commonType? t s = none := by
  unfold commonType?
  by_cases hst : s.assignableTo t <;> by_cases hts : t.assignableTo s <;> simp [hst, hts]

/-- A type without a name of its own is the type below its names. -/
theorem Ty.underlying_of_not_isNamed {t : Ty} (h : t.isNamed = false) : t.underlying = t := by
  cases t with
  | declared => cases h
  | _ => rfl

/-- **An operator that is defined combines its operands at the right one's type**, which is alike to
the left one's below the names; and in the other order at that one's. The two are equal, unless one
of them has a name and the other has none. -/
theorem commonType?_of_definedOn {s t ty : Ty} (h : commonType? s t = some ty)
    (hdef : op.definedOn ty) :
    ty = t ∧ commonType? t s = some s ∧ s.underlying = t.underlying ∧
      (s.isNamed = t.isNamed → s = t) := by
  have hbasic := Operator.isBasic_of_definedOn hdef
  obtain ⟨hcs, hct⟩ := category_of_commonType? h hbasic
  have hs : s.category.isBasic := by rw [hcs]; exact hbasic
  have ht : t.category.isBasic := by rw [hct]; exact hbasic
  obtain ⟨rfl, hunder, hknown⟩ := commonType?_of_isBasic hs ht h
  refine ⟨rfl, ?_, hunder, fun hnamed => ?_⟩
  · cases hts : commonType? ty s with
    | none => rw [commonType?_eq_none_comm.1 hts] at h; cases h
    | some ty' => rw [(commonType?_of_isBasic ht hs hts).1]
  · rw [KnownType.common?, Option.ite_none_right_eq_some] at hknown
    obtain ⟨⟨-, heq | hnot⟩, -⟩ := hknown
    · exact heq
    · have hs' : s.isNamed = false := by
        cases hs' : s.isNamed with
        | false => rfl
        | true => exact absurd ⟨hs', hnamed ▸ hs'⟩ hnot
      rw [Ty.underlying_of_not_isNamed hs', Ty.underlying_of_not_isNamed (hnamed ▸ hs')] at hunder
      exact hunder

/-- The value of an operation on typed constants is of the right operand's type, or a bool. -/
theorem foldTyped_knownType {a b : TypedValue} {c : Const}
    (h : (foldTyped op a b word p).value = some c) :
    c.knownType = .typed (op.resultType b.ty) := by
  rcases foldTyped_cases op a b word p with ⟨ty, hcommon, hdef, he⟩ | ⟨-, he, -⟩
  · obtain ⟨rfl, -⟩ := commonType?_of_definedOn hcommon hdef
    rw [he] at h
    exact foldAt_knownType h
  · rw [he] at h
    cases h

/-- An operation that its types do not have fails by one code. -/
theorem foldTyped_undefined (word : WordSize) (p : OperationSpan) {a b : TypedValue}
    (h : ∀ ty, commonType? a.ty b.ty = some ty → ¬op.definedOn ty) :
    (foldTyped op a b word p).value = none ∧
      (foldTyped op a b word p).errors.map CheckError.code = [.undefinedOperation] := by
  unfold foldTyped
  cases hcommon : commonType? a.ty b.ty with
  | none => exact ⟨rfl, rfl⟩
  | some ty =>
    have hdef := h ty hcommon
    simp only [hdef, Bool.false_eq_true, if_false]
    exact ⟨rfl, rfl⟩

/-- **Two typed constants, swapped.** -/
theorem foldTyped_swap (h : op.mirror? = some op') {a b : TypedValue}
    (hadd : op = .add → ¬((Const.typed a).IsString ∧ (Const.typed b).IsString)) :
    (foldTyped op a b word p).AlikeBelow (foldTyped op' b a word q) := by
  by_cases hrun : ∃ ty, commonType? a.ty b.ty = some ty ∧ op.definedOn ty
  · obtain ⟨ty, hcommon, hdef⟩ := hrun
    obtain ⟨rfl, hswapped, hunder, -⟩ := commonType?_of_definedOn hcommon hdef
    have hcat := Ty.category_of_underlying_eq hunder
    have hdef' : op'.definedOn a.ty := by
      rw [Operator.definedOn_mirror h, op.definedOn_of_category hcat]
      exact hdef
    have hnumeric : op = .add → b.ty.isNumeric := by
      intro hop
      exact Operator.isNumeric_of_add hdef hop fun hstring => hadd hop ⟨hcat.trans hstring, hstring⟩
    simp only [foldTyped, hcommon, hswapped, hdef, hdef', if_true]
    exact foldAt_swap h hunder.symm hnumeric a b
  · -- if it were defined on the swapped operands, it would be on these
    have hnone : ∀ ty, commonType? a.ty b.ty = some ty → ¬op.definedOn ty :=
      fun ty hty hdef => hrun ⟨ty, hty, hdef⟩
    have hnone' : ∀ ty, commonType? b.ty a.ty = some ty → ¬op'.definedOn ty := by
      intro ty hty hdef
      obtain ⟨rfl, hcommon, hunder, -⟩ := commonType?_of_definedOn hty hdef
      have hcat := Ty.category_of_underlying_eq hunder
      refine hnone _ hcommon ?_
      rw [← Operator.definedOn_mirror h, op'.definedOn_of_category hcat]
      exact hdef
    obtain ⟨hvalue, hcodes⟩ := foldTyped_undefined word p hnone
    obtain ⟨hvalue', hcodes'⟩ := foldTyped_undefined word q hnone'
    exact ⟨by rw [hvalue, hvalue'], hcodes.trans hcodes'.symm⟩

/-- Two kinds promote in either order, or miss by as many misfits. -/
theorem Kind.promote_swap (j k : Kind) :
    (∃ l, j.promote k = .ok l ∧ k.promote j = .ok l) ∨
      ∃ ms ns, j.promote k = .error ms ∧ k.promote j = .error ns ∧ ms.length = ns.length := by
  cases j with
  | number a =>
    cases k with
    | number b => exact .inl ⟨_, rfl, by rw [promote, NumKind.join_comm]⟩
    | string | bool | nil => exact .inr ⟨_, _, rfl, rfl, rfl⟩
  | string =>
    cases k with
    | string => exact .inl ⟨_, rfl, rfl⟩
    | number | bool | nil => exact .inr ⟨_, _, rfl, rfl, rfl⟩
  | bool =>
    cases k with
    | bool => exact .inl ⟨_, rfl, rfl⟩
    | number | string | nil => exact .inr ⟨_, _, rfl, rfl, rfl⟩
  | nil =>
    cases k with
    | nil => exact .inl ⟨_, rfl, rfl⟩
    | number | string | bool => exact .inr ⟨_, _, rfl, rfl, rfl⟩

theorem UntypedConst.operate_swap (h : op.mirror? = some op') (kind : Kind) {a b : UntypedConst}
    (hadd : op = .add → ¬(a.kind = .string ∧ b.kind = .string)) :
    b.operate op' kind a = a.operate op kind b := by
  cases a with
  | number x =>
    cases b with
    | number y => exact congrArg (Except.map _) (Operator.onNumbers_swap h x y)
    | string _ | bool _ | nil => rfl
  | string x =>
    cases b with
    | string y => exact Operator.onStrings_swap h (fun hop => hadd hop ⟨rfl, rfl⟩) x y
    | number _ | bool _ | nil => rfl
  | bool x =>
    cases b with
    | bool y => exact Operator.onBools_swap h x y
    | number _ | string _ | nil => rfl
  | nil => cases b <;> rfl

/-- **Two untyped constants, swapped.** -/
theorem foldUntyped_swap (h : op.mirror? = some op') {a b : UntypedConst}
    (hadd : op = .add → ¬(a.kind = .string ∧ b.kind = .string)) :
    (foldUntyped op a b p).Alike (foldUntyped op' b a q) := by
  unfold foldUntyped
  rcases a.kind.promote_swap b.kind with ⟨k, hk, hk'⟩ | ⟨ms, ns, hms, hns, hlength⟩
  · simp only [hk, hk', UntypedConst.operate_swap h k hadd]
    cases a.operate op k b with
    | ok c => exact .refl _
    | error e =>
      cases e with
      | divideByZero => exact ⟨rfl, rfl⟩
      | undefined | fault => exact .failed rfl
  · -- each misfit is one bad conversion
    have misfits : ∀ (ms : List Misfit) (x y : UntypedConst),
        (ms.map fun m => ErrorKind.badConversion (m.side.pick x y) (.kind m.wanted)).map
          ErrorKind.code = .replicate ms.length .badConversion := by
      intro ms x y
      rw [List.map_map]
      exact List.map_const'
    rw [hms, hns]
    refine .failed ?_
    rw [List.map_append, List.map_append, misfits, misfits, hlength]
    rfl

/-- Two typed constants of which one has a type of its own name, and the other has not. -/
def Const.OneNamed (a b : Const) : Prop :=
  ∃ v w, a = .typed v ∧ b = .typed w ∧ v.ty.isNamed ≠ w.ty.isNamed

/-- Two typed constants are alike when swapped, if both types have names of their own or neither
has. -/
theorem foldTyped_swap_of_named (h : op.mirror? = some op') {a b : TypedValue}
    (hadd : op = .add → ¬((Const.typed a).IsString ∧ (Const.typed b).IsString))
    (hnamed : a.ty.isNamed = b.ty.isNamed) :
    (foldTyped op a b word p).Alike (foldTyped op' b a word q) := by
  have hbelow : (foldTyped op a b word p).AlikeBelow (foldTyped op' b a word q) :=
    foldTyped_swap h hadd
  refine hbelow.alike (fun c hc => foldTyped_knownType hc) fun c hc => ?_
  rcases foldTyped_cases op' b a word q with ⟨ty, hcommon, hdef, -⟩ | ⟨-, hnone, -⟩
  · obtain ⟨-, -, -, hsame⟩ := commonType?_of_definedOn hcommon hdef
    rw [foldTyped_knownType hc, Operator.resultType_mirror h, hsame hnamed.symm]
  · rw [hnone] at hc
    cases hc

/-- **Two constants, swapped.** -/
theorem Const.fold_swap (word : WordSize) (p q : OperationSpan) (h : op.mirror? = some op')
    {a b : Const} (hadd : op = .add → ¬(a.IsString ∧ b.IsString)) :
    (a.fold op b word p).AlikeBelow (b.fold op' a word q) ∧
      (¬a.OneNamed b → (a.fold op b word p).Alike (b.fold op' a word q)) := by
  have alike : (a.fold op b word p).Alike (b.fold op' a word q) →
      (a.fold op b word p).AlikeBelow (b.fold op' a word q) ∧
        (¬a.OneNamed b → (a.fold op b word p).Alike (b.fold op' a word q)) :=
    fun halike => ⟨halike.below, fun _ => halike⟩
  cases a with
  | untyped a =>
    cases b with
    | untyped b => exact alike (foldUntyped_swap h hadd)
    | typed b => exact alike (foldMixed_swap h .right fun hop hs => hadd hop hs.symm)
  | typed a =>
    cases b with
    | untyped b => exact alike (foldMixed_swap h .left hadd)
    | typed b =>
      refine ⟨foldTyped_swap h hadd, fun hone => foldTyped_swap_of_named h hadd ?_⟩
      by_contra hne
      exact hone ⟨a, b, rfl, rfl, hne⟩

end

/-! ## Whole expressions -/

theorem Info.isConst_ofConst? (c : Option Const) : (ofConst? c).isConst = c.isSome := by
  cases c <;> rfl

/-- **Swapped operands come to the same.** Two operations on constants are checked: one by an
operator, the other by its mirror image on the operands in the other order. If the operator adds,
not both operands are strings.

Both are constant or neither is. Their values are the same but for the name of a type, and they have
errors of the same codes. All that is known of them is the same, unless both operands are typed and
one of the types has a name of its own and the other has none; then the types of the results are
those of the right operands, or bools. -/
theorem swapped_operands {ctx : Context} {op op' : Operator} {A B : Arena} {id id' : ExprId}
    {l r : Tree} {a b : Const} {whole whole' : Span} (hmirror : op.mirror? = some op')
    (hadd : op = .add → ¬(a.IsString ∧ b.IsString))
    (htree : A.tree? id = some (.binary op l r whole))
    (hswapped : B.tree? id' = some (.binary op' r l whole'))
    (hl : (l.check ctx).node.constant? = some a) (hr : (r.check ctx).node.constant? = some b) :
    ∃ x y, A.check? ctx id = some x ∧ B.check? ctx id' = some y ∧
      x.node.info.isConst = y.node.info.isConst ∧
      x.node.constant?.map Const.nameless = y.node.constant?.map Const.nameless ∧
      (x.errors.map CheckError.code).Perm (y.errors.map CheckError.code) ∧
      (¬a.OneNamed b → x.node.info = y.node.info) ∧
      ∀ v w, a = .typed v → b = .typed w → x.node.info.isConst →
        x.node.info.known = [.typed (op.resultType w.ty)] ∧
        y.node.info.known = [.typed (op'.resultType v.ty)] := by
  obtain ⟨hinfo, hcodes⟩ := Tree.check_binary_codes op whole hl hr (.refl _)
  obtain ⟨hinfo', hcodes'⟩ := Tree.check_binary_codes op' whole' hr hl (.refl _)
  obtain ⟨hbelow, halike⟩ := Const.fold_swap ctx.word ⟨whole, (r.check ctx).node.span⟩
    ⟨whole', (l.check ctx).node.span⟩ hmirror hadd
  have hsome : (a.fold op b ctx.word ⟨whole, (r.check ctx).node.span⟩).value.isSome =
      (b.fold op' a ctx.word ⟨whole', (l.check ctx).node.span⟩).value.isSome := by
    have hvalue := congrArg Option.isSome hbelow.value
    rwa [Option.isSome_map, Option.isSome_map] at hvalue
  refine ⟨_, _, Arena.check?_of_tree? htree, Arena.check?_of_tree? hswapped, ?_, ?_, ?_, ?_, ?_⟩
  · rw [hinfo, hinfo', Info.isConst_ofConst?, Info.isConst_ofConst?, hsome]
  · rw [Node.constant?, Node.constant?, hinfo, hinfo', Info.constant?_ofConst?,
      Info.constant?_ofConst?]
    exact hbelow.value
  · show ((Tree.binary op l r whole).codes ctx).Perm ((Tree.binary op' r l whole').codes ctx)
    rw [hcodes, hcodes', hbelow.codes]
    exact List.perm_append_comm.append_right _
  · intro hnamed
    rw [hinfo, hinfo', (halike hnamed).value]
  · rintro v w rfl rfl hconst
    rw [hinfo, Info.isConst_ofConst?] at hconst
    obtain ⟨c, hc⟩ := Option.isSome_iff_exists.1 hconst
    obtain ⟨d, hd⟩ := Option.isSome_iff_exists.1 (hsome ▸ hconst)
    rw [hinfo, hinfo', hc, hd]
    exact ⟨congrArg ([·]) (foldTyped_knownType hc), congrArg ([·]) (foldTyped_knownType hd)⟩

/-! ## A product that wraps

`hundred * three`, where `hundred` is of a named type over `int8` and `three` is an `int8`, and
`three * hundred`. -/

/-- The two factors. -/
def Context.factors : Context :=
  .ofConsts .bits64 [("hundred", ⟨.named "Small" (.basic .int8), .int 100⟩),
    ("three", ⟨.basic .int8, .int 3⟩)]

/-- The product of the second factor and the first. -/
def Arena.swappedProduct : Arena where
  exprs := #[⟨.leaf (.ident ⟨2⟩), ⟨4, 5⟩⟩, ⟨.leaf (.ident ⟨1⟩), ⟨0, 1⟩⟩,
    ⟨.binary .mul ⟨0⟩ ⟨1⟩, ⟨0, 5⟩⟩]

/-- Both products wrap to 44, each under the type of its right factor. -/
theorem swapped_operands_wrapping : ∃ x y,
    (Arena.operation .mul).check? .factors ⟨2⟩ = some x ∧
    Arena.swappedProduct.check? .factors ⟨2⟩ = some y ∧
    x.node.constant?.bind Const.int? = some 44 ∧
    x.node.constant?.map Const.nameless = y.node.constant?.map Const.nameless ∧
    x.errors.map CheckError.code = [.overflowed] ∧ y.errors.map CheckError.code = [.overflowed] ∧
    x.node.info.known = [.typed (.basic .int8)] ∧
    y.node.info.known = [.typed (.named "Small" (.basic .int8))] := by
  let hundred : Tree := .leaf (.ident ⟨1⟩) ⟨0, 1⟩
  let three : Tree := .leaf (.ident ⟨2⟩) ⟨4, 5⟩
  have hswapped : Arena.swappedProduct.tree? ⟨2⟩ = some (.binary .mul three hundred ⟨0, 5⟩) := rfl
  have hhundred : (hundred.check .factors).node.constant? =
    some (.typed ⟨.named "Small" (.basic .int8), .int 100⟩) := rfl
  have hthree : (three.check .factors).node.constant? =
    some (.typed ⟨.basic .int8, .int 3⟩) := rfl
  obtain ⟨x, y, hx, hy, -, hvalue, hperm, -, htypes⟩ :=
    swapped_operands rfl (by intro h; cases h) (Arena.tree?_operation .mul) hswapped hhundred hthree
  have heq : x = (Tree.operation .mul).check .factors := by
    rw [Arena.check?_of_tree? (Arena.tree?_operation .mul)] at hx
    exact (Option.some.inj hx).symm
  have hconst : x.node.info.isConst := by rw [heq]; decide +kernel
  have hcodes : x.errors.map CheckError.code = [.overflowed] := by rw [heq]; decide +kernel
  have hcodes' : y.errors.map CheckError.code = [.overflowed] := by
    rw [hcodes] at hperm
    exact (List.singleton_perm.1 hperm).symm
  obtain ⟨hknown, hknown'⟩ := htypes _ _ rfl rfl hconst
  exact ⟨x, y, hx, hy, by rw [heq]; decide +kernel, hvalue, hcodes, hcodes', hknown, hknown'⟩

end ConstCheck
