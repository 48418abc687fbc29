import ConstCheck.Proofs.Alike
import ConstCheck.Proofs.Fits

/-!
# Implicit and explicit conversion

An untyped operand beside a typed one takes its type. It may as well be converted to the type by
name: an operation with a bare operand and one with a converted operand are folded along different
paths, and come to the same value and the same errors.

* `foldMixed_alike_foldTyped`: a fold with a bare operand is that with the narrowed one, after the
  losses.
* `Const.fold_alike_converted`: the same in either order of the operands.
* `Tree.check_converted`: a converted operand is the narrowed constant, with the losses.
* `implicit_eq_explicit` (every type that has a name, every operator and both orders): **they
  agree**, their errors up to order.
* `implicit_order_differs`: two sums whose errors come in different orders.
-/

namespace ConstCheck

section

variable {op : Operator} {word : WordSize} {p q : OperationSpan}

theorem commonType?_self (ty : Ty) : commonType? ty ty = some ty :=
  if_pos (Ty.assignableTo_self ty)

/-- **A bare operand is narrowed first**: the losses come before all else, and the fold goes on with
the narrowed value. -/
theorem foldMixed_alike_foldTyped {v : TypedValue} {u : UntypedConst} (side : Side)
    (hconv : u.kind.convertsTo v.ty) :
    (foldMixed op v u side word p).Alike (.after q (u.narrow v.ty word).2
      (foldTyped op (side.pick v (u.narrow v.ty word).1) (side.pick (u.narrow v.ty word).1 v) word
        q)) := by
  have hcommon : commonType? (side.pick v (u.narrow v.ty word).1).ty
      (side.pick (u.narrow v.ty word).1 v).ty = some v.ty := by
    cases side <;> simp only [Side.pick, UntypedConst.narrow_ty, commonType?_self]
  by_cases hdef : op.definedOn v.ty
  · simp only [foldMixed, foldTyped, hconv, hdef, hcommon, Bool.not_true, Bool.false_eq_true,
      if_false, if_true]
    exact .after foldAt_alike
  · -- neither path goes on, and both say so by the same code
    simp only [foldMixed, foldTyped, hconv, hdef, hcommon, Bool.not_true, Bool.not_false,
      Bool.false_eq_true, if_false, if_true]
    refine ⟨rfl, ?_⟩
    simp only [Folded.failed, Folded.after, codes_at, List.map_append]
    rfl

/-- Two constants in either order, the untyped one bare or narrowed before. -/
theorem Const.fold_alike_converted {v : TypedValue} {u : UntypedConst} (op : Operator)
    (side : Side) (word : WordSize) (hconv : u.kind.convertsTo v.ty) (p q : OperationSpan) :
    ((side.pick (typed v) (untyped u)).fold op (side.pick (untyped u) (typed v)) word p).Alike
      (.after q (u.narrow v.ty word).2
        ((side.pick (typed v) (typed (u.narrow v.ty word).1)).fold op
          (side.pick (typed (u.narrow v.ty word).1) (typed v)) word q)) := by
  cases side with
  | left => exact foldMixed_alike_foldTyped .left hconv
  | right => exact foldMixed_alike_foldTyped .right hconv

end

section

variable {ctx : Context} {op : Operator} {c u : Tree} {name : Name} {v : TypedValue}
  {d : UntypedConst} {whole : Span}

/-- A tree that calls a name with one argument. -/
def Tree.conversion (name : Name) (arg : Tree) (place span : Span) : Tree :=
  .call (.leaf (.ident name) place) [arg] span

/-- The codes of the errors in an expression, in order. -/
def Tree.codes (ctx : Context) (t : Tree) : List ErrorCode :=
  (t.check ctx).errors.map CheckError.code

/-- A converted operand is the narrowed constant, with the losses after the errors of the
operand. -/
theorem Tree.check_converted (place span : Span) (hname : ctx.resolve? name = some (.type v.ty))
    (hu : (u.check ctx).node.constant? = some (.untyped d)) (hd : d.kind.convertsTo v.ty) :
    ((Tree.conversion name u place span).check ctx).node.constant? =
        some (.typed (d.narrow v.ty ctx.word).1) ∧
      (Tree.conversion name u place span).codes ctx =
        u.codes ctx ++ (d.narrow v.ty ctx.word).2.map ErrorKind.code := by
  obtain ⟨hinfo, herrors⟩ := check_conversion u place span hname
  have hvalue : (Const.untyped d).convert v.ty ctx.word =
      (some (d.narrow v.ty ctx.word).1, (d.narrow v.ty ctx.word).2) := by
    simp only [Const.convert, hd, if_true]
  rw [Context.callConversion_of_constant span hu, hvalue] at hinfo herrors
  refine ⟨?_, ?_⟩
  · rw [Tree.conversion, Node.constant?, hinfo]
    rfl
  · rw [codes, Tree.conversion, herrors, List.map_append, codes_at]
    rfl

/-- What an operation on two constants is, up to the places of its errors. -/
theorem Tree.check_binary_codes (op : Operator) (whole : Span) {l r : Tree} {a b : Const}
    {f : Folded} (hl : (l.check ctx).node.constant? = some a)
    (hr : (r.check ctx).node.constant? = some b)
    (hfold : (a.fold op b ctx.word ⟨whole, (r.check ctx).node.span⟩).Alike f) :
    ((Tree.binary op l r whole).check ctx).node.info = .ofConst? f.value ∧
      (Tree.binary op l r whole).codes ctx =
        l.codes ctx ++ r.codes ctx ++ f.errors.map CheckError.code := by
  obtain ⟨hinfo, herrors⟩ := check_binary_of_constants op whole hl hr
  refine ⟨by rw [hinfo, hfold.value], ?_⟩
  rw [codes, herrors, List.map_append, List.map_append, hfold.codes]
  rfl

/-- The constants of two operands, in either order. -/
theorem Side.constant?_pick (side : Side) {a b : Const}
    (hc : (c.check ctx).node.constant? = some a) (hu : (u.check ctx).node.constant? = some b) :
    ((side.pick c u).check ctx).node.constant? = some (side.pick a b) ∧
      ((side.pick u c).check ctx).node.constant? = some (side.pick b a) := by
  cases side with
  | left => exact ⟨hc, hu⟩
  | right => exact ⟨hu, hc⟩

/-- **Implicit and explicit conversion agree, but for the order of errors.** One operand is a typed
constant, the other an untyped one that converts to its type. The operation on them, and the one on
the first and the second converted by name, are checked, in either order of the operands. The same
is known of both, and both have errors of the same codes.

The codes come in the same order, unless the converted operand stands first and the typed one has
errors of its own. The losses are found before those then, and after them without the conversion by
name: a bare operand is narrowed when both are known. -/
theorem implicit_eq_explicit {a b : Arena} {id id' : ExprId} (side : Side)
    {place inner whole' : Span}
    (hname : ctx.resolve? name = some (.type v.ty))
    (hbare : a.tree? id = some (.binary op (side.pick c u) (side.pick u c) whole))
    (hconverted : b.tree? id' = some (.binary op (side.pick c (.conversion name u place inner))
      (side.pick (.conversion name u place inner) c) whole'))
    (hc : (c.check ctx).node.constant? = some (.typed v))
    (hu : (u.check ctx).node.constant? = some (.untyped d)) (hd : d.kind.convertsTo v.ty) :
    ∃ r s, a.check? ctx id = some r ∧ b.check? ctx id' = some s ∧
      r.node.info = s.node.info ∧
      (r.errors.map CheckError.code).Perm (s.errors.map CheckError.code) ∧
      (side = .left ∨ (c.check ctx).errors = [] →
        r.errors.map CheckError.code = s.errors.map CheckError.code) := by
  obtain ⟨hw, hucodes⟩ := Tree.check_converted place inner hname hu hd
  obtain ⟨hl, hr⟩ := side.constant?_pick hc hu
  obtain ⟨hl', hr'⟩ := side.constant?_pick hc hw
  obtain ⟨hinfo', hcodes'⟩ := Tree.check_binary_codes op whole' hl' hr' (.refl _)
  -- the fold of the bare operand, as the losses and then the fold of the converted one
  have hfold := Const.fold_alike_converted op side ctx.word hd
    ⟨whole, ((side.pick u c).check ctx).node.span⟩
    ⟨whole', ((side.pick (.conversion name u place inner) c).check ctx).node.span⟩
  obtain ⟨hinfo, hcodes⟩ := Tree.check_binary_codes op whole hl hr hfold
  rw [Folded.codes_after] at hcodes
  refine ⟨_, _, Arena.check?_of_tree? hbare, Arena.check?_of_tree? hconverted,
    hinfo.trans hinfo'.symm, ?_⟩
  -- both have the errors of the operands, the losses and the errors of the fold
  cases side with
  | left =>
    simp only [Side.pick, hucodes, List.append_assoc] at hcodes hcodes'
    have hsame := hcodes.trans hcodes'.symm
    exact ⟨.of_eq hsame, fun _ => hsame⟩
  | right =>
    -- the losses stand before the errors of the typed operand on one side, after them on the other
    simp only [Side.pick, hucodes, List.append_assoc] at hcodes hcodes'
    have hperm : ((Tree.binary op u c whole).codes ctx).Perm
        ((Tree.binary op (.conversion name u place inner) c whole').codes ctx) := by
      rw [hcodes, hcodes']
      exact (List.perm_append_comm_assoc _ _ _).append_left _
    refine ⟨hperm, fun h => hcodes.trans (.trans ?_ hcodes'.symm)⟩
    have hnone : c.codes ctx = [] := by
      rw [Tree.codes, h.resolve_left nofun, List.map_nil]
    rw [hnone, List.nil_append, List.nil_append]

end

/-! ## A sum that wraps

`big + one`, where `big` is the untyped 300 and `one` is an `int8`, and `int8(big) + one`. -/

/-- The names of the sums, and the two constants. -/
def Context.wrapping : Context where
  names := { strings := #["", "one", "big", "int8"], numbers := {} }
  env := { consts := [(⟨1⟩, .typed ⟨.basic .int8, .int 1⟩), (⟨2⟩, .number (.ofInt 300))] }
  word := .bits64

/-- The expression `big + one`. -/
def Arena.bareSum : Arena where
  exprs := #[⟨.leaf (.ident ⟨2⟩), ⟨5, 8⟩⟩, ⟨.leaf (.ident ⟨1⟩), ⟨12, 15⟩⟩,
    ⟨.binary .add ⟨0⟩ ⟨1⟩, ⟨5, 15⟩⟩]

/-- The expression `int8(big) + one`. -/
def Arena.convertedSum : Arena where
  exprs := #[⟨.leaf (.ident ⟨3⟩), ⟨0, 4⟩⟩, ⟨.leaf (.ident ⟨2⟩), ⟨5, 8⟩⟩, ⟨.call ⟨0⟩ ⟨0, 1⟩, ⟨0, 9⟩⟩,
    ⟨.leaf (.ident ⟨1⟩), ⟨12, 15⟩⟩, ⟨.binary .add ⟨2⟩ ⟨3⟩, ⟨0, 15⟩⟩]
  args := #[⟨1⟩]

/-- Both sums wrap to 45, with the one error that 300 does not fit. -/
theorem implicit_eq_explicit_wrapping : ∃ r s,
    Arena.bareSum.check? .wrapping ⟨2⟩ = some r ∧ Arena.convertedSum.check? .wrapping ⟨4⟩ = some s ∧
    r.node.constant?.bind Const.int? = some 45 ∧ r.node.info = s.node.info ∧
    r.errors.map CheckError.code = [.overflowed] ∧
    r.errors.map CheckError.code = s.errors.map CheckError.code := by
  let one : Tree := .leaf (.ident ⟨1⟩) ⟨12, 15⟩
  let big : Tree := .leaf (.ident ⟨2⟩) ⟨5, 8⟩
  let bare : Tree := .binary .add big one ⟨5, 15⟩
  have hbare : Arena.bareSum.tree? ⟨2⟩ = some bare := rfl
  have hconverted : Arena.convertedSum.tree? ⟨4⟩ =
    some (.binary .add (.conversion ⟨3⟩ big ⟨0, 4⟩ ⟨0, 9⟩) one ⟨0, 15⟩) := rfl
  have hone : (one.check .wrapping).node.constant? = some (.typed ⟨.basic .int8, .int 1⟩) := rfl
  obtain ⟨r, s, hr, hs, hinfo, -, hcodes⟩ :=
    implicit_eq_explicit .right rfl hbare hconverted hone rfl rfl
  have heq : r = bare.check .wrapping := by
    rw [Arena.check?_of_tree? hbare] at hr
    exact (Option.some.inj hr).symm
  refine ⟨r, s, hr, hs, ?_, hinfo, ?_, hcodes (.inr rfl)⟩
  · rw [heq]; decide +kernel
  · rw [heq]; decide +kernel

/-! ## Two losses in one sum

`1.5 + int8(300)` and `int8(1.5) + int8(300)`. The typed operand has lost its range, the untyped
one loses its fraction. -/

/-- The spellings of the sums. -/
def Context.lossy : Context where
  names := { strings := #["", "1.5", "int8", "300"], numbers := {} }
  env := {}
  word := .bits64

/-- The literal `1.5`. -/
def Tree.fraction : Tree := .leaf (.float ⟨1⟩) ⟨0, 3⟩

/-- The conversion `int8(300)`. -/
def Tree.wrapped : Tree := .conversion ⟨2⟩ (.leaf (.int ⟨3⟩) ⟨11, 14⟩) ⟨6, 10⟩ ⟨6, 15⟩

/-- The expressions `1.5 + int8(300)`, number 6, and `int8(1.5) + int8(300)`, number 7. -/
def Arena.lossySums : Arena where
  exprs := #[⟨.leaf (.float ⟨1⟩), ⟨0, 3⟩⟩, ⟨.leaf (.ident ⟨2⟩), ⟨6, 10⟩⟩,
    ⟨.leaf (.int ⟨3⟩), ⟨11, 14⟩⟩, ⟨.call ⟨1⟩ ⟨0, 1⟩, ⟨6, 15⟩⟩, ⟨.leaf (.ident ⟨2⟩), ⟨0, 3⟩⟩,
    ⟨.call ⟨4⟩ ⟨1, 1⟩, ⟨0, 3⟩⟩, ⟨.binary .add ⟨0⟩ ⟨3⟩, ⟨0, 15⟩⟩, ⟨.binary .add ⟨5⟩ ⟨3⟩, ⟨0, 15⟩⟩]
  args := #[⟨2⟩, ⟨0⟩]

/-- **The order of the errors may differ.** The typed operand is 44, a value of its type, and 1.5
converts to the type; the overflow of 300 comes first in one sum and last in the other. -/
theorem implicit_order_differs :
    Context.lossy.resolve? ⟨2⟩ = some (.type (.basic .int8)) ∧
    Arena.lossySums.tree? ⟨6⟩ = some (.binary .add .fraction .wrapped ⟨0, 15⟩) ∧
    Arena.lossySums.tree? ⟨7⟩ = some
      (.binary .add (.conversion ⟨2⟩ .fraction ⟨0, 3⟩ ⟨0, 3⟩) .wrapped ⟨0, 15⟩) ∧
    (Tree.wrapped.check .lossy).node.constant? = some (.typed ⟨.basic .int8, .int 44⟩) ∧
    TypedValue.Fits .bits64 ⟨.basic .int8, .int 44⟩ ∧
    (Tree.fraction.check .lossy).node.constant? = some (.number (.ofRat (3 / 2))) ∧
    (UntypedConst.number (.ofRat (3 / 2))).kind.convertsTo (.basic .int8) ∧
    ∃ r s, Arena.lossySums.check? .lossy ⟨6⟩ = some r ∧
      Arena.lossySums.check? .lossy ⟨7⟩ = some s ∧
      r.errors.map CheckError.code = [.overflowed, .truncated] ∧
      s.errors.map CheckError.code = [.truncated, .overflowed] := by
  -- the one step that reads a literal; all others compute
  have hliteral : Literal.float? (Context.lossy.names.lookup ⟨1⟩).toList =
      some (.ofRat (3 / 2)) := by decide +kernel
  refine ⟨rfl, rfl, rfl, rfl, ⟨44, rfl, by decide, by decide⟩, ?_, rfl, _, _, rfl, rfl, ?_, ?_⟩
  · simp only [Tree.fraction, Tree.check, Context.checkLeaf, Context.checkNumber, hliteral]
    rfl
  · decide +kernel
  · decide +kernel

end ConstCheck
