import ConstCheck.Proofs.Reach
import ConstCheck.Proofs.Reports

/-!
# Errors in source order

An expression has the errors of its children, each child's together and the children in source
order, and then its own. The rule of its form finds the own errors from what the children are found
to be, and places them at the expression or at a child.

* `CheckError.site`: the code of an error and its place.
* `Context.ownErrors`: what an expression adds to the errors of its children.
* `Const.fold_placed`: the errors of a fold are at the operation or at its divisor.
* `Context.ownErrors_span` (every form): **own errors are at the expression or at a child**.
* `errors_in_source_order` (every arena and every expression with a check): **no error is lost,
  reported twice or out of order**.
-/

namespace ConstCheck

/-! ## The places of own errors -/

/-- The code of an error, and its place. -/
def CheckError.site (e : CheckError) : ErrorCode × Span := (e.code, e.span)

section

variable {place : OperationSpan}

/-- The errors of a fold are at the operation or at its divisor. -/
def Folded.Placed (place : OperationSpan) (f : Folded) : Prop :=
  ∀ e ∈ f.errors, e.span = place.whole ∨ e.span = place.divisor

theorem span_of_mem_at {span : Span} {kinds : List ErrorKind} {e : CheckError}
    (h : e ∈ kinds.map fun k => CheckError.mk span k) : e.span = span := by
  obtain ⟨k, -, rfl⟩ := List.mem_map.1 h
  rfl

namespace Folded.Placed

theorem failed (kinds : List ErrorKind) : (Folded.failed place kinds).Placed place :=
  fun _ he => .inl (span_of_mem_at he)

theorem narrowed (r : TypedValue × List ErrorKind) : (Folded.narrowed place r).Placed place :=
  fun _ he => .inl (span_of_mem_at he)

theorem after {f : Folded} (kinds : List ErrorKind) (h : f.Placed place) :
    (Folded.after place kinds f).Placed place := by
  intro e he
  rcases List.mem_append.1 he with hlost | hf
  · exact .inl (span_of_mem_at hlost)
  · exact h e hf

theorem clean (value : Option Const) : Folded.Placed place ⟨value, []⟩ :=
  fun _ he => absurd he List.not_mem_nil

theorem atDivisor (value : Option Const) (k : ErrorKind) :
    Folded.Placed place ⟨value, [⟨place.divisor, k⟩]⟩ := by
  intro e he
  rw [List.mem_singleton.1 he]
  exact .inr rfl

end Folded.Placed

variable {op : Operator} {word : WordSize}

theorem foldUntyped_placed {a b : UntypedConst} : (foldUntyped op a b place).Placed place := by
  unfold foldUntyped
  cases a.kind.promote b.kind with
  | error misfits => exact .failed _
  | ok kind =>
    simp only
    cases a.operate op kind b with
    | ok c => exact .clean _
    | error e =>
      cases e with
      | divideByZero => exact .atDivisor _ _
      | undefined | fault => exact .failed _

theorem foldAt_placed {a b : TypedValue} {ty : Ty} :
    (foldAt op a b ty word place).Placed place := by
  unfold foldAt
  cases TypedValue.operate op a b ty with
  | none => exact .failed _
  | some r =>
    cases r with
    | ok c => exact .narrowed _
    | error e =>
      cases e with
      | divideByZero => exact .atDivisor _ _
      | undefined | fault => exact .failed _

theorem foldMixed_placed {v : TypedValue} {u : UntypedConst} {side : Side} :
    (foldMixed op v u side word place).Placed place := by
  unfold foldMixed
  split
  · exact .failed _
  · simp only
    split
    · exact .failed _
    · exact .after _ foldAt_placed

theorem foldTyped_placed {a b : TypedValue} : (foldTyped op a b word place).Placed place := by
  unfold foldTyped
  split
  · exact .failed _
  · split
    · exact foldAt_placed
    · exact .failed _

/-- **The errors of a fold are at the operation or at its divisor.** -/
theorem Const.fold_placed (a b : Const) : (a.fold op b word place).Placed place := by
  cases a with
  | untyped a =>
    cases b with
    | untyped b => exact foldUntyped_placed
    | typed b => exact foldMixed_placed
  | typed a =>
    cases b with
    | untyped b => exact foldMixed_placed
    | typed b => exact foldTyped_placed

end

namespace Context

variable {ctx : Context} {args : List Node} {span : Span} {e : CheckError}

theorem checkLeaf_span {l : Leaf} (h : e ∈ (ctx.checkLeaf l span).errors) : e.span = span := by
  have hleaf := ctx.checkLeaf_result l span
  generalize ctx.checkLeaf l span = r at h hleaf
  cases hleaf with
  | malformed | undefined => rw [List.mem_singleton.1 h]
  | _ => exact absurd h List.not_mem_nil

theorem binaryInfo_span {op : Operator} {l r : Node}
    (h : e ∈ (ctx.binaryInfo op l r span).errors) : e.span = span ∨ e.span = r.span := by
  obtain ⟨a, b, -, -, he⟩ := mem_binaryInfo_errors h
  exact Const.fold_placed a b e he

/-- The node at which the arguments of a builtin stop is one of them. -/
theorem mem_of_argsOf_error {ns : List Node} {n : Node} (h : argsOf ns = .error n) : n ∈ ns := by
  induction ns with
  | nil => cases h
  | cons m ns ih =>
    simp only [argsOf] at h
    cases hm : arg? m with
    | none =>
      rw [hm] at h
      cases h
      exact List.mem_cons_self
    | some arg =>
      rw [hm] at h
      cases hns : argsOf ns with
      | ok as => rw [hns] at h; cases h
      | error k =>
        rw [hns] at h
        cases h
        exact List.mem_cons_of_mem _ (ih hns)

theorem applyBuiltin_span {b : Builtin} (h : e ∈ (ctx.applyBuiltin b args span).errors) :
    e.span = span ∨ ∃ n ∈ args, e.span = n.span := by
  unfold applyBuiltin at h
  split at h
  · rename_i n hn
    rw [Finding.mem_failed h]
    exact .inr ⟨n, mem_of_argsOf_error hn, rfl⟩
  split at h
  · split at h
    · exact absurd h List.not_mem_nil
    · rw [Finding.mem_failed h]; exact .inl rfl
  · split at h
    · exact absurd h List.not_mem_nil
    · rw [Finding.mem_failed h]; exact .inl rfl

theorem callBuiltin_span {name : Name} (h : e ∈ (ctx.callBuiltin name args span).errors) :
    e.span = span ∨ ∃ n ∈ args, e.span = n.span := by
  rcases ctx.callBuiltin_cases name args span with ⟨-, he⟩ | ⟨b, -, ⟨-, he⟩ | ⟨-, he⟩⟩
  · rw [he] at h
    rw [Finding.mem_failed h]; exact .inl rfl
  · rw [he] at h
    rw [Finding.mem_failed h]; exact .inl rfl
  · rw [he] at h
    exact applyBuiltin_span h

theorem callConversion_span {ty : Ty} (h : e ∈ (ctx.callConversion ty args span).errors) :
    e.span = span ∨ ∃ n ∈ args, e.span = n.span := by
  unfold callConversion at h
  split at h
  · rename_i arg
    split at h
    · exact .inr ⟨arg, List.mem_singleton_self arg, span_of_mem_at h⟩
    · split at h
      · split at h
        · exact absurd h List.not_mem_nil
        · rw [Finding.mem_failed h]; exact .inl rfl
      · exact absurd h List.not_mem_nil
  · rw [Finding.mem_failed h]; exact .inl rfl

theorem callFunc_span {f : Node} {sig : Ty.Signature} {found : ℕ}
    (h : e ∈ (ctx.callFunc f sig found span).errors) : e.span = span := by
  unfold callFunc at h
  by_cases hfits : if sig.variadic then sig.params.length ≤ found + 1 else found = sig.params.length
  · simp only [hfits, if_true] at h
    exact absurd h List.not_mem_nil
  · simp only [hfits, if_false] at h
    rw [Finding.mem_failed h]

theorem callInfo_span {f : Node} (h : e ∈ (ctx.callInfo f args span).errors) :
    e.span = span ∨ ∃ n ∈ args, e.span = n.span := by
  unfold callInfo at h
  split at h
  · exact callBuiltin_span h
  · exact callConversion_span h
  · split at h
    · exact absurd h List.not_mem_nil
    · split at h
      · exact .inl (callFunc_span h)
      · rw [Finding.mem_failed h]; exact .inl rfl

/-- The errors that an expression adds to those of its children, given the nodes of the children. -/
def ownErrors (ctx : Context) (e : Expr) (children : List Node) : List CheckError :=
  match e.kind, children with
  | .leaf l, _ => (ctx.checkLeaf l e.span).errors
  | .binary op _ _, [left, right] => (ctx.binaryInfo op left right e.span).errors
  | .call _ _, func :: args => (ctx.callInfo func args e.span).errors
  | _, _ => []

/-- **The own errors of an expression are at the expression or at a child.** -/
theorem ownErrors_span {x : Expr} {children : List Node} (h : e ∈ ctx.ownErrors x children) :
    e.span = x.span ∨ ∃ n ∈ children, e.span = n.span := by
  unfold ownErrors at h
  split at h
  · exact .inl (checkLeaf_span h)
  · rename_i left right _
    rcases binaryInfo_span h with hwhole | hright
    · exact .inl hwhole
    · exact .inr ⟨right, by simp, hright⟩
  · rcases callInfo_span h with hwhole | ⟨n, hn, hspan⟩
    · exact .inl hwhole
    · exact .inr ⟨n, List.mem_cons_of_mem _ hn, hspan⟩
  · exact absurd h List.not_mem_nil

end Context

/-! ## Whole expressions -/

/-- The nodes directly below a node, in source order. -/
def Node.children (n : Node) : List Node :=
  match n.kind with
  | .paren inner => [inner]
  | .binary _ left right => [left, right]
  | .call func args => func :: args
  | _ => []

section

variable {ctx : Context} {a : Arena} {id : ExprId}

/-- A check within a depth is the check. -/
theorem Arena.check?_of_checkWithin {d : ℕ} {c : Checked} (hd : d ≤ a.exprs.size + 1)
    (h : a.checkWithin ctx d id = some c) : a.check? ctx id = some c := by
  rw [checkWithin_eq] at h
  obtain ⟨t, ht, rfl⟩ := Option.map_eq_some_iff.1 h
  exact check?_of_tree? (tree?_of_treeWithin hd ht)

theorem Context.checkLeaf_node (ctx : Context) (l : Leaf) (span : Span) :
    (ctx.checkLeaf l span).node.span = span ∧ (ctx.checkLeaf l span).node.children = [] := by
  have hleaf := ctx.checkLeaf_result l span
  generalize ctx.checkLeaf l span = r at hleaf ⊢
  cases hleaf <;> exact ⟨rfl, rfl⟩

/-- **No error is lost, reported twice or out of order.** An expression is checked, and so are the
expressions to which it refers, each by itself.

The nodes below its node are theirs. Its errors are theirs, in source order, and then its own, which
depend on their nodes alone and are at the expression or at one of them. A number of no expression
has one internal error, at no place. -/
theorem errors_in_source_order {r : Checked} (h : a.check? ctx id = some r) :
    (a.get? id = none → r.node.span = .none ∧ r.node.children = [] ∧
      r.errors = [⟨.none, .internal⟩]) ∧
    ∀ e, a.get? id = some e → ∃ cs : List Checked,
      List.Forall₂ (fun child c => a.check? ctx child = some c) (a.children e.kind) cs ∧
      r.node.span = e.span ∧ r.node.children = cs.map Checked.node ∧
      r.errors = cs.flatMap Checked.errors ++ ctx.ownErrors e r.node.children ∧
      ∀ x ∈ ctx.ownErrors e r.node.children,
        x.span = e.span ∨ ∃ n ∈ r.node.children, x.span = n.span := by
  unfold Arena.check? Arena.checkWithin at h
  refine ⟨fun hnone => ?_, fun e he => ?_⟩
  · simp only [hnone, Option.some.injEq] at h
    subst h
    exact ⟨rfl, rfl, rfl⟩
  -- the children are checked within a depth that is less by one
  have child : ∀ {j c}, a.checkWithin ctx a.exprs.size j = some c → a.check? ctx j = some c :=
    Arena.check?_of_checkWithin (Nat.le_succ _)
  obtain ⟨kind, span⟩ := e
  simp only [he] at h
  cases kind with
  | leaf l =>
    cases h
    obtain ⟨hspan, hchildren⟩ := ctx.checkLeaf_node l span
    exact ⟨[], .nil, hspan, hchildren, rfl, fun x hx => Context.ownErrors_span hx⟩
  | paren inner =>
    obtain ⟨c, hc, hr⟩ := Option.bind_eq_some_iff.1 h
    cases hr
    refine ⟨[c], .cons (child hc) .nil, rfl, rfl, ?_, fun x hx => Context.ownErrors_span hx⟩
    simp [Context.checkParen, Context.ownErrors]
  | binary op left right =>
    obtain ⟨l, hl, h⟩ := Option.bind_eq_some_iff.1 h
    obtain ⟨r, hr, h⟩ := Option.bind_eq_some_iff.1 h
    cases h
    refine ⟨[l, r], .cons (child hl) (.cons (child hr) .nil), rfl, rfl, ?_,
      fun x hx => Context.ownErrors_span hx⟩
    simp [Context.checkBinary, Context.ownErrors, Node.children, Node.kind]
  | call func args =>
    obtain ⟨f, hf, h⟩ := Option.bind_eq_some_iff.1 h
    obtain ⟨cs, hcs, h⟩ := Option.bind_eq_some_iff.1 h
    cases h
    have hargs := (Arena.mapM_eq_some_iff.1 hcs).imp fun _ _ => child
    refine ⟨f :: cs, .cons (child hf) hargs, rfl, rfl, ?_, fun x hx => Context.ownErrors_span hx⟩
    simp [Context.checkCall, Context.ownErrors, Node.children, Node.kind]

end

/-! ## Two errors in a quotient

`int8(300) / 0`. -/

/-- The names and numbers of the quotient, and no bindings. -/
def Context.wrappedQuo : Context where
  names := { strings := #["", "int8", "300", "0"], numbers := {} }
  env := .empty
  word := .bits64

/-- The expression `int8(300) / 0`. -/
def Arena.wrappedQuo : Arena where
  exprs := #[⟨.leaf (.ident ⟨1⟩), ⟨0, 4⟩⟩, ⟨.leaf (.int ⟨2⟩), ⟨5, 8⟩⟩, ⟨.call ⟨0⟩ ⟨0, 1⟩, ⟨0, 9⟩⟩,
    ⟨.leaf (.int ⟨3⟩), ⟨12, 13⟩⟩, ⟨.binary .quo ⟨2⟩ ⟨3⟩, ⟨0, 13⟩⟩]
  args := #[⟨1⟩]

/-- The operand overflows, at its own argument; then the divisor is zero. -/
theorem errors_in_source_order_wrappedQuo : ∃ (r : Checked) (cs : List Checked),
    Arena.wrappedQuo.check? .wrappedQuo ⟨4⟩ = some r ∧
    List.Forall₂ (fun child c => Arena.wrappedQuo.check? .wrappedQuo child = some c)
      [⟨2⟩, ⟨3⟩] cs ∧
    r.errors = cs.flatMap Checked.errors ++
      Context.wrappedQuo.ownErrors ⟨.binary .quo ⟨2⟩ ⟨3⟩, ⟨0, 13⟩⟩ r.node.children ∧
    r.errors.map CheckError.site = [(.overflowed, ⟨5, 8⟩), (.divideByZero, ⟨12, 13⟩)] := by
  let wrapped : Tree := .call (.leaf (.ident ⟨1⟩) ⟨0, 4⟩) [.leaf (.int ⟨2⟩) ⟨5, 8⟩] ⟨0, 9⟩
  let quo : Tree := .binary .quo wrapped (.leaf (.int ⟨3⟩) ⟨12, 13⟩) ⟨0, 13⟩
  have hquo : Arena.wrappedQuo.tree? ⟨4⟩ = some quo := rfl
  have hcheck : Arena.wrappedQuo.check? .wrappedQuo ⟨4⟩ = some (quo.check .wrappedQuo) :=
    Arena.check?_of_tree? hquo
  obtain ⟨cs, hcs, -, -, herrors, -⟩ := (errors_in_source_order hcheck).2 _ rfl
  exact ⟨_, cs, hcheck, hcs, herrors, by decide +kernel⟩

end ConstCheck
