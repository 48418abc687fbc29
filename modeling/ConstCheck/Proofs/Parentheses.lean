import ConstCheck.Proofs.Places

/-!
# Parentheses

Parentheses forward what is known of their operand and the errors in it. They do not forward that it
is the name of a builtin or a type, and a call asks for just that: of its callee, and, if it calls a
builtin, of the types among its arguments. At all other places they change nothing.

* `Tree.Frame.Sees`: a call that asks for the name of an expression.
* `Tree.check_call_paren`, `Tree.check_argument_paren`: what becomes of such a call.
* `paren_transparent` (every expression and every place in it): **parentheses change nothing**, but
  for a call that asks for the name in them.
* `paren_not_transparent`: `int8(1)` is a constant and `(int8)(1)` is not.
-/

namespace ConstCheck

namespace Tree

/-- An expression is the name of a builtin or of a type. -/
def IsName (ctx : Context) (t : Tree) : Prop :=
  (t.check ctx).node.builtin?.isSome ∨ (t.check ctx).node.type?.isSome

/-- A frame asks for the name of an expression: as its callee, or as a type that is an argument of a
builtin. -/
def Frame.Sees (ctx : Context) (s : Tree) : Frame → Prop
  | func _ _ => s.IsName ctx
  | arg f _ _ _ => (f.check ctx).node.builtin?.isSome ∧ (s.check ctx).node.type?.isSome
  | _ => False

section

variable {ctx : Context} {s : Tree}

/-- The name of a builtin or a type has no value, and no errors. -/
theorem check_of_isName (h : s.IsName ctx) :
    (s.check ctx).node.info = .unknown ∧ (s.check ctx).errors = [] := by
  cases s with
  | missing | paren | binary | call => rcases h with h | h <;> cases h
  | leaf l span =>
    have hleaf := ctx.checkLeaf_result l span
    simp only [IsName, check] at h ⊢
    generalize ctx.checkLeaf l span = r at h hleaf ⊢
    cases hleaf with
    | builtin | type => exact ⟨rfl, rfl⟩
    | _ => rcases h with h | h <;> cases h

/-- What names nothing names the same as an expression that is not a name. -/
theorem sameName_of_not_isName {n : Node} (h : ¬s.IsName ctx) (hb : n.builtin? = none)
    (ht : n.type? = none) : n.SameName (s.check ctx).node := by
  obtain ⟨hsb, hst⟩ := not_or.1 h
  constructor
  · rw [hb, Option.not_isSome_iff_eq_none.1 hsb]
  · rw [ht, Option.not_isSome_iff_eq_none.1 hst]

/-! ## Where parentheses change nothing -/

/-- What is known of an expression, and its errors, are those of it in parentheses. -/
theorem check_paren_alike (s : Tree) (span : Span) :
    ((Tree.paren s span).check ctx).Alike (s.check ctx) := ⟨rfl, rfl⟩

/-- A frame that does not ask for the name of an expression sees it the same in parentheses. -/
theorem Frame.seesSame_paren {f : Frame} (span : Span) (h : ¬f.Sees ctx s) :
    f.SeesSame ctx ((Tree.paren s span).check ctx).node (s.check ctx).node := by
  cases f with
  | func args _ => exact sameName_of_not_isName h rfl rfl
  | arg f before after _ =>
    intro hf
    have ht := not_and.1 h hf
    exact (Option.not_isSome_iff_eq_none.1 ht).symm
  | _ => trivial

/-- **Parentheses change nothing** unless the innermost frame asks for the name in them. -/
theorem within_paren_alike {frames : List Frame} (span : Span)
    (h : ∀ f ∈ frames.head?, ¬f.Sees ctx s) :
    ((within frames (.paren s span)).check ctx).Alike ((within frames s).check ctx) := by
  cases frames with
  | nil => exact check_paren_alike s span
  | cons f frames =>
    exact within_cons_alike f frames (check_paren_alike s span) (f.seesSame_paren span (h f rfl))

/-! ## Where they do -/

/-- **A callee in parentheses is of unknown type**, though it is the name of a builtin or a type:
the call is unknown, and reports nothing of its own. -/
theorem check_call_paren (hs : s.IsName ctx) (args : List Tree) (inner span : Span) :
    ((Tree.call (.paren s inner) args span).check ctx).node.info = .unknown ∧
      ((Tree.call (.paren s inner) args span).check ctx).errors =
        (args.map (check ctx)).flatMap Checked.errors := by
  obtain ⟨hinfo, herrors⟩ := check_of_isName hs
  have hcall : ctx.callInfo ((Tree.paren s inner).check ctx).node
      ((args.map (check ctx)).map Checked.node) span = ⟨.unknown, []⟩ := by
    rw [Context.callInfo_of_value rfl rfl, Context.callValue]
    have hknown : ((Tree.paren s inner).check ctx).node.info.known = [] := by
      rw [(check_paren_alike s inner).info, hinfo]
      rfl
    rw [hknown]
    rfl
  have hparen : ((Tree.paren s inner).check ctx).errors = [] := herrors
  rw [check, Context.checkCall, checkAll_eq_map]
  simp only [hcall, hparen, List.nil_append, List.append_nil]
  exact ⟨rfl, trivial⟩

end

end Tree

section

variable {ctx : Context}

/-- A node that is no argument stops the arguments. -/
theorem Context.argsOf_eq_error {ns : List Node} {n : Node} (hn : n ∈ ns) (h : arg? n = none) :
    ∃ m, argsOf ns = .error m := by
  induction ns with
  | nil => cases hn
  | cons k ns ih =>
    cases hk : arg? k with
    | none => exact ⟨k, by simp [argsOf, hk]⟩
    | some a =>
      have hmem : n ∈ ns := by
        rcases List.mem_cons.1 hn with rfl | hmem
        · rw [h] at hk
          cases hk
        · exact hmem
      obtain ⟨m, hm⟩ := ih hmem
      exact ⟨m, by simp [argsOf, hk, hm, Except.map]⟩

/-- A builtin with a node that is no argument fails. -/
theorem Context.callBuiltin_of_valueless {ns : List Node} {n : Node} {name : Name} {b : Builtin}
    (hb : Builtin.ofName? (ctx.names.lookup name) = some b) (span : Span) (hn : n ∈ ns)
    (h : arg? n = none) :
    ∃ e, ctx.callBuiltin name ns span = ⟨.unknown, [e]⟩ ∧
      (e.code = .wrongArgumentCount ∨ e.code = .badBuiltinArgument) := by
  rcases ctx.callBuiltin_cases name ns span with ⟨hnone, -⟩ | ⟨c, -, ⟨-, he⟩ | ⟨-, he⟩⟩
  · rw [hnone] at hb
    cases hb
  · exact ⟨_, he, .inl rfl⟩
  · obtain ⟨m, hm⟩ := argsOf_eq_error hn h
    refine ⟨⟨m.span, .valuelessArgument c (ctx.describe m)⟩, ?_, .inr rfl⟩
    rw [he, applyBuiltin, hm]
    rfl

/-- **A type in parentheses is no argument of a builtin**: the call is unknown, and reports one
error of its own. -/
theorem Tree.check_argument_paren {f s : Tree} (hf : (f.check ctx).node.builtin?.isSome)
    (hs : s.IsName ctx) (before after : List Tree) (inner span : Span) :
    ((Tree.call f (before ++ .paren s inner :: after) span).check ctx).node.info = .unknown ∧
      ∃ e, ((Tree.call f (before ++ .paren s inner :: after) span).check ctx).errors =
          ((before ++ after).map (check ctx)).flatMap Checked.errors ++ [e] ∧
        (e.code = .wrongArgumentCount ∨ e.code = .badBuiltinArgument) := by
  obtain ⟨name, hname⟩ := Option.isSome_iff_exists.1 hf
  obtain ⟨b, hb⟩ := ofName?_of_builtin (Node.kind_of_builtin? hname)
  obtain ⟨hinfo, herrors⟩ := check_of_isName hs
  obtain ⟨-, hfunc⟩ := check_of_isName (.inl hf)
  have harg : Context.arg? ((Tree.paren s inner).check ctx).node = none := by
    rw [Context.arg?_eq, (check_paren_alike s inner).info, hinfo]
    rfl
  have hmem : ((Tree.paren s inner).check ctx).node ∈
      ((before ++ .paren s inner :: after).map (check ctx)).map Checked.node := by simp
  obtain ⟨e, he, hcode⟩ := Context.callBuiltin_of_valueless hb span hmem harg
  have hcall := (Context.callInfo_of_builtin hname).trans he
  have hparen : ((Tree.paren s inner).check ctx).errors = [] := herrors
  rw [check, Context.checkCall, checkAll_eq_map]
  simp only [hcall]
  refine ⟨rfl, e, ?_, hcode⟩
  simp only [hfunc, List.map_append, List.map_cons, List.flatMap_append, List.flatMap_cons, hparen,
    List.nil_append]

/-- A call that asks for a name finds none in parentheses. -/
theorem Tree.Frame.info_of_sees {f : Frame} {s : Tree} (inner : Span) (h : f.Sees ctx s) :
    ((f.fill (.paren s inner)).check ctx).node.info = .unknown := by
  cases f with
  | func args span => exact (check_call_paren h args inner span).1
  | arg f before after span => exact (check_argument_paren h.1 (.inr h.2) before after inner span).1
  | paren | left | right => exact h.elim

/-- **Parentheses change nothing, but for a call that asks for the name in them.** An expression
stands at a place in another, and in parentheses at the same place.

The same is known of both wholes, and they have errors of the same codes in the same order, unless
the expression is the name of a builtin or a type and is called, or is the name of a type and an
argument of a builtin. The call that it is in is unknown then. -/
theorem paren_transparent {a b : Arena} {id id' : ExprId} {frames : List Tree.Frame} {s : Tree}
    {span : Span} (hplain : a.tree? id = some (Tree.within frames s))
    (hparen : b.tree? id' = some (Tree.within frames (.paren s span))) :
    ∃ r q, a.check? ctx id = some r ∧ b.check? ctx id' = some q ∧
      ((∀ f ∈ frames.head?, ¬f.Sees ctx s) → q.node.info = r.node.info ∧
        q.errors.map CheckError.code = r.errors.map CheckError.code) ∧
      ∀ f ∈ frames.head?, f.Sees ctx s →
        ((f.fill (.paren s span)).check ctx).node.info = .unknown := by
  refine ⟨_, _, Arena.check?_of_tree? hplain, Arena.check?_of_tree? hparen, fun h => ?_, ?_⟩
  · have halike := Tree.within_paren_alike span h
    exact ⟨halike.info, halike.codes⟩
  · intro f _ h
    exact f.info_of_sees span h

end

/-! ## A conversion of one

`int8(1)`, with the argument in parentheses, and with the callee in parentheses. -/

/-- The names and numbers of the conversions, and no bindings. -/
def Context.oneAsInt8 : Context where
  names := { strings := #["", "int8", "1"], numbers := {} }
  env := .empty
  word := .bits64

/-- The expressions `int8(1)`, `int8((1))` and `(int8)(1)`. -/
def Arena.oneAsInt8 : Arena where
  exprs := #[⟨.leaf (.ident ⟨1⟩), ⟨0, 1⟩⟩, ⟨.leaf (.int ⟨2⟩), ⟨1, 2⟩⟩, ⟨.call ⟨0⟩ ⟨0, 1⟩, ⟨2, 3⟩⟩,
    ⟨.paren ⟨1⟩, ⟨3, 4⟩⟩, ⟨.call ⟨0⟩ ⟨1, 1⟩, ⟨2, 3⟩⟩, ⟨.paren ⟨0⟩, ⟨3, 4⟩⟩,
    ⟨.call ⟨5⟩ ⟨0, 1⟩, ⟨2, 3⟩⟩]
  args := #[⟨1⟩, ⟨3⟩]

namespace Tree

/-- The name of the type. -/
def int8Name : Tree := .leaf (.ident ⟨1⟩) ⟨0, 1⟩

/-- The number. -/
def oneLiteral : Tree := .leaf (.int ⟨2⟩) ⟨1, 2⟩

end Tree

/-- One as a constant of type `int8`. -/
def Info.oneAsInt8 : Info := .ofConst (.typed ⟨.basic .int8, .int 1⟩)

theorem Tree.check_oneAsInt8 :
    ((Tree.call int8Name [oneLiteral] ⟨2, 3⟩).check .oneAsInt8).node.info = .oneAsInt8 ∧
      ((Tree.call int8Name [oneLiteral] ⟨2, 3⟩).check .oneAsInt8).errors = [] := ⟨rfl, rfl⟩

/-- The number in parentheses is converted all the same. -/
theorem paren_transparent_argument : ∃ r q,
    Arena.oneAsInt8.check? .oneAsInt8 ⟨2⟩ = some r ∧
    Arena.oneAsInt8.check? .oneAsInt8 ⟨4⟩ = some q ∧
    r.node.info = .oneAsInt8 ∧ q.node.info = r.node.info ∧
    q.errors.map CheckError.code = r.errors.map CheckError.code := by
  let frame : Tree.Frame := .arg .int8Name [] [] ⟨2, 3⟩
  have hplain : Arena.oneAsInt8.tree? ⟨2⟩ = some (Tree.within [frame] .oneLiteral) := rfl
  have hparen : Arena.oneAsInt8.tree? ⟨4⟩ =
    some (Tree.within [frame] (.paren .oneLiteral ⟨3, 4⟩)) := rfl
  have hblind : ¬frame.Sees .oneAsInt8 .oneLiteral := by
    rintro ⟨-, h⟩
    cases h
  obtain ⟨r, q, hr, hq, hsame, -⟩ :=
    @paren_transparent .oneAsInt8 _ _ _ _ _ _ _ hplain hparen
  obtain ⟨hinfo, hcodes⟩ := hsame fun f hf => by
    cases hf
    exact hblind
  have heq : r = (Tree.within [frame] .oneLiteral).check .oneAsInt8 := by
    rw [Arena.check?_of_tree? hplain] at hr
    exact (Option.some.inj hr).symm
  exact ⟨r, q, hr, hq, by rw [heq]; exact Tree.check_oneAsInt8.1, hinfo, hcodes⟩

/-- **The callee in parentheses is not called.** `int8(1)` is a constant, `(int8)(1)` is not, and
there is no error in either. -/
theorem paren_not_transparent : ∃ r q,
    Arena.oneAsInt8.tree? ⟨2⟩ =
      some (Tree.within [.func [.oneLiteral] ⟨2, 3⟩] .int8Name) ∧
    Arena.oneAsInt8.tree? ⟨6⟩ =
      some (Tree.within [.func [.oneLiteral] ⟨2, 3⟩] (.paren .int8Name ⟨3, 4⟩)) ∧
    Arena.oneAsInt8.check? .oneAsInt8 ⟨2⟩ = some r ∧
    Arena.oneAsInt8.check? .oneAsInt8 ⟨6⟩ = some q ∧
    r.node.info = .oneAsInt8 ∧ r.errors = [] ∧ q.node.info = .unknown ∧ q.errors = [] := by
  have hname : Tree.int8Name.IsName .oneAsInt8 := .inr rfl
  have hparen : Arena.oneAsInt8.tree? ⟨6⟩ =
    some (Tree.within [.func [.oneLiteral] ⟨2, 3⟩] (.paren .int8Name ⟨3, 4⟩)) := rfl
  obtain ⟨hinfo, herrors⟩ := Tree.check_call_paren hname [.oneLiteral] ⟨3, 4⟩ ⟨2, 3⟩
  exact ⟨_, _, rfl, hparen, Arena.check?_of_tree? rfl, Arena.check?_of_tree? hparen,
    Tree.check_oneAsInt8.1, Tree.check_oneAsInt8.2, hinfo, herrors⟩

end ConstCheck
