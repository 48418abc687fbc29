import ConstCheck.Proofs.Fits
import ConstCheck.Proofs.Mentions
import ConstCheck.Proofs.Parentheses

/-!
# Names for constants

A constant that stands in an expression may be given a name and the name written in its place. The
errors found in computing the constant are then found no more; nothing else changes.

* `Context.withConst`: a context with one more named constant.
* `Tree.check_withConst`: an expression that does not mention the name is checked as before.
* `Tree.check_within_named` (every tree and every place in it): the whole, with the constant and
  with its name.
* `constant_substitution` (every arena, expression and place in it): **a named constant stands for
  its expression**, but for the errors of that expression.
-/

namespace ConstCheck

section

variable {ctx : Context} {n : Name} {c : Const}

/-! ## One more named constant -/

/-- The same context, with one more named constant. -/
def Context.withConst (ctx : Context) (n : Name) (c : Const) : Context :=
  ctx.withEnv (ctx.env.defineConst n c)

/-- The name stands for the constant, unless it is `nil` or that of a variable. -/
theorem Context.resolve?_withConst_self (hnil : ctx.names.lookup n ≠ "nil")
    (hvar : ctx.env.var? n = none) : (ctx.withConst n c).resolve? n = some (.const c) := by
  have hconst : (ctx.env.defineConst n c).const? n = some c := List.lookup_cons_self
  have hvar' : (ctx.env.defineConst n c).var? n = none := hvar
  simp only [resolve?, withConst, withEnv, hnil, hvar', hconst, if_false]

/-- Other names stand for what they stood for. -/
theorem Context.resolve?_withConst_of_ne {m : Name} (h : m ≠ n) :
    (ctx.withConst n c).resolve? m = ctx.resolve? m := by
  have hconst : (ctx.env.defineConst n c).const? m = ctx.env.const? m := by
    have hne : (m == n) = false := beq_false_of_ne h
    simp only [Env.const?, Env.defineConst, List.lookup_cons, hne]
  simp only [resolve?, withConst, withEnv, hconst]
  rfl

namespace Tree

variable {s t : Tree} {span : Span}

/-- **An expression that does not mention the name is checked as before.** -/
theorem check_withConst (h : ¬t.Mentions n) : t.check (ctx.withConst n c) = t.check ctx := by
  refine check_withEnv rfl fun m hm => Context.resolve?_withConst_of_ne ?_
  rintro rfl
  exact h hm

theorem errorsOf_withConst {ts : List Tree} (h : ∀ t ∈ ts, ¬t.Mentions n) :
    errorsOf (ctx.withConst n c) ts = errorsOf ctx ts :=
  List.flatMap_congr fun t ht => by rw [check_withConst (h t ht)]

/-- The name is checked as the constant, without errors. -/
theorem check_ident_withConst (span : Span) (hnil : ctx.names.lookup n ≠ "nil")
    (hvar : ctx.env.var? n = none) :
    (Tree.leaf (.ident n) span).check (ctx.withConst n c) =
      ⟨.mk span (.ident n) (.ofConst c), []⟩ := by
  have hname : (ctx.withConst n c).resolve? n = some (.const c) :=
    Context.resolve?_withConst_self hnil hvar
  simp only [check, Context.checkLeaf, Context.checkIdent, hname]

/-- A constant is not the name of a builtin or a type. -/
theorem not_isName_of_constant (h : (s.check ctx).node.constant? = some c) : ¬s.IsName ctx := by
  intro hname
  rw [Node.constant?, (check_of_isName hname).1] at h
  cases h

/-! ## The constant and its name at a place -/

/-- **The whole with a constant at a place, and with its name there.** They are alike but for the
errors of the constant's expression. -/
theorem check_within_named (frames : List Frame) (span : Span)
    (hs : (s.check ctx).node.constant? = some c) (hfresh : ¬(within frames s).Mentions n)
    (hnil : ctx.names.lookup n ≠ "nil") (hvar : ctx.env.var? n = none) :
    ∃ m after,
      (within frames s).check ctx =
        ⟨m, errorsOf ctx (before frames) ++ (s.check ctx).errors ++ after⟩ ∧
      ((within frames (.leaf (.ident n) span)).check (ctx.withConst n c)).Alike
        ⟨m, errorsOf ctx (before frames) ++ after⟩ := by
  have part : ∀ {t : Tree}, t.SubOf (within frames s) → ¬t.Mentions n :=
    fun ht hmention => hfresh (hmention.of_subOf ht)
  have hself : s.check (ctx.withConst n c) = s.check ctx :=
    check_withConst (part (subOf_iff_within.2 ⟨frames, rfl⟩))
  have hbefore : errorsOf (ctx.withConst n c) (before frames) = errorsOf ctx (before frames) :=
    errorsOf_withConst fun t ht => part (subOf_within_of_mem_before ht)
  -- both are checked where the name is bound: what stands around the place is the same there
  obtain ⟨m, after, haround⟩ := @checkAround_eq (ctx.withConst n c) frames (s.check ctx).node
  refine ⟨m, after, ?_, ?_⟩
  · rw [← check_withConst hfresh, check_within, hself, ← hbefore]
    exact haround (s.check ctx).errors
  · have hclean := haround []
    rw [hbefore, List.append_nil] at hclean
    rw [check_within, check_ident_withConst span hnil hvar, ← hclean]
    exact checkAround_alike frames ⟨(info_eq_ofConst hs).symm, rfl⟩
      (sameName_of_not_isName (not_isName_of_constant hs) rfl rfl)

end Tree

/-- **A named constant stands for its expression.** An expression with a constant value stands at a
place in another; in its place there may stand a name, which is bound to the constant, is not
mentioned otherwise, is not `nil` and is not that of a variable.

The same is known of both wholes. The errors of the expression are a segment of the errors of the
whole, after those of all that stands before it, and without this segment the codes of the errors
are those of the whole with the name. -/
theorem constant_substitution {a b : Arena} {id id' : ExprId} {frames : List Tree.Frame} {s : Tree}
    {span : Span} (hplain : a.tree? id = some (Tree.within frames s))
    (hnamed : b.tree? id' = some (Tree.within frames (.leaf (.ident n) span)))
    (hs : (s.check ctx).node.constant? = some c) (hfresh : ¬a.Mentions id n)
    (hnil : ctx.names.lookup n ≠ "nil") (hvar : ctx.env.var? n = none) :
    ∃ r q after, a.check? ctx id = some r ∧ b.check? (ctx.withConst n c) id' = some q ∧
      q.node.info = r.node.info ∧
      r.errors = Tree.errorsOf ctx (Tree.before frames) ++ (s.check ctx).errors ++ after ∧
      q.errors.map CheckError.code =
        (Tree.errorsOf ctx (Tree.before frames) ++ after).map CheckError.code := by
  rw [← Arena.mentions_iff hplain] at hfresh
  obtain ⟨m, after, hwhole, halike⟩ := Tree.check_within_named frames span hs hfresh hnil hvar
  refine ⟨_, _, after, Arena.check?_of_tree? hplain, Arena.check?_of_tree? hnamed, ?_, ?_,
    halike.codes⟩
  · rw [hwhole]
    exact halike.info
  · rw [hwhole]

end

/-! ## A sum that wraps twice

`int8(100.5) + int8(300)`, and `int8(100.5) + c` where `c` is the second operand. -/

/-- The names and numbers of the sums, and no bindings. -/
def Context.wrappedSum : Context where
  names := { strings := #["", "int8", "100.5", "300", "c"], numbers := {} }
  env := .empty
  word := .bits64

/-- The expressions `int8(100.5) + int8(300)` and `int8(100.5) + c`. -/
def Arena.wrappedSum : Arena where
  exprs := #[⟨.leaf (.ident ⟨1⟩), ⟨0, 4⟩⟩, ⟨.leaf (.float ⟨2⟩), ⟨5, 10⟩⟩,
    ⟨.call ⟨0⟩ ⟨0, 1⟩, ⟨0, 11⟩⟩, ⟨.leaf (.int ⟨3⟩), ⟨19, 22⟩⟩, ⟨.call ⟨0⟩ ⟨1, 1⟩, ⟨14, 23⟩⟩,
    ⟨.binary .add ⟨2⟩ ⟨4⟩, ⟨0, 23⟩⟩,
    ⟨.leaf (.ident ⟨4⟩), ⟨14, 15⟩⟩, ⟨.binary .add ⟨2⟩ ⟨6⟩, ⟨0, 23⟩⟩]
  args := #[⟨1⟩, ⟨3⟩]

/-- The sum wraps to -112 with either operand. The overflow of the second one is found where it is
computed, that of the sum with its name as well. -/
theorem constant_substitution_wrappedSum : ∃ r q,
    Arena.wrappedSum.check? .wrappedSum ⟨5⟩ = some r ∧
    Arena.wrappedSum.check?
      (Context.wrappedSum.withConst ⟨4⟩ (.typed ⟨.basic .int8, .int 44⟩)) ⟨7⟩ = some q ∧
    r.node.constant?.bind Const.int? = some (-112) ∧ q.node.info = r.node.info ∧
    r.errors.map CheckError.code = [.truncated, .overflowed, .overflowed] ∧
    q.errors.map CheckError.code = [.truncated, .overflowed] := by
  let one : Tree := .call (.leaf (.ident ⟨1⟩) ⟨0, 4⟩) [.leaf (.float ⟨2⟩) ⟨5, 10⟩] ⟨0, 11⟩
  let two : Tree := .call (.leaf (.ident ⟨1⟩) ⟨0, 4⟩) [.leaf (.int ⟨3⟩) ⟨19, 22⟩] ⟨14, 23⟩
  let frames : List Tree.Frame := [.right .add one ⟨0, 23⟩]
  have hplain : Arena.wrappedSum.tree? ⟨5⟩ = some (Tree.within frames two) := rfl
  have hnamed : Arena.wrappedSum.tree? ⟨7⟩ =
    some (Tree.within frames (.leaf (.ident ⟨4⟩) ⟨14, 15⟩)) := rfl
  have htwo : (two.check .wrappedSum).node.constant? = some (.typed ⟨.basic .int8, .int 44⟩) := rfl
  have hfresh : ¬Arena.wrappedSum.Mentions ⟨5⟩ ⟨4⟩ := by
    have hother : ∀ t : Tree, t.SubOf (Tree.within frames two) →
        ∀ span, t ≠ .leaf (.ident ⟨4⟩) span := by
      simp [Tree.within, Tree.Frame.fill, frames, one, two, Tree.forall_subOf_binary,
        Tree.forall_subOf_call, Tree.forall_subOf_leaf]
    rw [← Arena.mentions_iff hplain]
    rintro ⟨span, h⟩
    exact hother _ h span rfl
  have hnil : Context.wrappedSum.names.lookup ⟨4⟩ ≠ "nil" := by decide
  obtain ⟨r, q, after, hr, hq, hinfo, herrors, hcodes⟩ :=
    constant_substitution hplain hnamed htwo hfresh hnil rfl
  obtain rfl := Option.some.inj ((Arena.check?_of_tree? hplain).symm.trans hr)
  have hall : ((Tree.within frames two).check .wrappedSum).errors.map CheckError.code =
    [.truncated, .overflowed, .overflowed] := by decide +kernel
  -- the first error stands before the place, the second at it
  have hbefore : (Tree.errorsOf .wrappedSum (Tree.before frames)).map CheckError.code =
    [.truncated] := by decide +kernel
  have hown : (two.check .wrappedSum).errors.map CheckError.code = [.overflowed] := by
    decide +kernel
  have hafter : after.map CheckError.code = [.overflowed] := by
    rw [herrors, List.map_append, List.map_append, hbefore, hown] at hall
    simpa using hall
  rw [List.map_append, hbefore, hafter] at hcodes
  exact ⟨_, q, hr, hq, by decide +kernel, hinfo, hall, hcodes⟩

end ConstCheck
