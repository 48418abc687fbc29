import ConstCheck.Proofs.Parentheses

/-!
# Coherent nodes

What is known of an expression is kept in three fields: the types of its values, whether it is
constant, and its value. The rules fill them so that they fit together, at every node of a checked
expression and whatever errors there are.

* `Env.Offers`: the values that are read, of variables, functions and packages.
* `Node.Reads`: a name of such a value, or parentheses around one.
* `Node.Coherent`: the fields of a node fit together.
* `Tree.coherent` (every tree): the node of an expression is coherent.
* `nodes_coherent` (every arena, every expression with a check): **all nodes of a checked expression
  are coherent**.
-/

namespace ConstCheck

/-! ## Values that are read -/

/-- What the environment offers to be read under a name: the content of a variable, a function, a
package. -/
inductive Env.Offers (env : Env) (name : Name) : TypedValue → Prop
  | ofVar {v : Variable} (h : env.var? name = some v) : Offers env name (env.current v)
  | ofFunc {ty : Ty} (h : env.func? name = some ty) : Offers env name ⟨ty, .func name⟩
  | ofPackage (h : env.hasPackage name) : Offers env name ⟨.package, .package name⟩

section

variable {ctx : Context}

/-- A value that a name is read as is offered by the environment. -/
theorem Context.resolve?_reading {name : Name} {v : TypedValue}
    (h : ctx.resolve? name = some (.reading v)) : ctx.env.Offers name v := by
  cases resolves h with
  | var hx => exact .ofVar hx
  | func hty => exact .ofFunc hty
  | package hpackage => exact .ofPackage hpackage

/-- A node whose value is read: a name that stands for a variable, a function or a package, or
parentheses around such a node. -/
inductive Node.Reads (ctx : Context) : Node → Prop
  | ident {name : Name} {v : TypedValue} (span : Span)
    (h : ctx.resolve? name = some (.reading v)) (hv : ctx.env.Offers name v) :
    Reads ctx (.mk span (.ident name) (.ofReading v))
  | paren {inner : Node} (span : Span) (h : Reads ctx inner) :
    Reads ctx (.mk span (.paren inner) inner.info)

/-- What is read has a value and is not constant. -/
theorem Node.Reads.info {n : Node} (h : n.Reads ctx) :
    n.info.value.isSome ∧ n.info.isConst = false := by
  induction h with
  | ident => exact ⟨rfl, rfl⟩
  | paren _ _ ih => exact ih

/-- A leaf with a value is constant or read. -/
theorem Context.checkLeaf_reads {l : Leaf} {span : Span}
    (hv : (ctx.checkLeaf l span).node.info.value.isSome)
    (hc : (ctx.checkLeaf l span).node.info.isConst = false) :
    (ctx.checkLeaf l span).node.Reads ctx := by
  have number : ∀ {text kind parse},
      (ctx.checkNumber text kind parse span).node.info.isConst = true := by
    intro text kind parse
    simp only [checkNumber]
    split <;> rfl
  cases l with
  | int | float | imag => cases number.symm.trans hc
  | rune | string => cases hc
  | ident name =>
    simp only [checkLeaf, checkIdent] at hv hc ⊢
    cases hname : ctx.resolve? name with
    | none => simp only [hname] at hv; cases hv
    | some m =>
      simp only [hname] at hv hc ⊢
      cases m with
      | const c => cases hc
      | reading v => exact .ident span hname (resolve?_reading hname)
      | builtin | type => cases hv

/-- **What has a value and is not constant is read.** -/
theorem Tree.reads_iff {t : Tree} :
    (t.check ctx).node.info.value.isSome ∧ (t.check ctx).node.info.isConst = false ↔
      (t.check ctx).node.Reads ctx := by
  refine ⟨fun h => ?_, Node.Reads.info⟩
  obtain ⟨hv, hc⟩ := h
  -- operations and calls compute their values, so only names and parentheses are left
  have computed : (t.check ctx).node.info.Computed → False := by
    intro hi
    rw [hi.isConst_of_isSome hv] at hc
    cases hc
  induction t with
  | missing => cases hv
  | leaf l span => exact Context.checkLeaf_reads hv hc
  | paren inner span ih => exact .paren span (ih hv hc computed)
  | binary op l r span => exact (computed (Context.binaryInfo_computed op _ _ span)).elim
  | call f args span => exact (computed (Context.callInfo_computed _ _ span)).elim

/-! ## The fields of a node -/

/-- The fields of a node fit together. -/
structure Node.Coherent (ctx : Context) (n : Node) : Prop where
  /-- A constant has a value. -/
  constant : n.info.isConst → n.info.value.isSome
  /-- What has a value has one type, that of the value. -/
  known : ∀ c, n.info.value = some c → n.info.known = [c.knownType]
  /-- A value without being constant is read. -/
  reading : n.info.value.isSome ∧ n.info.isConst = false ↔ n.Reads ctx
  /-- The name of a builtin or a type has no type and no value. -/
  name : n.builtin?.isSome ∨ n.type?.isSome → n.info.known = [] ∧ n.info.value = none

theorem Tree.coherent (t : Tree) : (t.check ctx).node.Coherent ctx where
  constant := (Tree.info_form t).isSome_of_isConst
  known _ := (Tree.info_form t).known_eq
  reading := Tree.reads_iff
  name h := by
    rw [(Tree.check_of_isName h).1]
    exact ⟨rfl, rfl⟩

/-- **All nodes of a checked expression are coherent**, at every depth: a constant has a value, a
node with a value has exactly its type, a value that is not constant is read, and the name of a
builtin or a type has neither type nor value. -/
theorem nodes_coherent {a : Arena} {root : ExprId} {r : Checked} {n : Node}
    (h : a.check? ctx root = some r) (hn : n.PartOf r.node) : n.Coherent ctx := by
  obtain ⟨t, -, rfl⟩ := Arena.exists_tree?_of_check? h
  obtain ⟨s, -, rfl⟩ := Tree.partOf_check_iff.1 hn
  exact s.coherent

end

/-! ## A variable in a sum

`(x) + 1`, where `x` is a variable of type `int` that holds seven. -/

/-- The names and numbers of the sum, and the variable. -/
def Context.sevenVar : Context where
  names := { strings := #["", "x", "1"], numbers := {} }
  env := (Env.empty.defineVar ⟨1⟩ .int (.int 7)).2
  word := .bits64

/-- The expression `(x) + 1`. -/
def Arena.sumOfVar : Arena where
  exprs := #[⟨.leaf (.ident ⟨1⟩), ⟨1, 2⟩⟩, ⟨.paren ⟨0⟩, ⟨0, 3⟩⟩, ⟨.leaf (.int ⟨2⟩), ⟨6, 7⟩⟩,
    ⟨.binary .add ⟨1⟩ ⟨2⟩, ⟨0, 7⟩⟩]

/-- The left operand has a value and is not constant: it is read, and its type is `int`. -/
theorem nodes_coherent_sumOfVar : ∃ (r : Checked) (n : Node),
    Arena.sumOfVar.check? .sevenVar ⟨3⟩ = some r ∧ n.PartOf r.node ∧
    n.info.value = some (.typed ⟨.int, .int 7⟩) ∧ n.info.isConst = false ∧
    n.Reads .sevenVar ∧ n.info.known = [.typed .int] := by
  let left : Tree := .paren (.leaf (.ident ⟨1⟩) ⟨1, 2⟩) ⟨0, 3⟩
  let sum : Tree := .binary .add left (.leaf (.int ⟨2⟩) ⟨6, 7⟩) ⟨0, 7⟩
  have hsum : Arena.sumOfVar.tree? ⟨3⟩ = some sum := rfl
  have hcheck : Arena.sumOfVar.check? .sevenVar ⟨3⟩ = some (sum.check .sevenVar) :=
    Arena.check?_of_tree? hsum
  have hleft : (left.check .sevenVar).node.PartOf (sum.check .sevenVar).node := .left .self
  have hvalue : (left.check .sevenVar).node.info.value = some (.typed ⟨.int, .int 7⟩) := rfl
  have hcoherent := nodes_coherent hcheck hleft
  exact ⟨_, _, hcheck, hleft, hvalue, rfl, hcoherent.reading.1 ⟨rfl, rfl⟩,
    hcoherent.known _ hvalue⟩

end ConstCheck
