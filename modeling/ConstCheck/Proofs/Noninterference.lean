import ConstCheck.Proofs.Alike
import ConstCheck.Proofs.Mentions
import ConstCheck.Proofs.SourceOrder

/-!
# What variables hold

A variable has a value, which its node carries and messages quote. Nothing is computed from it: two
environments that declare the same under the names of an expression are told apart by no type, no
constant and no error of it, whatever their variables hold.

* `Env.AgreesAt`: two environments declare the same under a name.
* `Node.static`, `Checked.static`: a checked expression but for what is read of variables and quoted
  in messages.
* `Context.checkIdent_static`, `Context.checkBinary_static`, `Context.checkCall_static`: rules do
  not look at more.
* `check_noninterference` (every arena and expression, with or without a check): **what variables
  hold, and names that are not mentioned, do not matter**.
-/

namespace ConstCheck

/-- Two environments declare the same under a name: a variable of one type, or none, and the same
constant, function and package. -/
structure Env.AgreesAt (env env' : Env) (name : Name) : Prop where
  var : (env.var? name).map Variable.ty = (env'.var? name).map Variable.ty
  const : env.const? name = env'.const? name
  func : env.func? name = env'.func? name
  package : env.hasPackage name = env'.hasPackage name

/-! ## Nodes but for what is read -/

mutual

/-- A node with what is read of variables left out, at every depth. -/
def Node.static : Node → Node
  | .mk span kind info => .mk span kind.static info.static

def NodeKind.static : NodeKind → NodeKind
  | .literal => .literal
  | .ident name => .ident name
  | .builtin name => .builtin name
  | .typeName ty => .typeName ty
  | .paren inner => .paren inner.static
  | .binary op left right => .binary op left.static right.static
  | .call func args => .call func.static (Node.staticAll args)

def Node.staticAll : List Node → List Node
  | [] => []
  | n :: ns => n.static :: Node.staticAll ns

end

namespace Node

@[simp]
theorem span_static (n : Node) : n.static.span = n.span := by cases n; rfl

@[simp]
theorem info_static (n : Node) : n.static.info = n.info.static := by cases n; rfl

@[simp]
theorem builtin?_static (n : Node) : n.static.builtin? = n.builtin? := by
  obtain ⟨span, kind, info⟩ := n
  cases kind <;> rfl

@[simp]
theorem type?_static (n : Node) : n.static.type? = n.type? := by
  obtain ⟨span, kind, info⟩ := n
  cases kind <;> rfl

theorem staticAll_eq_map (ns : List Node) : staticAll ns = ns.map static := by
  induction ns with
  | nil => rfl
  | cons n ns ih => rw [staticAll, ih, List.map_cons]

variable {m n : Node}

theorem span_of_static (h : m.static = n.static) : m.span = n.span := by
  rw [← span_static m, h, span_static]

theorem info_of_static (h : m.static = n.static) : m.info.static = n.info.static := by
  rw [← info_static m, h, info_static]

theorem sameName_of_static (h : m.static = n.static) : m.SameName n := by
  constructor
  · rw [← builtin?_static m, h, builtin?_static]
  · rw [← type?_static m, h, type?_static]

end Node

/-- What there is of a checked expression besides what is read of variables: its node, and the codes
and places of its errors. -/
structure Checked.Static where
  node : Node
  sites : List (ErrorCode × Span)

def Checked.static (r : Checked) : Static := ⟨r.node.static, r.errors.map CheckError.site⟩

/-- Several checked expressions of which the same is seen. -/
theorem Checked.static_all {as bs : List Checked}
    (h : List.Forall₂ (fun r s => r.static = s.static) as bs) :
    Node.staticAll (as.map node) = Node.staticAll (bs.map node) ∧
      (as.flatMap errors).map CheckError.site = (bs.flatMap errors).map CheckError.site := by
  have hnodes : as.map (fun r => r.node.static) = bs.map (fun r => r.node.static) :=
    map_eq_of_forall₂ (h.imp fun r s hrs => (Static.mk.inj hrs).1)
  constructor
  · rw [Node.staticAll_eq_map, Node.staticAll_eq_map, List.map_map, List.map_map]
    exact hnodes
  · exact map_errors_eq (h.imp fun r s hrs => (Static.mk.inj hrs).2)

/-- Errors of the same codes at the same places. -/
theorem CheckError.sites_eq {es es' : List CheckError}
    (h : List.Forall₂ (CheckError.Matches Eq) es es') : es.map site = es'.map site :=
  map_eq_of_forall₂ (h.imp fun _ _ hef => Prod.ext hef.code hef.place)

/-! ## The rules -/

namespace Context

variable {ctx : Context} {env : Env} {span : Span}

/-- Where there is no variable of a name, what is declared is all that the name can stand for. -/
theorem resolve?_withEnv {name : Name} (h : ctx.env.AgreesAt env name)
    (hvar : ctx.env.var? name = none) :
    (ctx.withEnv env).resolve? name = ctx.resolve? name := by
  have hvar' : env.var? name = none := by
    have hnone := h.var
    rw [hvar, Option.map_none] at hnone
    exact Option.map_eq_none_iff.1 hnone.symm
  simp only [resolve?, withEnv, hvar, hvar', h.const, h.func, h.package]
  rfl

/-- An identifier in two environments that declare the same under it. -/
theorem checkIdent_static {name : Name} (h : ctx.env.AgreesAt env name) :
    (ctx.checkIdent name span).static = ((ctx.withEnv env).checkIdent name span).static := by
  cases hvar : ctx.env.var? name with
  | none =>
    simp only [checkIdent, resolve?_withEnv h hvar]
    rfl
  | some v =>
    -- both are variables, of one type, and what they hold is left out
    have hsome := h.var
    rw [hvar, Option.map_some] at hsome
    obtain ⟨v', hvar', hty⟩ := Option.map_eq_some_iff.1 hsome.symm
    by_cases hnil : ctx.names.lookup name = "nil"
    · simp only [checkIdent, resolve?, withEnv, hnil, if_true]
    · simp only [checkIdent, resolve?, withEnv, hnil, hvar, hvar', if_false]
      simp only [Checked.static, Node.static, NodeKind.static, Info.static, Info.ofReading,
        Env.current, hty]
      rfl

variable {r s l l' f g : Checked} {as bs : List Checked}

theorem checkParen_static (h : r.static = s.static) :
    (checkParen r span).static = (checkParen s span).static := by
  obtain ⟨hnode, hsites⟩ := Checked.Static.mk.inj h
  simp only [Checked.static, checkParen, Node.static, NodeKind.static, hnode, hsites,
    Node.info_of_static hnode]

/-- An operation looks at the types, constants and places of its operands. -/
theorem checkBinary_static (op : Operator) (hl : l.static = l'.static) (hr : r.static = s.static) :
    (ctx.checkBinary op l r span).static = ((ctx.withEnv env).checkBinary op l' s span).static := by
  obtain ⟨hleft, hlsites⟩ := Checked.Static.mk.inj hl
  obtain ⟨hright, hrsites⟩ := Checked.Static.mk.inj hr
  have hfinding : ctx.binaryInfo op l.node r.node span =
      (ctx.withEnv env).binaryInfo op l'.node s.node span := by
    simp only [binaryInfo, Node.singleType?, Node.constant?, Node.span_of_static hright,
      Info.singleType?_of_static (Node.info_of_static hleft),
      Info.singleType?_of_static (Node.info_of_static hright),
      Info.constant?_of_static (Node.info_of_static hleft),
      Info.constant?_of_static (Node.info_of_static hright)]
    rfl
  simp only [Checked.static, checkBinary, Node.static, NodeKind.static, hleft, hright, hfinding,
    List.map_append, hlsites, hrsites]

/-- A call looks at the types, constants, names and places of its callee and arguments. -/
theorem checkCall_static (hf : f.static = g.static)
    (has : List.Forall₂ (fun r s => r.static = s.static) as bs) :
    (ctx.checkCall f as span).static = ((ctx.withEnv env).checkCall g bs span).static := by
  obtain ⟨hfunc, hfsites⟩ := Checked.Static.mk.inj hf
  obtain ⟨hargs, hargSites⟩ := Checked.static_all has
  have hnodes : List.Forall₂ (fun m n => m.info.static = n.info.static ∧ m.span = n.span ∧
      (f.node.builtin?.isSome → m.type? = n.type?)) (as.map Checked.node)
        (bs.map Checked.node) := by
    rw [List.forall₂_map_left_iff, List.forall₂_map_right_iff]
    refine has.imp fun r s h => ?_
    have hnode := (Checked.Static.mk.inj h).1
    exact ⟨Node.info_of_static hnode, Node.span_of_static hnode,
      fun _ => (Node.sameName_of_static hnode).type⟩
  have hfinding : (ctx.callInfo f.node (as.map Checked.node) span).Matches Eq
      ((ctx.withEnv env).callInfo g.node (bs.map Checked.node) span) :=
    callInfo_matches rfl rfl (Node.info_of_static hfunc) (Node.sameName_of_static hfunc) rfl hnodes
  have hown := CheckError.sites_eq hfinding.errors
  simp only [Checked.static, checkCall, Node.static, NodeKind.static, hfunc, hargs, hfinding.info,
    List.map_append, hfsites, hargSites, hown]

end Context

/-! ## Whole expressions -/

section

variable {ctx : Context} {env : Env}

/-- **An expression is checked the same but for what variables hold**, where both environments
declare the same under the names that it mentions. -/
theorem Tree.check_static {t : Tree} (h : ∀ name, t.Mentions name → ctx.env.AgreesAt env name) :
    (t.check ctx).static = (t.check (ctx.withEnv env)).static := by
  induction t with
  | missing => rfl
  | leaf l span =>
    cases l with
    | ident name => exact Context.checkIdent_static (h name (mentions_ident name span))
    | _ => rfl
  | paren inner span ih =>
    exact Context.checkParen_static (ih fun name hn => h name (hn.of_subOf (.paren .self)))
  | binary op l r span ihl ihr =>
    have hl := ihl fun name hn => h name (hn.of_subOf (.left .self))
    have hr := ihr fun name hn => h name (hn.of_subOf (.right .self))
    exact Context.checkBinary_static op hl hr
  | call f args span ihf ihargs =>
    have hf := ihf fun name hn => h name (hn.of_subOf (.func .self))
    have hargs : List.Forall₂ (fun r s : Checked => r.static = s.static) (args.map (check ctx))
        (args.map (check (ctx.withEnv env))) := by
      rw [List.forall₂_map_left_iff, List.forall₂_map_right_iff, List.forall₂_same]
      intro a ha
      exact ihargs a ha fun name hn => h name (hn.of_subOf (.arg ha .self))
    rw [check, check, checkAll_eq_map, checkAll_eq_map]
    exact Context.checkCall_static hf hargs

/-- **What variables hold, and names that are not mentioned, do not matter.** Two environments
declare the same under each name of an identifier that an expression reaches.

It has a check in both or in neither. The two nodes have the same shape, and at each place the same
kind, place, types and constant, if there is one; the errors have the same codes and places, in the
same order. -/
theorem check_noninterference {a : Arena} {root : ExprId}
    (h : ∀ name, a.Mentions root name → ctx.env.AgreesAt env name) :
    (a.check? ctx root).map Checked.static =
      (a.check? (ctx.withEnv env) root).map Checked.static := by
  rw [Arena.check?_eq, Arena.check?_eq]
  cases htree : a.tree? root with
  | none => rfl
  | some t =>
    rw [Option.map_some, Option.map_some, Option.map_some, Option.map_some]
    exact congrArg some (Tree.check_static fun name hn => h name ((Arena.mentions_iff htree).1 hn))

end

/-! ## A call of a variable

`(x)(1)`, where `x` is a variable of type `int`. -/

/-- The environment of the variable alone, which holds a number. -/
def Env.ofVar (i : ℤ) : Env := (Env.empty.defineVar ⟨1⟩ .int (.int i)).2

/-- The names and numbers of the call, and the variable, which holds seven. -/
def Context.callOfVar : Context where
  names := { strings := #["", "x", "1"], numbers := {} }
  env := .ofVar 7
  word := .bits64

/-- The expression `(x)(1)`. -/
def Arena.callOfVar : Arena where
  exprs := #[⟨.leaf (.ident ⟨1⟩), ⟨1, 2⟩⟩, ⟨.paren ⟨0⟩, ⟨0, 3⟩⟩, ⟨.leaf (.int ⟨2⟩), ⟨4, 5⟩⟩,
    ⟨.call ⟨1⟩ ⟨0, 1⟩, ⟨0, 6⟩⟩]
  args := #[⟨2⟩]

/-- The message quotes what the variable holds, seven or eight. Besides it the call is checked the
same, also where a name that is not mentioned is that of a package. -/
theorem check_noninterference_callOfVar : ∃ r q,
    Arena.callOfVar.check? .callOfVar ⟨3⟩ = some r ∧
    Arena.callOfVar.check? (Context.callOfVar.withEnv ((Env.ofVar 8).definePackage ⟨2⟩)) ⟨3⟩ =
      some q ∧
    r.static = q.static ∧
    r.errors.map CheckError.message = ["cannot call non-function 7"] ∧
    q.errors.map CheckError.message = ["cannot call non-function 8"] := by
  let call : Tree := .call (.paren (.leaf (.ident ⟨1⟩) ⟨1, 2⟩) ⟨0, 3⟩) [.leaf (.int ⟨2⟩) ⟨4, 5⟩]
    ⟨0, 6⟩
  have htree : Arena.callOfVar.tree? ⟨3⟩ = some call := rfl
  have hagrees : ∀ name, Arena.callOfVar.Mentions ⟨3⟩ name →
      Context.callOfVar.env.AgreesAt ((Env.ofVar 8).definePackage ⟨2⟩) name := by
    have honly : ∀ t : Tree, t.SubOf call →
        ∀ name span, t = .leaf (.ident name) span → name = ⟨1⟩ := by
      simp [call, Tree.forall_subOf_call, Tree.forall_subOf_paren, Tree.forall_subOf_leaf]
    intro name hname
    obtain ⟨span, h⟩ := (Arena.mentions_iff htree).2 hname
    rw [honly _ h name span rfl]
    exact ⟨rfl, rfl, rfl, rfl⟩
  have hsame := check_noninterference hagrees
  rw [Arena.check?_of_tree? htree, Arena.check?_of_tree? htree] at hsame
  exact ⟨_, _, Arena.check?_of_tree? htree, Arena.check?_of_tree? htree, Option.some.inj hsame,
    by decide +kernel, by decide +kernel⟩

end ConstCheck
