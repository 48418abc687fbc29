import ConstCheck.Check.Checker

/-!
# An arena is checked as the tree it means

The checker follows the numbers of an arena. What it finds is what the rules of the forms find on
the finite tree, so statements about checks are proved on trees, by induction on the tree.

* `Tree.induction`, `Tree.check_induction`: induction on trees; what every rule preserves holds of
  every check.
* `Tree.SubOf`, `Node.PartOf`: the expressions in an expression, and the nodes of a checked one, at
  every depth.
* `Context.checkLeaf_result`: what a leaf is found to be, once for all proofs about leaves.
* `Context.resolves`: what a name stands for, by where it is found.
* `Tree.ofName?_of_builtin`: the name of a builtin that is called is found again.
* `Context.callBuiltin_cases`: what a call of a builtin comes to.
* `Tree.partOf_check_iff`: the nodes of a checked expression are the checks of the expressions in
  it.
* `Arena.check?_eq` (every arena, shared and forward numbers included): **the check of an
  expression is the check of its tree**, and there is one if and only if there is the other.
-/

namespace ConstCheck

variable {ctx : Context}

/-- A property that every rule of the checker preserves. -/
structure Context.Preserves (ctx : Context) (P : Checked → Prop) : Prop where
  missing : P Context.checkMissing
  leaf : ∀ l span, P (ctx.checkLeaf l span)
  paren : ∀ c span, P c → P (Context.checkParen c span)
  binary : ∀ op l r span, P l → P r → P (ctx.checkBinary op l r span)
  call : ∀ f args span, P f → (∀ c ∈ args, P c) → P (ctx.checkCall f args span)

namespace Tree

/-- **Induction on trees**, with what is to be proved at hand for every argument of a call. -/
@[elab_as_elim, induction_eliminator]
theorem induction {P : Tree → Prop} (missing : P .missing)
    (leaf : ∀ l span, P (.leaf l span)) (paren : ∀ inner span, P inner → P (.paren inner span))
    (binary : ∀ op left right span, P left → P right → P (.binary op left right span))
    (call : ∀ func args span, P func → (∀ t ∈ args, P t) → P (.call func args span)) (t : Tree) :
    P t := by
  refine @Tree.rec P (fun ts => ∀ t ∈ ts, P t) missing leaf paren binary call ?_ ?_ t
  · exact fun t ht => absurd ht List.not_mem_nil
  · intro t ts ht hts
    exact List.forall_mem_cons.2 ⟨ht, hts⟩

theorem checkAll_eq_map (ctx : Context) (ts : List Tree) :
    checkAll ctx ts = ts.map (check ctx) := by
  induction ts with
  | nil => rfl
  | cons t ts ih => rw [checkAll, ih, List.map_cons]

/-- **Induction along the rules of the checker.** -/
theorem check_induction {P : Checked → Prop} (h : ctx.Preserves P) (t : Tree) :
    P (t.check ctx) := by
  induction t with
  | missing => exact h.missing
  | leaf l span => exact h.leaf l span
  | paren inner span ih => exact h.paren _ span ih
  | binary op left right span ihl ihr => exact h.binary op _ _ span ihl ihr
  | call func args span ihf ihargs =>
    refine h.call _ _ span ihf fun c hc => ?_
    rw [checkAll_eq_map] at hc
    obtain ⟨t, ht, rfl⟩ := List.mem_map.1 hc
    exact ihargs t ht

end Tree

/-! ## The expressions in an expression -/

namespace Tree

/-- An expression is part of another: it is the other, or stands in it. -/
inductive SubOf (s : Tree) : Tree → Prop
  | self : SubOf s s
  | paren {t span} (h : SubOf s t) : SubOf s (.paren t span)
  | left {op l r span} (h : SubOf s l) : SubOf s (.binary op l r span)
  | right {op l r span} (h : SubOf s r) : SubOf s (.binary op l r span)
  | func {f args span} (h : SubOf s f) : SubOf s (.call f args span)
  | arg {f args a span} (ha : a ∈ args) (h : SubOf s a) : SubOf s (.call f args span)

theorem SubOf.trans {s t u : Tree} (h₁ : s.SubOf t) (h₂ : t.SubOf u) : s.SubOf u := by
  induction h₂ with
  | self => exact h₁
  | paren _ ih => exact .paren ih
  | left _ ih => exact .left ih
  | right _ ih => exact .right ih
  | func _ ih => exact .func ih
  | arg ha _ ih => exact .arg ha ih

section

variable {P : Tree → Prop}

theorem forall_subOf_leaf {l : Leaf} {span : Span} :
    (∀ s : Tree, s.SubOf (.leaf l span) → P s) ↔ P (.leaf l span) := by
  refine ⟨fun h => h _ .self, fun h s hs => ?_⟩
  cases hs
  exact h

theorem forall_subOf_paren {t : Tree} {span : Span} :
    (∀ s : Tree, s.SubOf (.paren t span) → P s) ↔
      P (.paren t span) ∧ ∀ s : Tree, s.SubOf t → P s := by
  refine ⟨fun h => ⟨h _ .self, fun s hs => h s (.paren hs)⟩, fun h s hs => ?_⟩
  cases hs with
  | self => exact h.1
  | paren hs => exact h.2 s hs

theorem forall_subOf_binary {op : Operator} {l r : Tree} {span : Span} :
    (∀ s : Tree, s.SubOf (.binary op l r span) → P s) ↔
      P (.binary op l r span) ∧ (∀ s : Tree, s.SubOf l → P s) ∧ ∀ s : Tree, s.SubOf r → P s := by
  refine ⟨fun h => ⟨h _ .self, fun s hs => h s (.left hs), fun s hs => h s (.right hs)⟩,
    fun h s hs => ?_⟩
  cases hs with
  | self => exact h.1
  | left hs => exact h.2.1 s hs
  | right hs => exact h.2.2 s hs

theorem forall_subOf_call {f arg : Tree} {span : Span} :
    (∀ s : Tree, s.SubOf (.call f [arg] span) → P s) ↔
      P (.call f [arg] span) ∧ (∀ s : Tree, s.SubOf f → P s) ∧ ∀ s : Tree, s.SubOf arg → P s := by
  refine ⟨fun h => ⟨h _ .self, fun s hs => h s (.func hs),
    fun s hs => h s (.arg (List.mem_singleton_self _) hs)⟩, fun h s hs => ?_⟩
  cases hs with
  | self => exact h.1
  | func hs => exact h.2.1 s hs
  | arg ha hs =>
    cases List.mem_singleton.1 ha
    exact h.2.2 s hs

end

end Tree

/-! ## The nodes of a checked expression -/

/-- A node is part of an expression: it is the expression's own, or stands below it. -/
inductive Node.PartOf (n : Node) : Node → Prop
  | self : PartOf n n
  | paren {inner span info} (h : PartOf n inner) : PartOf n (.mk span (.paren inner) info)
  | left {op l r span info} (h : PartOf n l) : PartOf n (.mk span (.binary op l r) info)
  | right {op l r span info} (h : PartOf n r) : PartOf n (.mk span (.binary op l r) info)
  | func {f args span info} (h : PartOf n f) : PartOf n (.mk span (.call f args) info)
  | arg {f args a span info} (ha : a ∈ args) (h : PartOf n a) :
    PartOf n (.mk span (.call f args) info)

theorem Node.PartOf.trans {a b c : Node} (h₁ : a.PartOf b) (h₂ : b.PartOf c) : a.PartOf c := by
  induction h₂ with
  | self => exact h₁
  | paren _ ih => exact .paren ih
  | left _ ih => exact .left ih
  | right _ ih => exact .right ih
  | func _ ih => exact .func ih
  | arg ha _ ih => exact .arg ha ih

/-- What a leaf is found to be: a literal, what a name stands for, or an error. -/
inductive Context.LeafResult (ctx : Context) (span : Span) : Checked → Prop
  | number {text : List Char} {n : Number}
    (h : Literal.int? text = some n ∨ Literal.float? text = some n ∨ Literal.imag? text = some n) :
    LeafResult ctx span ⟨.mk span .literal (.ofConst (.number n)), []⟩
  | malformed (kind : NumKind) (text : String) :
    LeafResult ctx span ⟨.mk span .literal (.ofConst (.number (.zero kind))),
      [⟨span, .invalidLiteral kind text⟩]⟩
  | rune (c : Char) : LeafResult ctx span ⟨.mk span .literal (.ofConst (.number (.ofRune c))), []⟩
  | string (s : String) :
    LeafResult ctx span ⟨.mk span .literal (.ofConst (.untyped (.string s))), []⟩
  | const {name : Name} {c : Const} (h : ctx.resolve? name = some (.const c)) :
    LeafResult ctx span ⟨.mk span (.ident name) (.ofConst c), []⟩
  | reading (name : Name) (v : TypedValue) :
    LeafResult ctx span ⟨.mk span (.ident name) (.ofReading v), []⟩
  | builtin {name : Name} {b : Builtin} (h : ctx.resolve? name = some (.builtin b)) :
    LeafResult ctx span ⟨.mk span (.builtin name) .unknown, []⟩
  | type (ty : Ty) : LeafResult ctx span ⟨.mk span (.typeName ty) .unknown, []⟩
  | undefined (name : Name) (text : String) :
    LeafResult ctx span ⟨.mk span (.ident name) .unknown, [⟨span, .undefinedIdentifier text⟩]⟩

/-- **What a leaf is found to be.** -/
theorem Context.checkLeaf_result (ctx : Context) (l : Leaf) (span : Span) :
    ctx.LeafResult span (ctx.checkLeaf l span) := by
  have hnumber : ∀ (text : Name) (kind : NumKind) (parse : List Char → Option Number),
      (∀ cs n, parse cs = some n →
        Literal.int? cs = some n ∨ Literal.float? cs = some n ∨ Literal.imag? cs = some n) →
      ctx.LeafResult span (ctx.checkNumber text kind parse span) := by
    intro text kind parse hparse
    unfold checkNumber
    simp only
    split
    · rename_i n hn
      exact .number (hparse _ n hn)
    · exact .malformed kind _
  cases l with
  | int text => exact hnumber text .int _ fun _ _ h => .inl h
  | float text => exact hnumber text .float _ fun _ _ h => .inr (.inl h)
  | imag text => exact hnumber text .complex _ fun _ _ h => .inr (.inr h)
  | rune c => exact .rune c
  | string text => exact .string _
  | ident name =>
    simp only [checkLeaf, checkIdent]
    split
    · rename_i h
      exact .const h
    · exact .reading name _
    · rename_i h
      exact .builtin h
    · exact .type _
    · exact .undefined name _

/-- What a name stands for, by where it is found. -/
inductive Context.Resolves (ctx : Context) (name : Name) : Meaning → Prop
  | nil : Resolves ctx name (.const (.untyped .nil))
  | var {x : Variable} (h : ctx.env.var? name = some x) :
    Resolves ctx name (.reading (ctx.env.current x))
  | const {c : Const} (h : ctx.env.const? name = some c) : Resolves ctx name (.const c)
  | func {ty : Ty} (h : ctx.env.func? name = some ty) : Resolves ctx name (.reading ⟨ty, .func name⟩)
  | builtin {b : Builtin} (h : Builtin.ofName? (ctx.names.lookup name) = some b) :
    Resolves ctx name (.builtin b)
  | package (h : ctx.env.hasPackage name) :
    Resolves ctx name (.reading ⟨.package, .package name⟩)
  | bool (b : Bool) : Resolves ctx name (.const (.untyped (.bool b)))
  | type {ty : Ty} (h : Ty.ofName? (ctx.names.lookup name) = some ty) :
    Resolves ctx name (.type ty)

/-- **What a name stands for is found in one of the tables.** -/
theorem Context.resolves {name : Name} {m : Meaning} (h : ctx.resolve? name = some m) :
    ctx.Resolves name m := by
  unfold resolve? at h
  simp only at h
  split at h
  · cases h; exact .nil
  split at h
  · cases h; exact .var ‹_›
  split at h
  · cases h; exact .const ‹_›
  split at h
  · cases h; exact .func ‹_›
  split at h
  · cases h; exact .builtin ‹_›
  split at h
  · cases h; exact .package ‹_›
  split at h
  · cases h; exact .bool true
  split at h
  · cases h; exact .bool false
  · obtain ⟨ty, hty, rfl⟩ := Option.map_eq_some_iff.1 h
    exact .type hty

/-- **The name of a builtin that a checked expression stands for is found again** when it is
called: no expression but an identifier is a builtin, and it was found there. -/
theorem Tree.ofName?_of_builtin {t : Tree} {name : Name}
    (h : (t.check ctx).node.kind = .builtin name) :
    ∃ b, Builtin.ofName? (ctx.names.lookup name) = some b := by
  -- parentheses around a builtin are no builtin, so the node is that of a leaf
  cases t with
  | leaf l span =>
    have hleaf := ctx.checkLeaf_result l span
    simp only [check] at h
    generalize ctx.checkLeaf l span = r at h hleaf
    cases hleaf with
    | builtin hres =>
      cases h
      cases Context.resolves hres with
      | builtin hb => exact ⟨_, hb⟩
    | _ => cases h
  | _ => cases h

/-- What a call of a builtin by name comes to: an internal error for a name of none, an error for
the number of arguments, or the builtin on its arguments. -/
theorem Context.callBuiltin_cases (ctx : Context) (name : Name) (args : List Node) (span : Span) :
    (Builtin.ofName? (ctx.names.lookup name) = none ∧
      ctx.callBuiltin name args span = .failed span .internal) ∨
    ∃ b, Builtin.ofName? (ctx.names.lookup name) = some b ∧
      ((args.length ≠ b.arity ∧ ctx.callBuiltin name args span =
        .failed span (.wrongArgumentCount (ctx.names.lookup name) b.arity args.length)) ∨
      args.length = b.arity ∧ ctx.callBuiltin name args span = ctx.applyBuiltin b args span) := by
  unfold callBuiltin
  cases hb : Builtin.ofName? (ctx.names.lookup name) with
  | none => exact .inl ⟨rfl, by simp only [hb]⟩
  | some b =>
    simp only [hb]
    by_cases hcount : args.length = b.arity
    · exact .inr ⟨b, rfl, .inr ⟨hcount, if_neg fun h => h hcount⟩⟩
    · exact .inr ⟨b, rfl, .inl ⟨hcount, if_pos hcount⟩⟩

/-- A leaf has no part but itself. -/
theorem Context.partOf_checkLeaf {l : Leaf} {span : Span} {n : Node}
    (h : n.PartOf (ctx.checkLeaf l span).node) : n = (ctx.checkLeaf l span).node := by
  have hleaf := ctx.checkLeaf_result l span
  generalize ctx.checkLeaf l span = r at h hleaf ⊢
  cases hleaf <;> cases h <;> rfl

/-- **The nodes of a checked expression are the checks of the expressions in it.** -/
theorem Tree.partOf_check_iff {t : Tree} {n : Node} :
    n.PartOf (t.check ctx).node ↔ ∃ s : Tree, s.SubOf t ∧ n = (s.check ctx).node := by
  constructor
  · intro h
    induction t with
    | missing => cases h; exact ⟨.missing, .self, rfl⟩
    | leaf l span => exact ⟨_, .self, Context.partOf_checkLeaf h⟩
    | paren inner span ih =>
      cases h with
      | self => exact ⟨_, .self, rfl⟩
      | paren h =>
        obtain ⟨s, hs, hn⟩ := ih h
        exact ⟨s, .paren hs, hn⟩
    | binary op l r span ihl ihr =>
      cases h with
      | self => exact ⟨_, .self, rfl⟩
      | left h =>
        obtain ⟨s, hs, hn⟩ := ihl h
        exact ⟨s, .left hs, hn⟩
      | right h =>
        obtain ⟨s, hs, hn⟩ := ihr h
        exact ⟨s, .right hs, hn⟩
    | call f args span ihf ihargs =>
      cases h with
      | self => exact ⟨_, .self, rfl⟩
      | func h =>
        obtain ⟨s, hs, hn⟩ := ihf h
        exact ⟨s, .func hs, hn⟩
      | arg ha h =>
        simp only [checkAll_eq_map, List.map_map, List.mem_map, Function.comp_apply] at ha
        obtain ⟨a, ha, rfl⟩ := ha
        obtain ⟨s, hs, hn⟩ := ihargs a ha h
        exact ⟨s, .arg ha hs, hn⟩
  · rintro ⟨s, hs, rfl⟩
    induction hs with
    | self => exact .self
    | paren _ ih => exact .paren ih
    | left _ ih => exact .left ih
    | right _ ih => exact .right ih
    | func _ ih => exact .func ih
    | arg ha _ ih =>
      refine .arg ?_ ih
      rw [checkAll_eq_map]
      exact List.mem_map_of_mem (List.mem_map_of_mem ha)

namespace Arena

/-- Following numbers to a depth checks the tree of that depth. -/
theorem checkWithin_eq (a : Arena) (ctx : Context) :
    ∀ depth id, a.checkWithin ctx depth id = (a.treeWithin depth id).map (Tree.check ctx) := by
  intro depth
  induction depth with
  | zero => intro id; rfl
  | succ depth ih =>
    intro id
    -- one argument without a tree of this depth leaves the call without one
    have hlist : ∀ ids : List ExprId, ids.mapM (a.checkWithin ctx depth) =
        (ids.mapM (a.treeWithin depth)).map (Tree.checkAll ctx) := by
      intro ids
      induction ids with
      | nil => rfl
      | cons id ids ihs =>
        simp only [List.mapM_cons, ih, ihs]
        cases a.treeWithin depth id <;> cases ids.mapM (a.treeWithin depth) <;> rfl
    unfold checkWithin treeWithin
    cases a.get? id with
    | none => rfl
    | some e =>
      obtain ⟨kind, span⟩ := e
      cases kind with
      | leaf l => rfl
      | paren inner =>
        simp only [ih]
        cases a.treeWithin depth inner <;> rfl
      | binary op l r =>
        simp only [ih]
        cases a.treeWithin depth l <;> cases a.treeWithin depth r <;> rfl
      | call f args =>
        simp only [ih, hlist]
        cases a.treeWithin depth f <;> cases (a.list args).mapM (a.treeWithin depth) <;> rfl

/-- **The check of an expression is the check of its tree.** -/
theorem check?_eq (a : Arena) (ctx : Context) (id : ExprId) :
    a.check? ctx id = (a.tree? id).map (Tree.check ctx) := checkWithin_eq a ctx _ id

theorem check?_of_tree? {a : Arena} {id : ExprId} {t : Tree} (h : a.tree? id = some t) :
    a.check? ctx id = some (t.check ctx) := by
  rw [check?_eq, h]; rfl

theorem exists_tree?_of_check? {a : Arena} {id : ExprId} {c : Checked}
    (h : a.check? ctx id = some c) : ∃ t, a.tree? id = some t ∧ c = t.check ctx := by
  rw [check?_eq] at h
  obtain ⟨t, ht, rfl⟩ := Option.map_eq_some_iff.1 h
  exact ⟨t, ht, rfl⟩

end Arena

end ConstCheck
