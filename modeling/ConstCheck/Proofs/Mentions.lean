import ConstCheck.Proofs.Reach

/-!
# The names that an expression mentions

An expression mentions the names that stand in it as identifiers. Its check looks up these names
alone, so a binding of any other name changes nothing.

* `Tree.Mentions`, `Arena.Mentions`: a name stands in an expression as an identifier.
* `Arena.mentions_iff` (every arena): an expression mentions the names of the identifiers that it
  reaches.
* `Context.withEnv`: the same context, in another environment.
* `Tree.check_withEnv` (every tree): **the check of an expression depends on what the names that it
  mentions stand for**, and on the contents of the cells.
-/

namespace ConstCheck

/-! ## Names in an expression -/

section

variable {s t : Tree} {name : Name}

/-- A name stands in an expression as an identifier. -/
def Tree.Mentions (t : Tree) (name : Name) : Prop :=
  ∃ span, Tree.SubOf (.leaf (.ident name) span) t

theorem Tree.mentions_ident (name : Name) (span : Span) :
    (Tree.leaf (.ident name) span).Mentions name := ⟨span, .self⟩

/-- What a part mentions, the whole mentions. -/
theorem Tree.Mentions.of_subOf (h : s.Mentions name) (hs : s.SubOf t) : t.Mentions name := by
  obtain ⟨span, hspan⟩ := h
  exact ⟨span, hspan.trans hs⟩

namespace Arena

variable {a : Arena} {id root : ExprId}

/-- An expression reaches an identifier of a name. -/
def Mentions (a : Arena) (root : ExprId) (name : Name) : Prop :=
  ∃ id span, a.Reaches root id ∧ a.get? id = some ⟨.leaf (.ident name), span⟩

/-- A leaf is the tree of an expression without children. -/
theorem tree?_eq_leaf_iff {l : Leaf} {span : Span} :
    a.tree? id = some (.leaf l span) ↔ a.get? id = some ⟨.leaf l, span⟩ := by
  unfold tree? treeWithin
  cases a.get? id with
  | none => simp
  | some e =>
    obtain ⟨kind, place⟩ := e
    cases kind <;> simp [Option.bind_eq_some_iff]

/-- **An expression mentions the names of the identifiers that it reaches.** -/
theorem mentions_iff (h : a.tree? root = some t) : t.Mentions name ↔ a.Mentions root name := by
  simp only [Tree.Mentions, Mentions, subOf_iff_reaches h, tree?_eq_leaf_iff]
  exact exists_comm

end Arena

end

/-! ## Other environments -/

namespace Context

/-- The same context, in another environment. -/
def withEnv (ctx : Context) (env : Env) : Context := { ctx with env }

variable {ctx : Context} {env : Env}

/-- A call looks at the contents of the cells, and at nothing else in the environment. -/
theorem callInfo_withEnv (hstore : env.store = ctx.env.store) (f : Node) (args : List Node)
    (span : Span) : (ctx.withEnv env).callInfo f args span = ctx.callInfo f args span := by
  have happly : ∀ b, (ctx.withEnv env).applyBuiltin b args span = ctx.applyBuiltin b args span := by
    intro b
    simp only [applyBuiltin, withEnv, hstore]
    rfl
  obtain ⟨place, kind, info⟩ := f
  cases kind with
  | builtin name =>
    simp only [callInfo, Node.kind, callBuiltin, happly]
    rfl
  | _ => rfl

end Context

/-- **The check of an expression depends on what the names that it mentions stand for**, and on the
contents of the cells. -/
theorem Tree.check_withEnv {ctx : Context} {env : Env} {t : Tree}
    (hstore : env.store = ctx.env.store)
    (h : ∀ name, t.Mentions name → (ctx.withEnv env).resolve? name = ctx.resolve? name) :
    t.check (ctx.withEnv env) = t.check ctx := by
  induction t with
  | missing => rfl
  | leaf l span =>
    cases l with
    | ident name =>
      simp only [check, Context.checkLeaf, Context.checkIdent, h name (mentions_ident name span)]
      rfl
    | _ => rfl
  | paren inner span ih =>
    have hi := ih fun name hn => h name (hn.of_subOf (.paren .self))
    rw [check, check, hi]
  | binary op l r span ihl ihr =>
    have hl := ihl fun name hn => h name (hn.of_subOf (.left .self))
    have hr := ihr fun name hn => h name (hn.of_subOf (.right .self))
    rw [check, check, hl, hr]
    rfl
  | call f args span ihf ihargs =>
    have hf := ihf fun name hn => h name (hn.of_subOf (.func .self))
    have hargs : args.map (check (ctx.withEnv env)) = args.map (check ctx) := by
      refine List.map_congr_left fun a ha => ihargs a ha ?_
      exact fun name hn => h name (hn.of_subOf (.arg ha .self))
    rw [check, check, checkAll_eq_map, checkAll_eq_map, hf, hargs]
    simp only [Context.checkCall, Context.callInfo_withEnv hstore]

end ConstCheck
