import ConstCheck.Proofs.Unfold

/-!
# What a rule gives its node

Each rule of the checker says what is known of its node. These lemmas take a node's constant back
to where it comes from, so that an invariant of constants is proved once for each source of them.

* `Tree.info_form`: what is known of a node is a constant, a reading, or types alone.
* `Info.Computed`: what is known of operations and calls, which read nothing.
* `Info.static`: what is known of a node but for what is read of a variable.
* `Context.resolve?_const`: the constants that identifiers stand for.
* `Context.binaryInfo_const`: a constant operation is a fold of two constants.
* `Context.callInfo_const`: a constant call is a conversion or a folded builtin.
-/

namespace ConstCheck

variable {ctx : Context}

/-! ## The forms of what is known -/

/-- What a rule can say of its node. -/
inductive Info.Form : Info → Prop
  | ofConst (c : Const) : Form (.ofConst c)
  | ofReading (v : TypedValue) : Form (.ofReading v)
  | ofTypes (known : List KnownType) : Form (.ofTypes known)

namespace Info.Form

theorem unknown : Form .unknown := ofTypes []

/-- A constant is all that is known of its node. -/
theorem eq_ofConst {i : Info} (h : i.Form) {c : Const} (hc : i.constant? = some c) :
    i = .ofConst c := by
  cases h with
  | ofConst d =>
    rw [constant?_ofConst, Option.some.injEq] at hc
    rw [hc]
  | ofReading v => simp [Info.ofReading, constant?] at hc
  | ofTypes known => simp [Info.ofTypes, constant?] at hc

theorem isSome_of_isConst {i : Info} (h : i.Form) (hc : i.isConst) : i.value.isSome := by
  cases h with
  | ofConst c => rfl
  | ofReading v => rfl
  | ofTypes known => cases hc

theorem known_eq {i : Info} (h : i.Form) {c : Const} (hc : i.value = some c) :
    i.known = [c.knownType] := by
  cases h with
  | ofConst d => cases hc; rfl
  | ofReading v => cases hc; rfl
  | ofTypes known => cases hc

end Info.Form

/-- What the rule of an operation or of a call can say of its node. -/
inductive Info.Computed : Info → Prop
  | ofConst (c : Const) : Computed (.ofConst c)
  | ofTypes (known : List KnownType) : Computed (.ofTypes known)

namespace Info.Computed

theorem unknown : Computed .unknown := ofTypes []

theorem form {i : Info} (h : i.Computed) : i.Form := by
  cases h with
  | ofConst c => exact .ofConst c
  | ofTypes known => exact .ofTypes known

/-- A value that is computed is constant. -/
theorem isConst_of_isSome {i : Info} (h : i.Computed) (hv : i.value.isSome) : i.isConst := by
  cases h with
  | ofConst c => rfl
  | ofTypes known => cases hv

end Info.Computed

/-- What is known but for what is read of a variable: the value is that of a constant. -/
def Info.static (i : Info) : Info := { i with value := i.constant? }

namespace Info

variable {i j : Info}

@[simp]
theorem constant?_static (i : Info) : i.static.constant? = i.constant? := by
  obtain ⟨known, isConst, value⟩ := i
  cases isConst <;> rfl

theorem known_of_static (h : i.static = j.static) : i.known = j.known :=
  (Info.mk.inj h).1

theorem singleType?_of_static (h : i.static = j.static) : i.singleType? = j.singleType? := by
  rw [singleType?, singleType?, known_of_static h]

theorem constant?_of_static (h : i.static = j.static) : i.constant? = j.constant? := by
  rw [← constant?_static i, h, constant?_static]

end Info

theorem Context.checkLeaf_form (l : Leaf) (span : Span) :
    (ctx.checkLeaf l span).node.info.Form := by
  have hleaf := ctx.checkLeaf_result l span
  generalize ctx.checkLeaf l span = r at hleaf ⊢
  cases hleaf with
  | number | malformed | rune | string | const => exact .ofConst _
  | reading name v => exact .ofReading v
  | builtin | type | undefined => exact .unknown

theorem Context.binaryInfo_computed (op : Operator) (l r : Node) (span : Span) :
    (ctx.binaryInfo op l r span).info.Computed := by
  simp only [binaryInfo]
  split
  · simp only
    split
    · exact .ofConst _
    · exact .unknown
  · exact .unknown

theorem Context.applyBuiltin_computed (b : Builtin) (args : List Node) (span : Span) :
    (ctx.applyBuiltin b args span).info.Computed := by
  simp only [applyBuiltin]
  split
  · exact .unknown
  split
  · split
    · exact .ofConst _
    · exact .unknown
  · split
    · exact .ofTypes _
    · exact .unknown

theorem Context.callBuiltin_computed (name : Name) (args : List Node) (span : Span) :
    (ctx.callBuiltin name args span).info.Computed := by
  rcases ctx.callBuiltin_cases name args span with ⟨-, he⟩ | ⟨b, -, ⟨-, he⟩ | ⟨-, he⟩⟩
  · rw [he]; exact .unknown
  · rw [he]; exact .unknown
  · rw [he]; exact applyBuiltin_computed b args span

theorem Context.callConversion_computed (ty : Ty) (args : List Node) (span : Span) :
    (ctx.callConversion ty args span).info.Computed := by
  unfold callConversion
  split
  · split
    · simp only
      split
      · exact .ofConst _
      · exact .unknown
    · split
      · split
        · exact .ofTypes _
        · exact .unknown
      · exact .ofTypes _
  · exact .unknown

theorem Context.callFunc_info (ctx : Context) (callee : Node) (sig : Ty.Signature) (found : Nat)
    (span : Span) :
    ∃ known, (ctx.callFunc callee sig found span).info = .ofTypes known := by
  unfold callFunc
  by_cases h : if sig.variadic then sig.params.length ≤ found + 1 else found = sig.params.length
  · exact ⟨sig.results.map .typed, by simp only [h, if_true]⟩
  · exact ⟨[], by simp only [h, if_false]; rfl⟩

theorem Context.callInfo_computed (f : Node) (args : List Node) (span : Span) :
    (ctx.callInfo f args span).info.Computed := by
  unfold callInfo
  split
  · exact callBuiltin_computed _ _ _
  · exact callConversion_computed _ _ _
  · split
    · exact .unknown
    · split
      · rename_i sig _
        obtain ⟨known, hk⟩ := ctx.callFunc_info f sig args.length span
        rw [hk]; exact .ofTypes known
      · exact .unknown

/-- **What is known of a checked expression is a constant, a reading, or types alone.** -/
theorem Tree.info_form (t : Tree) : (t.check ctx).node.info.Form :=
  Tree.check_induction (P := fun c => c.node.info.Form)
    { missing := .unknown
      leaf := Context.checkLeaf_form
      paren := fun _ _ h => h
      binary := fun op _ _ span _ _ => (Context.binaryInfo_computed op _ _ span).form
      call := fun _ _ span _ _ => (Context.callInfo_computed _ _ span).form } t

theorem Tree.info_eq_ofConst {t : Tree} {c : Const} (h : (t.check ctx).node.constant? = some c) :
    (t.check ctx).node.info = .ofConst c := (Tree.info_form t).eq_ofConst h

/-! ## Where constants come from -/

/-- The constants that identifiers stand for: `nil`, named constants, `true` and `false`. -/
theorem Context.resolve?_const {name : Name} {c : Const}
    (h : ctx.resolve? name = some (.const c)) :
    c = .untyped .nil ∨ ctx.env.const? name = some c ∨ ∃ b, c = .untyped (.bool b) := by
  cases resolves h with
  | nil => exact .inl rfl
  | const hc => exact .inr (.inl hc)
  | bool b => exact .inr (.inr ⟨b, rfl⟩)

/-- What is known of an expression that yields a constant, or fails to. -/
def Info.ofConst? : Option Const → Info
  | some c => ofConst c
  | none => unknown

@[simp]
theorem Info.constant?_ofConst? (c : Option Const) : (ofConst? c).constant? = c := by
  cases c <;> rfl

/-- Two constants and what folding them yields. -/
theorem Context.binaryInfo_of_constants {l r : Node} {a b : Const} (op : Operator) (span : Span)
    (hl : l.info = .ofConst a) (hr : r.info = .ofConst b) :
    ctx.binaryInfo op l r span =
      ⟨.ofConst? (a.fold op b ctx.word ⟨span, r.span⟩).value,
        (a.fold op b ctx.word ⟨span, r.span⟩).errors⟩ := by
  simp only [binaryInfo, Node.singleType?, Node.constant?, hl, hr, Info.singleType?_ofConst,
    Info.constant?_ofConst]
  cases (a.fold op b ctx.word ⟨span, r.span⟩).value <;> rfl

/-- What a checked operation on two constants is: their fold, and its errors after theirs. -/
theorem Tree.check_binary_of_constants {l r : Tree} {a b : Const} (op : Operator) (span : Span)
    (hl : (l.check ctx).node.constant? = some a) (hr : (r.check ctx).node.constant? = some b) :
    ((Tree.binary op l r span).check ctx).node.info =
        .ofConst? (a.fold op b ctx.word ⟨span, (r.check ctx).node.span⟩).value ∧
      ((Tree.binary op l r span).check ctx).errors =
        (l.check ctx).errors ++ (r.check ctx).errors ++
          (a.fold op b ctx.word ⟨span, (r.check ctx).node.span⟩).errors := by
  have hinfo : ctx.binaryInfo op (l.check ctx).node (r.check ctx).node span = _ :=
    Context.binaryInfo_of_constants op span (Tree.info_eq_ofConst hl) (Tree.info_eq_ofConst hr)
  simp only [Tree.check, Context.checkBinary, hinfo, Node.info, and_self]

theorem Tree.errors_of_binary {op : Operator} {l r : Tree} {span : Span}
    (h : ((Tree.binary op l r span).check ctx).errors = []) :
    (l.check ctx).errors = [] ∧ (r.check ctx).errors = [] := by
  simp only [check, Context.checkBinary, List.append_eq_nil_iff] at h
  exact h.1

/-- **A constant operation is a fold of two constants.** -/
theorem Context.binaryInfo_const {l r : Node} {op : Operator} {span : Span} {c : Const}
    (h : (ctx.binaryInfo op l r span).info.constant? = some c) :
    ∃ a b, l.constant? = some a ∧ r.constant? = some b ∧
      (a.fold op b ctx.word ⟨span, r.span⟩).value = some c := by
  unfold binaryInfo at h
  split at h
  · rename_i a b _ _ ha hb
    refine ⟨a, b, ha, hb, ?_⟩
    simp only at h
    split at h
    · rename_i d hd
      rw [Info.constant?_ofConst, Option.some.injEq] at h
      rw [hd, h]
    · simp at h
  · simp at h

/-- The arguments of a builtin are the values of its nodes. -/
theorem Context.mem_argsOf {ns : List Node} {as : List Arg} (h : argsOf ns = .ok as) {a : Arg}
    (ha : a ∈ as) : ∃ n ∈ ns, arg? n = some a := by
  induction ns generalizing as with
  | nil =>
    simp only [argsOf, Except.ok.injEq] at h
    subst h; simp at ha
  | cons n ns ih =>
    simp only [argsOf] at h
    cases hn : arg? n with
    | none => simp [hn] at h
    | some x =>
      cases hns : argsOf ns with
      | error e => simp [hn, hns, Except.map] at h
      | ok xs =>
        simp only [hn, hns, Except.map, Except.ok.injEq] at h
        subst h
        rcases List.mem_cons.1 ha with rfl | hmem
        · exact ⟨n, List.mem_cons_self, hn⟩
        · obtain ⟨m, hm, hma⟩ := ih hns hmem
          exact ⟨m, List.mem_cons_of_mem _ hm, hma⟩

/-- A constant argument is the constant of its node. -/
theorem Context.const?_arg {n : Node} {a : Arg} (h : arg? n = some a) {c : Const}
    (hc : a.const? = some c) : n.constant? = some c := by
  unfold arg? at h
  split at h
  · cases h; simp [Arg.const?] at hc
  · obtain ⟨known, -, rfl⟩ := Option.map_eq_some_iff.1 h
    exact hc

/-- A constant that a builtin yields is folded. -/
theorem Context.applyBuiltin_const {b : Builtin} {args : List Node} {span : Span} {c : Const}
    (h : (ctx.applyBuiltin b args span).info.constant? = some c) :
    b.isFoldable ∧ ∃ as s, argsOf args = .ok as ∧
      b.call ctx.word ctx.env.store as = .ok (c, s) := by
  unfold applyBuiltin at h
  split at h
  · simp [Finding.failed] at h
  rename_i as has
  split at h
  · rename_i hfold
    split at h
    · rename_i d s hcall
      rw [Info.constant?_ofConst, Option.some.injEq] at h
      subst h
      simp only [Bool.and_eq_true] at hfold
      exact ⟨hfold.1, as, s, has, hcall⟩
    · simp [Finding.failed] at h
  · split at h
    · simp [Info.ofTypes, Info.constant?] at h
    · simp [Finding.failed] at h

/-- A constant call of a builtin is folded. -/
theorem Context.callBuiltin_const {name : Name} {args : List Node} {span : Span} {c : Const}
    (h : (ctx.callBuiltin name args span).info.constant? = some c) :
    ∃ b, Builtin.ofName? (ctx.names.lookup name) = some b ∧ b.isFoldable ∧
      ∃ as s, argsOf args = .ok as ∧ b.call ctx.word ctx.env.store as = .ok (c, s) := by
  rcases ctx.callBuiltin_cases name args span with ⟨-, he⟩ | ⟨b, hb, ⟨-, he⟩ | ⟨-, he⟩⟩
  · simp [he, Finding.failed] at h
  · simp [he, Finding.failed] at h
  · rw [he] at h
    exact ⟨b, hb, applyBuiltin_const h⟩

/-- A constant conversion converts the constant of its one argument. -/
theorem Context.callConversion_const {ty : Ty} {args : List Node} {span : Span} {c : Const}
    (h : (ctx.callConversion ty args span).info.constant? = some c) :
    ∃ arg a v, args = [arg] ∧ arg.constant? = some a ∧ (a.convert ty ctx.word).1 = some v ∧
      c = .typed v := by
  unfold callConversion at h
  split at h
  · rename_i arg
    split at h
    · rename_i a ha
      refine ⟨arg, a, ?_⟩
      simp only at h
      split at h
      · rename_i v hv
        rw [Info.constant?_ofConst, Option.some.injEq] at h
        exact ⟨v, rfl, ha, hv, h.symm⟩
      · simp at h
    · split at h
      · split at h
        · simp [Info.ofTypes, Info.constant?] at h
        · simp [Finding.failed] at h
      · simp [Info.ofTypes, Info.constant?] at h
  · simp [Finding.failed] at h

/-- A conversion of a constant. -/
theorem Context.callConversion_of_constant {ty : Ty} {arg : Node} {c : Const} (span : Span)
    (h : arg.constant? = some c) :
    ctx.callConversion ty [arg] span =
      ⟨.ofConst? ((c.convert ty ctx.word).1.map .typed),
        (c.convert ty ctx.word).2.map (⟨arg.span, ·⟩)⟩ := by
  simp only [callConversion, h]
  cases (c.convert ty ctx.word).1 <;> rfl

/-- What a checked conversion by name is: what the conversion finds, its errors after those of the
operand. -/
theorem Tree.check_conversion {name : Name} {ty : Ty} (arg : Tree) (place span : Span)
    (h : ctx.resolve? name = some (.type ty)) :
    ((Tree.call (.leaf (.ident name) place) [arg] span).check ctx).node.info =
        (ctx.callConversion ty [(arg.check ctx).node] span).info ∧
      ((Tree.call (.leaf (.ident name) place) [arg] span).check ctx).errors =
        (arg.check ctx).errors ++ (ctx.callConversion ty [(arg.check ctx).node] span).errors := by
  simp only [check, checkAll, Context.checkLeaf, Context.checkIdent, h, Context.checkCall,
    Context.callInfo, Node.kind, Node.info]
  simp

/-- **A constant call is a folded builtin or the conversion of a constant.** -/
theorem Context.callInfo_const {f : Node} {args : List Node} {span : Span} {c : Const}
    (h : (ctx.callInfo f args span).info.constant? = some c) :
    (∃ name b as s, f.kind = .builtin name ∧
        Builtin.ofName? (ctx.names.lookup name) = some b ∧ b.isFoldable ∧
        argsOf args = .ok as ∧ b.call ctx.word ctx.env.store as = .ok (c, s)) ∨
      ∃ ty arg a v, f.kind = .typeName ty ∧ args = [arg] ∧ arg.constant? = some a ∧
        (a.convert ty ctx.word).1 = some v ∧ c = .typed v := by
  unfold callInfo at h
  split at h
  · rename_i name hname
    obtain ⟨b, hb, hfold, as, s, has, hcall⟩ := callBuiltin_const h
    exact .inl ⟨name, b, as, s, hname, hb, hfold, has, hcall⟩
  · rename_i ty hty
    obtain ⟨arg, a, v, harg⟩ := callConversion_const h
    exact .inr ⟨ty, arg, a, v, hty, harg⟩
  · split at h
    · simp at h
    · split at h
      · rename_i sig _
        obtain ⟨known, hk⟩ := ctx.callFunc_info f sig args.length span
        simp [hk, Info.ofTypes, Info.constant?] at h
      · simp [Finding.failed] at h

/-! ## Operations on named constants -/

/-- A context of typed named constants alone, which are numbered in order from one. -/
def Context.ofConsts (word : WordSize) (consts : List (String × TypedValue)) : Context where
  names :=
    let strings := "" :: consts.map Prod.fst
    { strings := strings.toArray, numbers := .ofList strings.zipIdx }
  env := { consts := consts.zipIdx.map fun (c, i) => (⟨i + 1⟩, .typed c.2) }
  word := word

theorem Context.mem_of_const?_ofConsts {word : WordSize} {consts : List (String × TypedValue)}
    {name : Name} {c : Const} (h : (ofConsts word consts).env.const? name = some c) :
    ∃ v ∈ consts.map Prod.snd, c = .typed v := by
  obtain ⟨before, after, heq, -⟩ := List.lookup_eq_some_iff.1 h
  have hmem : (name, c) ∈ (ofConsts word consts).env.consts := by rw [heq]; simp
  obtain ⟨⟨d, i⟩, hd, heq⟩ := List.mem_map.1 hmem
  simp only [Prod.mk.injEq] at heq
  exact ⟨d.2, List.mem_map_of_mem (List.fst_mem_of_mem_zipIdx hd), heq.2.symm⟩

/-- An operation on the names of numbers one and two. -/
def Arena.operation (op : Operator) : Arena where
  exprs := #[⟨.leaf (.ident ⟨1⟩), ⟨0, 1⟩⟩, ⟨.leaf (.ident ⟨2⟩), ⟨4, 5⟩⟩,
    ⟨.binary op ⟨0⟩ ⟨1⟩, ⟨0, 5⟩⟩]

/-- The same operation as a tree. -/
def Tree.operation (op : Operator) : Tree :=
  .binary op (.leaf (.ident ⟨1⟩) ⟨0, 1⟩) (.leaf (.ident ⟨2⟩) ⟨4, 5⟩) ⟨0, 5⟩

theorem Arena.tree?_operation (op : Operator) :
    (operation op).tree? ⟨2⟩ = some (.operation op) := rfl

end ConstCheck
