import ConstCheck.Proofs.Nodes
import Mathlib.Data.List.Forall2

/-!
# Results that are alike

The places of errors, and the words that name an operand in them, decide nothing else. Two results
are alike that say the same of an expression and have errors of the same codes in the same order.
The rules of the checker take alike operands to alike results, with one proviso: a call looks at
its callee, and a builtin at its arguments, for the names of builtins and types.

* `Folded.Alike`, `Finding.Alike`, `Checked.Alike`: results that are alike.
* `Finding.Matches`: findings with errors at related places, which those that are alike need not
  have.
* `Node.SameName`: two nodes are the same builtin or type, or neither is one.
* `Const.fold_alike`: a fold is alike wherever it stands.
* `Context.callInfo_matches`: a call sees of its operands what is known of them but for what is read
  of variables, and of its context the word size.
* `Context.checkParen_alike`, `Context.checkBinary_alike`, `Context.checkCall_alike`: **rules take
  alike operands to alike results**.
-/

namespace ConstCheck

/-- The codes of errors do not tell where they are. -/
theorem codes_at (span : Span) (kinds : List ErrorKind) :
    (kinds.map fun k => CheckError.mk span k).map CheckError.code = kinds.map ErrorKind.code := by
  rw [List.map_map]
  rfl

/-- Lists whose elements have equal images one by one have equal images. -/
theorem map_eq_of_forall₂ {α β γ : Type} {f : α → γ} {g : β → γ} {xs : List α} {ys : List β}
    (h : List.Forall₂ (fun x y => f x = g y) xs ys) : xs.map f = ys.map g := by
  have himages : List.Forall₂ (· = ·) (xs.map f) (ys.map g) := by
    rw [List.forall₂_map_left_iff, List.forall₂_map_right_iff]
    exact h
  rw [List.forall₂_eq_eq_eq] at himages
  exact himages

/-- Of several expressions, the same is seen of the errors if it is seen of each one's. -/
theorem map_errors_eq {α : Type} {f : CheckError → α} {as bs : List Checked}
    (h : List.Forall₂ (fun r s => r.errors.map f = s.errors.map f) as bs) :
    (as.flatMap Checked.errors).map f = (bs.flatMap Checked.errors).map f := by
  rw [List.map_flatMap, List.map_flatMap, List.flatMap_def, List.flatMap_def, map_eq_of_forall₂ h]

/-! ## Folds -/

theorem Folded.codes_after (p : OperationSpan) (kinds : List ErrorKind) (f : Folded) :
    (Folded.after p kinds f).errors.map CheckError.code =
      kinds.map ErrorKind.code ++ f.errors.map CheckError.code := by
  rw [Folded.after, List.map_append, codes_at]

/-- Two folds with the same value, and errors of the same codes. -/
structure Folded.Alike (f g : Folded) : Prop where
  value : f.value = g.value
  codes : f.errors.map CheckError.code = g.errors.map CheckError.code

namespace Folded.Alike

variable {f g : Folded} {p q : OperationSpan}

theorem refl (f : Folded) : f.Alike f := ⟨rfl, rfl⟩

/-- Two failures of the same codes. -/
theorem failed {kinds kinds' : List ErrorKind}
    (h : kinds.map ErrorKind.code = kinds'.map ErrorKind.code) :
    (Folded.failed p kinds).Alike (Folded.failed q kinds') :=
  ⟨rfl, (codes_at _ _).trans (h.trans (codes_at _ _).symm)⟩

theorem narrowed (r : TypedValue × List ErrorKind) :
    (Folded.narrowed p r).Alike (Folded.narrowed q r) :=
  ⟨rfl, (codes_at _ _).trans (codes_at _ _).symm⟩

theorem after {kinds : List ErrorKind} (h : f.Alike g) :
    (Folded.after p kinds f).Alike (Folded.after q kinds g) :=
  ⟨h.value, by rw [codes_after, codes_after, h.codes]⟩

end Folded.Alike

section

variable {op : Operator} {word : WordSize} {p q : OperationSpan}

theorem foldUntyped_alike {a b : UntypedConst} :
    (foldUntyped op a b p).Alike (foldUntyped op a b q) := by
  unfold foldUntyped
  cases a.kind.promote b.kind with
  | error misfits => exact .failed rfl
  | ok kind =>
    simp only
    cases a.operate op kind b with
    | ok c => exact .refl _
    | error e =>
      cases e with
      | divideByZero => exact ⟨rfl, rfl⟩
      | undefined | fault => exact .failed rfl

theorem foldAt_alike {a b : TypedValue} {ty : Ty} :
    (foldAt op a b ty word p).Alike (foldAt op a b ty word q) := by
  unfold foldAt
  cases TypedValue.operate op a b ty with
  | none => exact .failed rfl
  | some r =>
    cases r with
    | ok c => exact .narrowed _
    | error e =>
      cases e with
      | divideByZero => exact ⟨rfl, rfl⟩
      | undefined | fault => exact .failed rfl

theorem foldMixed_alike {v : TypedValue} {u : UntypedConst} {side : Side} :
    (foldMixed op v u side word p).Alike (foldMixed op v u side word q) := by
  unfold foldMixed
  by_cases hconv : u.kind.convertsTo v.ty
  · by_cases hdef : op.definedOn v.ty
    · simp only [hconv, hdef, Bool.not_true, Bool.false_eq_true, if_false]
      exact .after foldAt_alike
    · simp only [hconv, hdef, Bool.not_true, Bool.not_false, Bool.false_eq_true, if_false, if_true]
      exact .failed rfl
  · simp only [hconv, Bool.not_false, if_true]
    exact .failed rfl

theorem foldTyped_alike {a b : TypedValue} :
    (foldTyped op a b word p).Alike (foldTyped op a b word q) := by
  unfold foldTyped
  cases commonType? a.ty b.ty with
  | none => exact .failed rfl
  | some ty =>
    by_cases hdef : op.definedOn ty
    · simp only [hdef, if_true]
      exact foldAt_alike
    · simp only [hdef, Bool.false_eq_true, if_false]
      exact .failed rfl

/-- **A fold is alike wherever it stands.** -/
theorem Const.fold_alike (op : Operator) (a b : Const) (word : WordSize) (p q : OperationSpan) :
    (a.fold op b word p).Alike (a.fold op b word q) := by
  cases a with
  | untyped a =>
    cases b with
    | untyped b => exact foldUntyped_alike
    | typed b => exact foldMixed_alike
  | typed a =>
    cases b with
    | untyped b => exact foldMixed_alike
    | typed b => exact foldTyped_alike

end

/-! ## Calls -/

/-- Two findings that say the same, with errors of the same codes. -/
structure Finding.Alike (f g : Finding) : Prop where
  info : f.info = g.info
  codes : f.errors.map CheckError.code = g.errors.map CheckError.code

section

variable {P : Span → Span → Prop} {p q : Span}

/-- Two errors of one code, at related places. -/
structure CheckError.Matches (P : Span → Span → Prop) (e f : CheckError) : Prop where
  code : e.code = f.code
  place : P e.span f.span

/-- The same errors at two related places. -/
theorem CheckError.matches_at (h : P p q) (kinds : List ErrorKind) :
    List.Forall₂ (Matches P) (kinds.map (⟨p, ·⟩)) (kinds.map (⟨q, ·⟩)) := by
  rw [List.forall₂_map_left_iff, List.forall₂_map_right_iff]
  exact List.forall₂_same.2 fun k _ => ⟨rfl, h⟩

/-- Two findings that say the same, with errors of the same codes at related places. -/
structure Finding.Matches (P : Span → Span → Prop) (f g : Finding) : Prop where
  info : f.info = g.info
  errors : List.Forall₂ (CheckError.Matches P) f.errors g.errors

theorem Finding.Matches.alike {f g : Finding} (h : f.Matches P g) : f.Alike g :=
  ⟨h.info, map_eq_of_forall₂ (h.errors.imp fun _ _ hef => hef.code)⟩

/-- Without errors of its own. -/
theorem Finding.Matches.clean (info : Info) : Finding.Matches P ⟨info, []⟩ ⟨info, []⟩ := ⟨rfl, .nil⟩

theorem Finding.Matches.failed {k k' : ErrorKind} (h : P p q) (hcode : k.code = k'.code) :
    (Finding.failed p k).Matches P (Finding.failed q k') := ⟨rfl, .cons ⟨hcode, h⟩ .nil⟩

end

namespace Node

/-- The name that a node has as a builtin, if it is one. -/
def builtin? (n : Node) : Option Name :=
  match n.kind with
  | .builtin name => some name
  | _ => none

/-- The type that a node names, if it names one. -/
def type? (n : Node) : Option Ty :=
  match n.kind with
  | .typeName ty => some ty
  | _ => none

theorem kind_of_builtin? {n : Node} {name : Name} (h : n.builtin? = some name) :
    n.kind = .builtin name := by
  unfold builtin? at h
  split at h
  · rename_i hkind
    rw [hkind, Option.some.inj h]
  · cases h

/-- Two nodes name the same builtin or the same type, or neither names anything. -/
structure SameName (m n : Node) : Prop where
  builtin : m.builtin? = n.builtin?
  type : m.type? = n.type?

theorem SameName.refl (n : Node) : n.SameName n := ⟨rfl, rfl⟩

end Node

/-- What a foldable builtin yields does not depend on the store. -/
theorem Builtin.call_cases {b : Builtin} (hb : b.isFoldable) (word : WordSize) (s s' : Store)
    (args : List Arg) :
    (∃ c, b.call word s args = .ok (c, s) ∧ b.call word s' args = .ok (c, s')) ∨
      ∃ e, b.call word s args = .error e ∧ b.call word s' args = .error e := by
  have keep : ∀ r : Except BuiltinError Const,
      (∃ c, (r.map fun c => (c, s)) = .ok (c, s) ∧ (r.map fun c => (c, s')) = .ok (c, s')) ∨
        ∃ e, (r.map fun c => (c, s)) = .error e ∧ (r.map fun c => (c, s')) = .error e := by
    intro r
    cases r with
    | ok c => exact .inl ⟨c, rfl, rfl⟩
    | error e => exact .inr ⟨e, rfl, rfl⟩
  cases b with
  | complex | real | imag | len | cap => exact keep _
  | append | new | panic => cases hb

namespace Context

variable {ctx ctx' : Context} {f g : Node} {as bs : List Node} {span span' : Span}
  {P : Span → Span → Prop}

theorem callInfo_of_builtin {name : Name} (h : f.builtin? = some name) :
    ctx.callInfo f as span = ctx.callBuiltin name as span := by
  obtain ⟨place, kind, info⟩ := f
  cases kind with
  | builtin name' => cases h; rfl
  | _ => cases h

theorem callInfo_of_type {ty : Ty} (h : f.type? = some ty) :
    ctx.callInfo f as span = ctx.callConversion ty as span := by
  obtain ⟨place, kind, info⟩ := f
  cases kind with
  | typeName ty' => cases h; rfl
  | _ => cases h

/-- What a call of a value is. -/
def callValue (ctx : Context) (callee : Node) (args : List Node) (span : Span) : Finding :=
  if callee.info.known.isEmpty then ⟨.unknown, []⟩
  else
    match callee.singleType?.bind KnownType.ty? |>.bind Ty.signature? with
    | some sig => ctx.callFunc callee sig args.length span
    | none => .failed span (.notCallable (ctx.describe callee))

theorem callInfo_of_value (hb : f.builtin? = none) (ht : f.type? = none) :
    ctx.callInfo f as span = ctx.callValue f as span := by
  obtain ⟨place, kind, info⟩ := f
  cases kind with
  | builtin name => cases hb
  | typeName ty => cases ht
  | _ => rfl

/-- As an argument, a node is the type that it names, or its value. -/
theorem arg?_eq (n : Node) : arg? n =
    match n.type? with
    | some ty => some (.type ty)
    | none => n.info.singleType?.map fun known => .value known n.info.constant? := by
  obtain ⟨place, kind, info⟩ := n
  cases kind <;> rfl

/-- A value that is read and not constant does not show in an argument. -/
theorem arg?_congr {m n : Node} (hinfo : m.info.static = n.info.static)
    (htype : m.type? = n.type?) : arg? m = arg? n := by
  rw [arg?_eq, arg?_eq, htype, Info.singleType?_of_static hinfo, Info.constant?_of_static hinfo]

/-- Nodes that are the same arguments, one by one, are the same list of arguments, or stop at
related nodes. -/
theorem argsOf_congr {R : Node → Node → Prop} (hR : ∀ m n, R m n → arg? m = arg? n)
    (h : List.Forall₂ R as bs) :
    (∃ args, argsOf as = .ok args ∧ argsOf bs = .ok args) ∨
      ∃ m n, R m n ∧ argsOf as = .error m ∧ argsOf bs = .error n := by
  induction h with
  | nil => exact .inl ⟨[], rfl, rfl⟩
  | @cons m n as bs hmn _ ih =>
    cases hm : arg? m with
    | none =>
      have hn : arg? n = none := hR m n hmn ▸ hm
      exact .inr ⟨m, n, hmn, by simp [argsOf, hm], by simp [argsOf, hn]⟩
    | some arg =>
      have hn : arg? n = some arg := hR m n hmn ▸ hm
      rcases ih with ⟨args, ha, hb⟩ | ⟨x, y, hxy, ha, hb⟩
      · exact .inl ⟨arg :: args, by simp [argsOf, hm, ha, Except.map],
          by simp [argsOf, hn, hb, Except.map]⟩
      · exact .inr ⟨x, y, hxy, by simp [argsOf, hm, ha, Except.map],
          by simp [argsOf, hn, hb, Except.map]⟩

theorem applyBuiltin_matches (b : Builtin) (hword : ctx.word = ctx'.word) (hspan : P span span')
    (h : List.Forall₂ (fun m n => arg? m = arg? n ∧ P m.span n.span) as bs) :
    (ctx.applyBuiltin b as span).Matches P (ctx'.applyBuiltin b bs span') := by
  unfold applyBuiltin
  rw [hword]
  rcases argsOf_congr (fun m n hmn => hmn.1) h with ⟨args, ha, hb⟩ | ⟨m, n, hmn, ha, hb⟩
  · simp only [ha, hb]
    split
    · rename_i hfold
      rw [Bool.and_eq_true] at hfold
      -- the stores may differ, but only what is not folded looks at them
      rcases Builtin.call_cases hfold.1 ctx'.word ctx.env.store ctx'.env.store args with
        ⟨c, hc, hc'⟩ | ⟨e, he, he'⟩
      · simp only [hc, hc']
        exact .clean _
      · simp only [he, he']
        exact .failed hspan rfl
    · cases b.resultTypes args with
      | ok known => exact .clean _
      | error e => exact .failed hspan rfl
  · simp only [ha, hb]
    exact .failed hmn.2 rfl

/-- A name that two contexts share is looked up alike. -/
theorem callBuiltin_matches (name : Name) (hnames : ctx.names = ctx'.names)
    (hword : ctx.word = ctx'.word) (hspan : P span span')
    (h : List.Forall₂ (fun m n => arg? m = arg? n ∧ P m.span n.span) as bs) :
    (ctx.callBuiltin name as span).Matches P (ctx'.callBuiltin name bs span') := by
  simp only [callBuiltin, hnames, h.length_eq]
  cases Builtin.ofName? (ctx'.names.lookup name) with
  | none => exact .failed hspan rfl
  | some b =>
    simp only
    split
    · exact .failed hspan rfl
    · exact applyBuiltin_matches b hword hspan h

theorem callConversion_matches (ty : Ty) (hword : ctx.word = ctx'.word) (hspan : P span span')
    (h : List.Forall₂ (fun m n => m.info.static = n.info.static ∧ P m.span n.span) as bs) :
    (ctx.callConversion ty as span).Matches P (ctx'.callConversion ty bs span') := by
  cases h with
  | nil => exact .failed hspan rfl
  | @cons m n as bs hmn htail =>
    cases htail with
    | cons => exact .failed hspan (by rfl)
    | nil =>
      simp only [callConversion, Node.constant?, Node.singleType?,
        Info.constant?_of_static hmn.1, Info.singleType?_of_static hmn.1, hword]
      cases n.info.constant? with
      | some c => exact ⟨rfl, CheckError.matches_at hmn.2 _⟩
      | none =>
        simp only
        split
        · split
          · exact .clean _
          · exact .failed hspan rfl
        · exact .clean _

theorem callFunc_matches (sig : Ty.Signature) (found : ℕ) (hspan : P span span') :
    (ctx.callFunc f sig found span).Matches P (ctx'.callFunc g sig found span') := by
  unfold callFunc
  by_cases h : if sig.variadic then sig.params.length ≤ found + 1 else found = sig.params.length
  · simp only [h, if_true]
    exact .clean _
  · simp only [h, if_false]
    exact .failed hspan rfl

theorem callValue_matches (hinfo : f.info.static = g.info.static) (h : as.length = bs.length)
    (hspan : P span span') : (ctx.callValue f as span).Matches P (ctx'.callValue g bs span') := by
  simp only [callValue, Node.singleType?, Info.known_of_static hinfo,
    Info.singleType?_of_static hinfo, h]
  cases g.info.known.isEmpty with
  | true => exact .clean _
  | false =>
    cases (g.info.singleType?.bind KnownType.ty?).bind Ty.signature? with
    | some sig => exact callFunc_matches sig bs.length hspan
    | none => exact .failed hspan rfl

/-- **Calls of nodes of which the same is known**, but for what is read of variables, in two
contexts of one table of names and one word size. The callees name the same, and so do the
arguments where a builtin is called. -/
theorem callInfo_matches (hnames : ctx.names = ctx'.names) (hword : ctx.word = ctx'.word)
    (hinfo : f.info.static = g.info.static) (hname : f.SameName g)
    (hspan : P span span')
    (has : List.Forall₂ (fun m n => m.info.static = n.info.static ∧ P m.span n.span ∧
      (f.builtin?.isSome → m.type? = n.type?)) as bs) :
    (ctx.callInfo f as span).Matches P (ctx'.callInfo g bs span') := by
  cases hb : f.builtin? with
  | some name =>
    rw [callInfo_of_builtin hb, callInfo_of_builtin (hname.builtin ▸ hb)]
    have htypes : f.builtin?.isSome := by rw [hb]; rfl
    refine callBuiltin_matches name hnames hword hspan (has.imp fun m n h => ?_)
    exact ⟨arg?_congr h.1 (h.2.2 htypes), h.2.1⟩
  | none =>
    cases ht : f.type? with
    | some ty =>
      rw [callInfo_of_type ht, callInfo_of_type (hname.type ▸ ht)]
      exact callConversion_matches ty hword hspan (has.imp fun m n h => ⟨h.1, h.2.1⟩)
    | none =>
      rw [callInfo_of_value hb ht, callInfo_of_value (hname.builtin ▸ hb) (hname.type ▸ ht)]
      exact callValue_matches hinfo has.length_eq hspan

end Context

/-! ## The rules -/

/-- Two checked expressions of which the same is known, with errors of the same codes. -/
structure Checked.Alike (r s : Checked) : Prop where
  info : r.node.info = s.node.info
  codes : r.errors.map CheckError.code = s.errors.map CheckError.code

theorem Checked.Alike.refl (r : Checked) : r.Alike r := ⟨rfl, rfl⟩

namespace Context

variable {ctx : Context} {r s l l' f g : Checked} {as bs : List Checked} {span span' : Span}

theorem checkParen_alike (h : r.Alike s) : (checkParen r span).Alike (checkParen s span') :=
  ⟨h.info, h.codes⟩

theorem binaryInfo_alike {op : Operator} {l l' r r' : Node} (hl : l.info = l'.info)
    (hr : r.info = r'.info) :
    (ctx.binaryInfo op l r span).Alike (ctx.binaryInfo op l' r' span') := by
  simp only [binaryInfo, Node.singleType?, Node.constant?, hl, hr]
  split
  · rename_i a b _ _ _ _
    have hfold := Const.fold_alike op a b ctx.word ⟨span, r.span⟩ ⟨span', r'.span⟩
    exact ⟨by simp only [hfold.value], hfold.codes⟩
  · exact ⟨rfl, rfl⟩

/-- **Operations on alike operands are alike.** -/
theorem checkBinary_alike (op : Operator) (hl : l.Alike l') (hr : r.Alike s) :
    (ctx.checkBinary op l r span).Alike (ctx.checkBinary op l' s span') := by
  obtain ⟨hinfo, hcodes⟩ : (ctx.binaryInfo op l.node r.node span).Alike _ :=
    binaryInfo_alike hl.info hr.info
  refine ⟨hinfo, ?_⟩
  simp only [checkBinary, List.map_append, hl.codes, hr.codes, hcodes]

/-- **Calls of alike callees and arguments are alike**, where both callees name the same, and the
arguments do so as well if a builtin is called. -/
theorem checkCall_alike (hf : f.Alike g) (hname : f.node.SameName g.node)
    (has : List.Forall₂ (fun r s => r.Alike s ∧
      (f.node.builtin?.isSome → r.node.type? = s.node.type?)) as bs) :
    (ctx.checkCall f as span).Alike (ctx.checkCall g bs span') := by
  have hnodes : List.Forall₂ (fun m n => m.info.static = n.info.static ∧ True ∧
      (f.node.builtin?.isSome → m.type? = n.type?)) (as.map Checked.node)
        (bs.map Checked.node) := by
    simp only [List.forall₂_map_left_iff, List.forall₂_map_right_iff]
    exact has.imp fun r s h => ⟨congrArg Info.static h.1.info, trivial, h.2⟩
  have hcodes : (as.flatMap Checked.errors).map CheckError.code =
      (bs.flatMap Checked.errors).map CheckError.code :=
    map_errors_eq (has.imp fun r s h => h.1.codes)
  obtain ⟨hinfo, hown⟩ : (ctx.callInfo f.node (as.map Checked.node) span).Alike _ :=
    (callInfo_matches (P := fun _ _ => True) rfl rfl (congrArg Info.static hf.info) hname trivial
      hnodes).alike
  refine ⟨hinfo, ?_⟩
  simp only [checkCall, List.map_append, hf.codes, hcodes, hown]

end Context

end ConstCheck
