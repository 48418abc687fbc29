import ConstCheck.Proofs.Alike

/-!
# Places in an expression

An occurrence of an expression in another is a place in it: the frames around it, each a form with
one child left out. Every occurrence is at a place, and the check of what stands there decides what
is known of the whole.

* `Tree.Frame`, `Tree.within`: one form around a place, and all of them, innermost first.
* `Tree.subOf_iff_within`: an expression is part of another if and only if it stands at a place of
  it.
* `Tree.Frame.rule`, `Tree.checkAround`: the rules of the frames around a checked expression.
* `Tree.before`, `Tree.checkAround_eq`: **the errors of what stands at a place are a segment of the
  errors of the whole**, after those of all that stands before it.
* `Tree.Frame.SeesSame`: what a frame sees of two expressions besides what is known of them.
* `Tree.checkAround_alike`: **alike expressions of one name make alike expressions at every place**.
-/

namespace ConstCheck

namespace Tree

/-- A form of expressions with one child left out. -/
inductive Frame where
  | paren (span : Span)
  | left (op : Operator) (right : Tree) (span : Span)
  | right (op : Operator) (left : Tree) (span : Span)
  | func (args : List Tree) (span : Span)
  | arg (func : Tree) (before after : List Tree) (span : Span)

/-- A frame with an expression as the child that it leaves out. -/
def Frame.fill : Frame → Tree → Tree
  | paren span, t => .paren t span
  | left op r span, t => .binary op t r span
  | right op l span, t => .binary op l t span
  | func args span, t => .call t args span
  | arg f before after span, t => .call f (before ++ t :: after) span

/-- An expression within frames, the innermost first. -/
def within : List Frame → Tree → Tree
  | [], t => t
  | f :: frames, t => within frames (f.fill t)

theorem within_append (inner outer : List Frame) (t : Tree) :
    within (inner ++ outer) t = within outer (within inner t) := by
  induction inner generalizing t with
  | nil => rfl
  | cons f inner ih => exact ih (f.fill t)

theorem subOf_fill (f : Frame) (t : Tree) : t.SubOf (f.fill t) := by
  cases f with
  | paren => exact .paren .self
  | left => exact .left .self
  | right => exact .right .self
  | func => exact .func .self
  | arg f before after => exact .arg (List.mem_append_right _ List.mem_cons_self) .self

/-- **An expression is part of another if and only if it stands at a place of it.** -/
theorem subOf_iff_within {s t : Tree} : s.SubOf t ↔ ∃ frames, t = within frames s := by
  constructor
  · -- the outermost frame is the last one
    have add : ∀ {u : Tree} (f : Frame), (∃ frames, u = within frames s) →
        ∃ frames, f.fill u = within frames s := by
      rintro u f ⟨frames, rfl⟩
      exact ⟨frames ++ [f], (within_append frames [f] s).symm⟩
    intro h
    induction h with
    | self => exact ⟨[], rfl⟩
    | @paren _ span _ ih => exact add (.paren span) ih
    | @left op _ r span _ ih => exact add (.left op r span) ih
    | @right op l _ span _ ih => exact add (.right op l span) ih
    | @func _ args span _ ih => exact add (.func args span) ih
    | @arg f args a span ha _ ih =>
      obtain ⟨before, after, rfl⟩ := List.append_of_mem ha
      exact add (.arg f before after span) ih
  · rintro ⟨frames, rfl⟩
    induction frames generalizing s with
    | nil => exact .self
    | cons f frames ih => exact (subOf_fill f s).trans ih

/-! ## The rules around a place -/

section

variable {ctx : Context} {r s : Checked} {t u : Tree}

/-- The rule of a frame, which takes the checked child that is left out. -/
def Frame.rule (ctx : Context) : Frame → Checked → Checked
  | paren span, c => Context.checkParen c span
  | left op r span, c => ctx.checkBinary op c (r.check ctx) span
  | right op l span, c => ctx.checkBinary op (l.check ctx) c span
  | func args span, c => ctx.checkCall c (args.map (check ctx)) span
  | arg f before after span, c =>
    ctx.checkCall (f.check ctx) (before.map (check ctx) ++ c :: after.map (check ctx)) span

/-- The rules of all frames around a checked expression. -/
def checkAround (ctx : Context) : List Frame → Checked → Checked
  | [], c => c
  | f :: frames, c => checkAround ctx frames (f.rule ctx c)

theorem Frame.check_fill (f : Frame) (t : Tree) :
    (f.fill t).check ctx = f.rule ctx (t.check ctx) := by
  cases f with
  | paren | left | right => rfl
  | func args span => rw [fill, check, checkAll_eq_map, rule]
  | arg f before after span =>
    rw [fill, check, checkAll_eq_map, List.map_append, List.map_cons, rule]

theorem check_within (frames : List Frame) (t : Tree) :
    (within frames t).check ctx = checkAround ctx frames (t.check ctx) := by
  induction frames generalizing t with
  | nil => rfl
  | cons f frames ih => rw [within, ih, f.check_fill, checkAround]

/-! ## Errors at a place -/

/-- The children of a frame before the one that is left out. -/
def Frame.before : Frame → List Tree
  | paren _ | left _ _ _ | func _ _ => []
  | right _ l _ => [l]
  | arg f before _ _ => f :: before

/-- What stands before a place, in source order. -/
def before : List Frame → List Tree
  | [] => []
  | f :: frames => before frames ++ f.before

theorem subOf_within_of_mem_before {frames : List Frame} (h : u ∈ before frames) :
    u.SubOf (within frames t) := by
  induction frames generalizing t with
  | nil => cases h
  | cons f frames ih =>
    rcases List.mem_append.1 h with hout | hin
    · exact ih hout
    · have hfill : u.SubOf (f.fill t) := by
        cases f with
        | paren | left | func => cases hin
        | right => cases List.mem_singleton.1 hin; exact .left .self
        | arg f before after =>
          rcases List.mem_cons.1 hin with rfl | hmem
          · exact .func .self
          · exact .arg (List.mem_append_left _ hmem) .self
      exact hfill.trans (subOf_iff_within.2 ⟨frames, rfl⟩)

/-- The errors of several expressions. -/
def errorsOf (ctx : Context) (ts : List Tree) : List CheckError :=
  ts.flatMap fun t => (t.check ctx).errors

/-- The errors of a child pass through a frame, whatever they are. -/
theorem Frame.rule_eq (f : Frame) (n : Node) : ∃ m after, ∀ es,
    f.rule ctx ⟨n, es⟩ = ⟨m, errorsOf ctx f.before ++ es ++ after⟩ := by
  refine ⟨(f.rule ctx ⟨n, []⟩).node, ?_⟩
  cases f with
  | paren span =>
    refine ⟨[], fun es => ?_⟩
    rw [List.append_nil]
    rfl
  | left op r span =>
    refine ⟨(r.check ctx).errors ++ (ctx.binaryInfo op n (r.check ctx).node span).errors,
      fun es => ?_⟩
    rw [← List.append_assoc]
    rfl
  | right op l span =>
    refine ⟨(ctx.binaryInfo op (l.check ctx).node n span).errors, fun es => ?_⟩
    rw [before, errorsOf, List.flatMap_singleton]
    rfl
  | func args span =>
    let cs := args.map (check ctx)
    refine ⟨cs.flatMap Checked.errors ++ (ctx.callInfo n (cs.map Checked.node) span).errors,
      fun es => ?_⟩
    rw [← List.append_assoc]
    rfl
  | arg g before after span =>
    let nodes := before.map (fun t => (t.check ctx).node) ++ n ::
      after.map (fun t => (t.check ctx).node)
    refine ⟨(after.map (check ctx)).flatMap Checked.errors ++
      (ctx.callInfo (g.check ctx).node nodes span).errors, fun es => ?_⟩
    simp [rule, Context.checkCall, Frame.before, errorsOf, nodes, Function.comp_def,
      List.flatMap_map]

/-- **The errors of what stands at a place are a segment of the errors of the whole**, after those
of all that stands before it. The rest does not depend on them. -/
theorem checkAround_eq (frames : List Frame) (n : Node) : ∃ m after, ∀ es,
    checkAround ctx frames ⟨n, es⟩ = ⟨m, errorsOf ctx (before frames) ++ es ++ after⟩ := by
  induction frames generalizing n with
  | nil => exact ⟨n, [], fun es => by simp [checkAround, before, errorsOf]⟩
  | cons f frames ih =>
    obtain ⟨m, after, hf⟩ := f.rule_eq n
    obtain ⟨m', after', hframes⟩ := ih m
    refine ⟨m', after ++ after', fun es => ?_⟩
    rw [checkAround, hf, hframes]
    simp only [before, errorsOf, List.flatMap_append, List.append_assoc]

/-! ## Alike expressions at a place -/

/-- What a frame sees of two nodes besides what is known of them is the same: the name of a callee,
and of an argument of a builtin the type that it names. -/
def Frame.SeesSame (ctx : Context) (m n : Node) : Frame → Prop
  | func _ _ => m.SameName n
  | arg f _ _ _ => (f.check ctx).node.builtin?.isSome → m.type? = n.type?
  | _ => True

theorem Frame.SeesSame.of_sameName {m n : Node} (f : Frame) (h : m.SameName n) :
    f.SeesSame ctx m n := by
  cases f with
  | func => exact h
  | arg => exact fun _ => h.type
  | _ => trivial

/-- **A frame takes alike expressions to alike expressions**, unless it sees what they name. -/
theorem Frame.rule_alike (f : Frame) (h : r.Alike s) (hsame : f.SeesSame ctx r.node s.node) :
    (f.rule ctx r).Alike (f.rule ctx s) := by
  have self : ∀ (P : Prop) (args : List Tree), List.Forall₂
      (fun r s : Checked => r.Alike s ∧ (P → r.node.type? = s.node.type?)) (args.map (check ctx))
        (args.map (check ctx)) := fun _ _ => List.forall₂_same.2 fun r _ => ⟨.refl r, fun _ => rfl⟩
  cases f with
  | paren span => exact Context.checkParen_alike h
  | left op r span => exact Context.checkBinary_alike op h (.refl _)
  | right op l span => exact Context.checkBinary_alike op (.refl _) h
  | func args span => exact Context.checkCall_alike h hsame (self _ args)
  | arg f before after span =>
    exact Context.checkCall_alike (.refl _) (.refl _)
      (List.rel_append (self _ before) (.cons ⟨h, hsame⟩ (self _ after)))

/-- No form names a builtin or a type. -/
theorem Frame.rule_sameName (f : Frame) (r s : Checked) :
    (f.rule ctx r).node.SameName (f.rule ctx s).node := by
  cases f <;> exact ⟨rfl, rfl⟩

/-- **Alike expressions of one name make alike expressions at every place.** -/
theorem checkAround_alike (frames : List Frame) (h : r.Alike s)
    (hname : r.node.SameName s.node) :
    (checkAround ctx frames r).Alike (checkAround ctx frames s) := by
  induction frames generalizing r s with
  | nil => exact h
  | cons f frames ih => exact ih (f.rule_alike h (.of_sameName f hname)) (f.rule_sameName r s)

/-- Alike expressions make alike expressions at a place whose innermost frame sees them the same. -/
theorem within_cons_alike (f : Frame) (frames : List Frame)
    (h : (t.check ctx).Alike (u.check ctx))
    (hsame : f.SeesSame ctx (t.check ctx).node (u.check ctx).node) :
    ((within (f :: frames) t).check ctx).Alike ((within (f :: frames) u).check ctx) := by
  rw [check_within, check_within]
  exact checkAround_alike frames (f.rule_alike h hsame) (f.rule_sameName _ _)

end

end Tree

end ConstCheck
