import ConstCheck.Proofs.Constants
import ConstCheck.Proofs.Faithful
import ConstCheck.Proofs.Reports

/-!
# Evaluations of operators on numbers

The kind of a number is a tag beside its value, and arithmetic relies on it: an integral quotient
divides by the truncated divisor, after the exact one was found not to be zero. That is a division
by zero unless the kind tells the truth.

* `Operator.RunsOn`: what an operator relies on when it is evaluated on two numbers.
* `Operator.runsOn_of_wellKinded`: on well-kinded numbers it does so rightly.
* `Context.keepsConstants_wellKinded`: untyped constants are well-kinded.
* `Tree.runsOn` (every expression): **every evaluation in a check runs**.
* `numbers_wellKinded`: the untyped numbers in an expression are well-kinded, and no evaluation
  faults.
-/

namespace ConstCheck

/-! ## One evaluation -/

/-- Two kinds are promoted to a number kind where the join of two number kinds is defined, and
nowhere else. -/
theorem Kind.promote_eq_number_iff {a b : Kind} {k : NumKind} :
    promote a b = .ok (.number k) ↔ promoteNumeric a b = .ok k := by
  cases a <;> cases b <;> simp [promote, promoteNumeric]

theorem Number.truncated_ne_zero {y : Number} (hy : y.isWhole) (hz : y.isZero = false) :
    y.truncated ≠ 0 := by
  obtain ⟨j, l, rfl⟩ := exists_whole hy
  rw [truncated_whole]
  exact (isZero_whole j l).1 hz

/-- The square of the absolute value of a number that is not zero. -/
theorem Number.norm_ne_zero {y : Number} (hz : y.isZero = false) :
    y.re * y.re + y.im * y.im ≠ 0 := by
  intro hnorm
  have hparts := (mul_self_add_mul_self_eq_zero).1 hnorm
  have hzero : y.isZero := isZero_iff.2 hparts
  rw [hzero] at hz
  cases hz

namespace Operator

/-- An operator runs on two numbers. The join of their kinds is defined and is the kind of a number
that results, so that a tag with it changes nothing; no division is by zero, where the divisor was
not found to be zero before; and there is no fault. -/
structure RunsOn (op : Operator) (x y : Number) : Prop where
  kind : ∃ k, Kind.promoteNumeric (.number x.kind) (.number y.kind) = .ok k ∧
    Kind.promote (.number x.kind) (.number y.kind) = .ok (.number k) ∧
    ∀ z, op.onNumbers x y = .ok (.number z) →
      z.kind = k ∧ z.withKind (.number k) = z ∧ z.WellKinded
  /-- Two integral operands divide by the truncated divisor, others by the square of its absolute
  value. -/
  divisor : op.isDivision → y.isZero = false →
    if x.kind.isIntegral && y.kind.isIntegral then y.truncated ≠ 0
    else y.re * y.re + y.im * y.im ≠ 0
  result : op.onNumbers x y ≠ .error .fault

variable {op : Operator} {x y : Number}

theorem onNumbers_ne_fault (hx : x.WellKinded) (hy : y.WellKinded) :
    op.onNumbers x y ≠ .error .fault := by
  have integral : ∀ f, onIntegral f x y ≠ .error .fault := by
    intro f
    unfold onIntegral
    split <;> simp
  cases op with
  | quo =>
    simp only [onNumbers]
    -- zero is found before anything is divided
    by_cases hz : y.isZero
    · simp [hz]
    · obtain ⟨q, hq, -⟩ := hx.quo hy (by simpa using hz)
      simp [hz, hq]
  | rem =>
    simp only [onNumbers]
    split
    · simp
    · exact integral _
  | and | or | xor | andNot => exact integral _
  | lt | le | gt | ge =>
    simp only [onNumbers]
    split <;> simp
  | add | sub | mul | eq | ne | logicalAnd | logicalOr => simp [onNumbers]

/-- **On well-kinded numbers every operator runs.** -/
theorem runsOn_of_wellKinded (hx : x.WellKinded) (hy : y.WellKinded) : op.RunsOn x y where
  kind := by
    have hpromote : Kind.promoteNumeric (.number x.kind) (.number y.kind) =
      .ok (x.kind.join y.kind) := rfl
    refine ⟨_, hpromote, Kind.promote_eq_number_iff.2 hpromote, fun z hz => ?_⟩
    obtain ⟨-, hwell, -⟩ := onNumbers_exact hx hy hz
    have hkind := kind_of_onNumbers hz
    exact ⟨hkind, Number.withKind_eq_self hkind, hwell⟩
  divisor _ hz := by
    split
    · rename_i hint
      exact Number.truncated_ne_zero (hy.1 (Bool.and_eq_true_iff.1 hint).2) hz
    · exact Number.norm_ne_zero hz
  result := onNumbers_ne_fault hx hy

end Operator

/-! ## Well-kinded constants -/

/-- An untyped number tells the truth about its kind. -/
def Const.WellKinded : Const → Prop
  | untyped u => u.WellKinded
  | typed _ => True

/-- The exact value of a typed value is well-kinded, whatever the value. -/
theorem TypedValue.number?_wellKinded {v : TypedValue} {n : Number} (h : v.number? = some n) :
    n.WellKinded := by
  unfold number? at h
  split at h
  · cases h; exact Number.wellKinded_ofInt _
  · cases h; exact Number.wellKinded_ofInt _
  · obtain ⟨q, -, rfl⟩ := Option.map_eq_some_iff.1 h
    exact Number.wellKinded_ofRat q
  · simp only [Number.ofComplex?, Option.bind_eq_bind, Option.bind_eq_some_iff, Option.pure_def,
      Option.some.injEq] at h
    obtain ⟨re, -, im, -, rfl⟩ := h
    exact Number.wellKinded_ofParts re im
  · cases h

theorem Const.Evaluates.wellKinded {word : WordSize} {op : Operator} {a b : Const} {x y : Number}
    (h : Evaluates word op a b x y) (ha : a.WellKinded) (hb : b.WellKinded) :
    x.WellKinded ∧ y.WellKinded := by
  cases h with
  | untyped => exact ⟨ha, hb⟩
  | typed _ _ _ hx hy =>
    exact ⟨TypedValue.number?_wellKinded hx, TypedValue.number?_wellKinded hy⟩

section

variable {op : Operator} {word : WordSize} {place : OperationSpan}

theorem foldUntyped_wellKinded {a b : UntypedConst} {c : Const} (ha : a.WellKinded)
    (hb : b.WellKinded) (h : (foldUntyped op a b place).value = some c) : c.WellKinded := by
  unfold foldUntyped at h
  cases hkind : a.kind.promote b.kind with
  | error misfits => simp [hkind, Folded.failed] at h
  | ok kind =>
    cases hop : a.operate op kind b with
    | ok d =>
      simp only [hkind, hop, Option.some.injEq] at h
      obtain ⟨_, -, -, hwell, -⟩ := Operator.operate_exact ha hb hkind hop
      rw [← h]; exact hwell
    | error f =>
      cases f with
      | divideByZero =>
        simp only [hkind, hop, Option.some.injEq] at h
        rw [← h]; exact Number.wellKinded_of_isWhole rfl
      | undefined | fault => simp [hkind, hop, Folded.failed] at h

/-- The value of an operation at a type is typed. -/
theorem foldAt_value {a b : TypedValue} {ty : Ty} {c : Const}
    (h : (foldAt op a b ty word place).value = some c) : ∃ v, c = .typed v := by
  rcases foldAt_cases op a b ty word place with ⟨d, -, he⟩ | ⟨f, -, -, hzero⟩ | ⟨-, he⟩
  · rw [he, Folded.value_narrowed, Option.some.injEq] at h
    exact ⟨_, h.symm⟩
  · exact ⟨_, hzero c h⟩
  · simp [he, Folded.failed] at h

theorem foldMixed_value {v : TypedValue} {u : UntypedConst} {side : Side} {c : Const}
    (h : (foldMixed op v u side word place).value = some c) : ∃ w, c = .typed w := by
  rcases foldMixed_cases op v u side word place with ⟨-, -, he⟩ | ⟨-, he, -⟩
  · rw [he, Folded.value_after] at h
    exact foldAt_value h
  · simp [he] at h

theorem foldTyped_value {a b : TypedValue} {c : Const}
    (h : (foldTyped op a b word place).value = some c) : ∃ v, c = .typed v := by
  rcases foldTyped_cases op a b word place with ⟨ty, -, -, he⟩ | ⟨-, he, -⟩
  · rw [he] at h
    exact foldAt_value h
  · simp [he] at h

/-- **An untyped value of a fold is well-kinded**, the zero of a division by zero included. -/
theorem Const.fold_wellKinded {a b c : Const} (ha : a.WellKinded) (hb : b.WellKinded)
    (h : (a.fold op b word place).value = some c) : c.WellKinded := by
  have typed : (∃ v, c = .typed v) → c.WellKinded := by
    rintro ⟨v, rfl⟩
    trivial
  cases a with
  | untyped a =>
    cases b with
    | untyped b => exact foldUntyped_wellKinded ha hb h
    | typed b => exact typed (foldMixed_value h)
  | typed a =>
    cases b with
    | untyped b => exact typed (foldMixed_value h)
    | typed b => exact typed (foldTyped_value h)

end

/-! ## Whole expressions -/

section

variable {ctx : Context}
  (henv : ∀ name n, ctx.env.const? name = some (.number n) → n.WellKinded)

include henv

/-- **Untyped constants are well-kinded**, if the named ones are. -/
theorem Context.keepsConstants_wellKinded : ctx.KeepsConstants Const.WellKinded where
  literal n h := h
  string _ := trivial
  bool _ := trivial
  nil := trivial
  named name c h := by
    cases c with
    | untyped u =>
      cases u with
      | number n => exact henv name n h
      | _ => trivial
    | typed v => trivial
  fold a b c op place ha hb h := Const.fold_wellKinded ha hb h
  convert _ _ _ _ _ := trivial
  builtin c h := by
    cases h with
    | parts re im => exact Number.wellKinded_ofParts re im
    | part q => exact Number.wellKinded_ofRat q
    | typed => trivial

/-- A number that a node carries is well-kinded: it is a constant, since what is read of variables
is typed. -/
theorem Tree.wellKinded_value {t : Tree} {n : Node} {x : Number}
    (hn : n.PartOf (t.check ctx).node) (h : n.info.value = some (.number x)) : x.WellKinded := by
  obtain ⟨s, -, rfl⟩ := partOf_check_iff.1 hn
  have hconst : (s.check ctx).node.constant? = some (.number x) := by
    have hform : (s.check ctx).node.info.Form := s.info_form
    unfold Node.constant?
    generalize (s.check ctx).node.info = info at h hform ⊢
    cases hform with
    | ofConst c => exact h
    | ofReading v => cases h
    | ofTypes known => cases h
  exact (Context.keepsConstants_wellKinded henv).of_check hconst

/-- **Every evaluation in a check runs**: each operation on two constants, as it is evaluated on two
numbers. -/
theorem Tree.runsOn {t : Tree} {op : Operator} {l r : Node} {span : Span} {info : Info}
    {a b : Const} {x y : Number}
    (hn : (Node.mk span (.binary op l r) info).PartOf (t.check ctx).node)
    (ha : l.constant? = some a) (hb : r.constant? = some b)
    (h : Const.Evaluates ctx.word op a b x y) : op.RunsOn x y := by
  have hwell := Context.keepsConstants_wellKinded henv
  have hl : l.PartOf (t.check ctx).node := Node.PartOf.trans (.left .self) hn
  have hr : r.PartOf (t.check ctx).node := Node.PartOf.trans (.right .self) hn
  obtain ⟨hx, hy⟩ := h.wellKinded (hwell.of_partOf hl ha) (hwell.of_partOf hr hb)
  exact Operator.runsOn_of_wellKinded hx hy

/-- **No error is a fault.** -/
theorem Tree.ne_arithmeticFault {t : Tree} {e : CheckError} (he : e ∈ (t.check ctx).errors) :
    e.kind ≠ .arithmeticFault := by
  intro hk
  cases causes_of_mem_errors he with
  | report h => exact (ErrorKind.isReport_iff.1 h).2 hk
  | missing hi _ =>
    rw [hk] at hi
    cases hi
  | fold hs ha hb he =>
    rcases Const.fold_errors he with h | ⟨-, x, y, heval, hfault⟩ | ⟨hi, -⟩
    · exact (ErrorKind.isReport_iff.1 h).2 hk
    · have hrun := runsOn henv (partOf_check_iff.2 ⟨_, hs, rfl⟩) ha hb heval
      exact hrun.result hfault
    · rw [hk] at hi
      cases hi

/-- **The untyped numbers in an expression are well-kinded, and no evaluation faults**, if the
untyped named constants are well-kinded.

Every untyped number that a node carries tells the truth about its kind; no error stands for a
division of integers by zero; and wherever an operation on two constants is evaluated on two
numbers, the join of their kinds is defined and nothing is divided by zero. -/
theorem numbers_wellKinded {a : Arena} {root : ExprId} {r : Checked}
    (h : a.check? ctx root = some r) :
    (∀ (n : Node) (x : Number), n.PartOf r.node → n.info.value = some (.number x) →
      x.WellKinded) ∧
    (∀ e ∈ r.errors, e.kind ≠ .arithmeticFault) ∧
    ∀ (op : Operator) (left right : Node) (span : Span) (info : Info) (c d : Const) (x y : Number),
      (Node.mk span (.binary op left right) info).PartOf r.node →
      left.constant? = some c → right.constant? = some d →
      Const.Evaluates ctx.word op c d x y → op.RunsOn x y := by
  obtain ⟨t, -, rfl⟩ := Arena.exists_tree?_of_check? h
  refine ⟨fun n x => Tree.wellKinded_value henv, fun e => Tree.ne_arithmeticFault henv, ?_⟩
  intro op left right span info c d x y hn hc hd heval
  exact Tree.runsOn henv hn hc hd heval

end

/-! ## Seven over two -/

/-- Two names, of the untyped constants seven and two. -/
def Context.sevenAndTwo : Context where
  names := { strings := #["", "seven", "two"], numbers := {} }
  env := { consts := [(⟨1⟩, .number (.ofInt 7)), (⟨2⟩, .number (.ofInt 2))] }
  word := .bits64

theorem Context.wellKinded_sevenAndTwo {name : Name} {n : Number}
    (h : Context.sevenAndTwo.env.const? name = some (.number n)) : n.WellKinded := by
  obtain ⟨before, after, heq, -⟩ := List.lookup_eq_some_iff.1 h
  have hmem : (name, Const.number n) ∈ Context.sevenAndTwo.env.consts := by rw [heq]; simp
  simp only [sevenAndTwo, List.mem_cons, List.not_mem_nil, or_false, Prod.mk.injEq, Const.number,
    Const.untyped.injEq, UntypedConst.number.injEq] at hmem
  rcases hmem with ⟨-, rfl⟩ | ⟨-, rfl⟩ <;> exact Number.wellKinded_ofInt _

/-- Seven over two, as untyped constants: the quotient is a whole number, and divides by two. -/
theorem numbers_wellKinded_seven_quo_two : ∃ ctx r,
    (Arena.operation .quo).check? ctx ⟨2⟩ = some r ∧
    r.node.info.value = some (.number (.ofInt 3)) ∧ (Number.ofInt 3).WellKinded ∧
    (∀ e ∈ r.errors, e.kind ≠ .arithmeticFault) ∧
    Operator.quo.RunsOn (.ofInt 7) (.ofInt 2) := by
  let ctx : Context := .sevenAndTwo
  have hr : (Arena.operation .quo).check? ctx ⟨2⟩ = some ((Tree.operation .quo).check ctx) :=
    Arena.check?_of_tree? (Arena.tree?_operation .quo)
  have hvalue : ((Tree.operation .quo).check ctx).node.info.value = some (.number (.ofInt 3)) :=
    rfl
  obtain ⟨hwell, hfault, hruns⟩ :=
    numbers_wellKinded (fun name n => Context.wellKinded_sevenAndTwo) hr
  exact ⟨ctx, _, hr, hvalue, hwell _ _ .self hvalue, hfault,
    hruns .quo _ _ _ _ _ _ _ _ .self rfl rfl (.untyped _ _)⟩

end ConstCheck
