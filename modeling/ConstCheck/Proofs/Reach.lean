import ConstCheck.Proofs.Unfold
import Mathlib.Data.List.Forall2

/-!
# The expressions that an expression reaches

The tree of an expression is made of the trees of the expressions that it refers to, and those of
the expressions that they refer to. A number of no expression is a missing one in the tree.

* `Arena.children`, `Arena.Reaches`: following numbers, one step and any number of them.
* `Arena.tree?_of_treeWithin`: the tree of an expression is its tree within any depth that it has.
* `Arena.subOf_iff_reaches` (every arena): **the expressions in the tree of an expression are the
  trees of those that it reaches**.
* `Arena.missing_subOf_iff`: one of them is missing if and only if an expression is reached that the
  arena does not have.
-/

namespace ConstCheck

namespace Tree

/-- The expressions directly below an expression. -/
def children : Tree → List Tree
  | missing | leaf _ _ => []
  | paren inner _ => [inner]
  | binary _ left right _ => [left, right]
  | call func args _ => func :: args

theorem subOf_iff {s t : Tree} : s.SubOf t ↔ s = t ∨ ∃ c ∈ t.children, s.SubOf c := by
  constructor
  · intro h
    cases h with
    | self => exact .inl rfl
    | paren h => exact .inr ⟨_, List.mem_cons_self, h⟩
    | left h => exact .inr ⟨_, List.mem_cons_self, h⟩
    | right h => exact .inr ⟨_, List.mem_cons_of_mem _ List.mem_cons_self, h⟩
    | func h => exact .inr ⟨_, List.mem_cons_self, h⟩
    | arg ha h => exact .inr ⟨_, List.mem_cons_of_mem _ ha, h⟩
  · rintro (rfl | ⟨c, hc, h⟩)
    · exact .self
    cases t with
    | missing | leaf => cases hc
    | paren => cases List.mem_singleton.1 hc; exact .paren h
    | binary =>
      simp only [children, List.mem_cons, List.not_mem_nil, or_false] at hc
      rcases hc with rfl | rfl
      · exact .left h
      · exact .right h
    | call =>
      rcases List.mem_cons.1 hc with rfl | hmem
      · exact .func h
      · exact .arg hmem h

end Tree

namespace Arena

variable {a : Arena}

/-- The expressions to which a form refers. -/
def children (a : Arena) : ExprKind → List ExprId
  | .leaf _ => []
  | .paren inner => [inner]
  | .binary _ left right => [left, right]
  | .call func args => func :: a.list args

/-- One expression reaches another by the numbers in it, in no step or in any number of them. -/
inductive Reaches (a : Arena) : ExprId → ExprId → Prop
  | refl (id : ExprId) : Reaches a id id
  | step {id next last : ExprId} {e : Expr} (he : a.get? id = some e)
    (hnext : next ∈ a.children e.kind) (h : Reaches a next last) : Reaches a id last

/-! ## Trees within a depth -/

/-- All of a list have results if and only if each has the one in its place. -/
theorem mapM_eq_some_iff {α β : Type} {f : α → Option β} {xs : List α} {ys : List β} :
    xs.mapM f = some ys ↔ List.Forall₂ (fun x y => f x = some y) xs ys := by
  induction xs generalizing ys with
  | nil => simp [eq_comm]
  | cons x xs ih =>
    simp only [List.mapM_cons, Option.bind_eq_bind, Option.bind_eq_some_iff, Option.pure_def,
      Option.some.injEq, List.forall₂_cons_left_iff]
    constructor
    · rintro ⟨y, hy, zs, hzs, rfl⟩
      exact ⟨y, zs, hy, ih.1 hzs, rfl⟩
    · rintro ⟨y, zs, hy, hzs, rfl⟩
      exact ⟨y, hy, zs, ih.2 hzs, rfl⟩

theorem exists_of_forall₂_of_mem {α β : Type} {R : α → β → Prop} {xs : List α} {ys : List β}
    (h : List.Forall₂ R xs ys) {x : α} (hx : x ∈ xs) : ∃ y ∈ ys, R x y := by
  induction h with
  | nil => cases hx
  | cons hxy _ ih =>
    rcases List.mem_cons.1 hx with rfl | hmem
    · exact ⟨_, List.mem_cons_self, hxy⟩
    · obtain ⟨y, hy, hr⟩ := ih hmem
      exact ⟨y, List.mem_cons_of_mem _ hy, hr⟩

/-- The trees below the tree of an expression are those of the expressions to which it refers. -/
theorem forall₂_children {d : ℕ} {id : ExprId} {e : Expr} {t : Tree} (he : a.get? id = some e)
    (h : a.treeWithin (d + 1) id = some t) :
    List.Forall₂ (fun j s => a.treeWithin d j = some s) (a.children e.kind) t.children := by
  obtain ⟨kind, span⟩ := e
  simp only [treeWithin, he] at h
  cases kind with
  | leaf l => cases h; exact .nil
  | paren inner =>
    simp only [Option.bind_eq_bind, Option.bind_eq_some_iff, Option.pure_def,
      Option.some.injEq] at h
    obtain ⟨t, ht, rfl⟩ := h
    exact .cons ht .nil
  | binary op l r =>
    simp only [Option.bind_eq_bind, Option.bind_eq_some_iff, Option.pure_def,
      Option.some.injEq] at h
    obtain ⟨x, hx, y, hy, rfl⟩ := h
    exact .cons hx (.cons hy .nil)
  | call f args =>
    simp only [Option.bind_eq_bind, Option.bind_eq_some_iff, Option.pure_def,
      Option.some.injEq] at h
    obtain ⟨x, hx, ys, hys, rfl⟩ := h
    exact .cons hx (mapM_eq_some_iff.1 hys)

/-- The tree within a depth is the tree within any greater one. -/
theorem treeWithin_succ {d : ℕ} {id : ExprId} {t : Tree} (h : a.treeWithin d id = some t) :
    a.treeWithin (d + 1) id = some t := by
  induction d generalizing id t with
  | zero => cases h
  | succ d ih =>
    have list : ∀ {ids : List ExprId} {ts : List Tree}, ids.mapM (a.treeWithin d) = some ts →
        ids.mapM (a.treeWithin (d + 1)) = some ts := fun hts =>
      mapM_eq_some_iff.2 ((mapM_eq_some_iff.1 hts).imp fun _ _ => ih)
    unfold treeWithin at h ⊢
    cases he : a.get? id with
    | none => simpa only [he] using h
    | some e =>
      obtain ⟨kind, span⟩ := e
      simp only [he] at h ⊢
      cases kind with
      | leaf l => exact h
      | paren inner =>
        obtain ⟨x, hx, ht⟩ := Option.bind_eq_some_iff.1 h
        exact Option.bind_eq_some_iff.2 ⟨x, ih hx, ht⟩
      | binary op l r =>
        obtain ⟨x, hx, h⟩ := Option.bind_eq_some_iff.1 h
        obtain ⟨y, hy, ht⟩ := Option.bind_eq_some_iff.1 h
        exact Option.bind_eq_some_iff.2 ⟨x, ih hx, Option.bind_eq_some_iff.2 ⟨y, ih hy, ht⟩⟩
      | call f args =>
        obtain ⟨x, hx, h⟩ := Option.bind_eq_some_iff.1 h
        obtain ⟨ys, hys, ht⟩ := Option.bind_eq_some_iff.1 h
        exact Option.bind_eq_some_iff.2 ⟨x, ih hx, Option.bind_eq_some_iff.2 ⟨ys, list hys, ht⟩⟩

theorem treeWithin_mono {d d' : ℕ} {id : ExprId} {t : Tree} (hd : d ≤ d')
    (h : a.treeWithin d id = some t) : a.treeWithin d' id = some t := by
  induction hd with
  | refl => exact h
  | step _ ih => exact treeWithin_succ ih

theorem tree?_of_treeWithin {d : ℕ} {id : ExprId} {t : Tree} (hd : d ≤ a.exprs.size + 1)
    (h : a.treeWithin d id = some t) : a.tree? id = some t := treeWithin_mono hd h

/-- A missing expression is the tree of a number that the arena does not have. -/
theorem tree?_eq_missing_iff {id : ExprId} : a.tree? id = some .missing ↔ a.get? id = none := by
  unfold tree? treeWithin
  cases a.get? id with
  | none => simp
  | some e =>
    obtain ⟨kind, span⟩ := e
    cases kind <;> simp [Option.bind_eq_some_iff]

/-! ## Trees and what is reached -/

/-- What stands in the tree of an expression is the tree of one that it reaches. -/
theorem reaches_of_subOf {d : ℕ} {id : ExprId} {s t : Tree} (hd : d ≤ a.exprs.size + 1)
    (h : a.treeWithin d id = some t) (hs : s.SubOf t) :
    ∃ j, a.Reaches id j ∧ a.tree? j = some s := by
  -- down the tree: a part of the whole is the whole, or part of the tree of a child
  induction d generalizing id t with
  | zero => cases h
  | succ d ih =>
    rcases Tree.subOf_iff.1 hs with rfl | ⟨c, hc, hsc⟩
    · exact ⟨id, .refl id, tree?_of_treeWithin hd h⟩
    cases he : a.get? id with
    | none =>
      simp only [treeWithin, he, Option.some.injEq] at h
      rw [← h] at hc
      cases hc
    | some e =>
      obtain ⟨next, hnext, hchild⟩ := exists_of_forall₂_of_mem (forall₂_children he h).flip hc
      obtain ⟨j, hj, hjs⟩ := ih (Nat.le_of_succ_le hd) hchild hsc
      exact ⟨j, .step he hnext hj, hjs⟩

/-- What an expression reaches stands, as a tree, in its tree. -/
theorem subOf_of_reaches {d : ℕ} {id j : ExprId} {s t : Tree} (hd : d ≤ a.exprs.size + 1)
    (h : a.treeWithin d id = some t) (hj : a.Reaches id j) (hs : a.tree? j = some s) :
    s.SubOf t := by
  -- a step to what is reached is a step down the tree
  induction hj generalizing d t with
  | refl id =>
    rw [tree?_of_treeWithin hd h, Option.some.injEq] at hs
    rw [hs]; exact .self
  | step he hnext _ ih =>
    cases d with
    | zero => cases h
    | succ d =>
      obtain ⟨c, hc, hchild⟩ := exists_of_forall₂_of_mem (forall₂_children he h) hnext
      exact Tree.subOf_iff.2 (.inr ⟨c, hc, ih (Nat.le_of_succ_le hd) hchild hs⟩)

/-- **The expressions in the tree of an expression are the trees of those that it reaches.** -/
theorem subOf_iff_reaches {id : ExprId} {s t : Tree} (h : a.tree? id = some t) :
    s.SubOf t ↔ ∃ j, a.Reaches id j ∧ a.tree? j = some s :=
  ⟨reaches_of_subOf (Nat.le_refl _) h, fun ⟨_, hj, hs⟩ => subOf_of_reaches (Nat.le_refl _) h hj hs⟩

/-- An expression is missing in a tree if and only if a number is reached that is of none. -/
theorem missing_subOf_iff {id : ExprId} {t : Tree} (h : a.tree? id = some t) :
    Tree.SubOf .missing t ↔ ∃ j, a.Reaches id j ∧ a.get? j = none := by
  simp only [subOf_iff_reaches h, tree?_eq_missing_iff]

end Arena

end ConstCheck
