import Mathlib.Data.Finset.Card
import Mathlib.Data.List.Chain
import Mathlib.Logic.Relation
import ConstCheck.Proofs.Reach

/-!
# Arenas without cycles

The check of an arena follows numbers, which may point forward, be shared, or be of no expression.
It comes to an end because a chain of nested checks that visits an expression twice is on a cycle.
What it finds is what is found on the tree that is unfolded along the numbers, so neither numbers
nor sharing can be seen in the result.

* `Arena.Child`, `Arena.Acyclic`: following one number; no expression that is reached reaches
  itself.
* `Arena.Unfolds`: the tree that is unfolded from a number, by the forms of expressions.
* `Arena.length_le_of_isChain`: **a chain without cycles is not longer than the arena**.
* `Arena.exists_tree?_iff_acyclic`: there is a tree if and only if there is no cycle.
* `Arena.tree?_eq_some_iff`: the tree is the unfolded one.
* `Arena.Built`: the arenas that can be built, with the argument lists they were given.
* `Arena.Built.list_eq`: every argument list stays where it was put.
* `check_of_acyclic` (every arena that can be built): the check ends within the size of the arena
  and finds what is found on the unfolded tree.
-/

namespace ConstCheck

namespace Arena

variable {a : Arena} {id root : ExprId} {t : Tree} {d : ℕ}

/-- One expression refers to another. A number of no expression refers to nothing. -/
def Child (a : Arena) (i j : ExprId) : Prop := ∃ e, a.get? i = some e ∧ j ∈ a.children e.kind

/-- No expression that is reached reaches itself in one step or more. -/
def Acyclic (a : Arena) (root : ExprId) : Prop :=
  ∀ id, a.Reaches root id → ¬Relation.TransGen a.Child id id

theorem Reaches.trans {i j k : ExprId} (h : a.Reaches i j) (h' : a.Reaches j k) :
    a.Reaches i k := by
  induction h with
  | refl => exact h'
  | step he hnext _ ih => exact .step he hnext (ih h')

theorem reaches_of_transGen {i j : ExprId} (h : Relation.TransGen a.Child i j) :
    a.Reaches i j := by
  have child : ∀ {i j}, a.Child i j → a.Reaches i j := by
    rintro i j ⟨e, he, hj⟩
    exact .step he hj (.refl j)
  induction h with
  | single h => exact child h
  | tail _ h ih => exact ih.trans (child h)

/-! ## Chains -/

/-- A number that refers to another is of an expression. -/
theorem Child.index_lt {i j : ExprId} (h : a.Child i j) : i.index < a.exprs.size := by
  obtain ⟨e, he, -⟩ := h
  exact (Array.getElem?_eq_some_iff.1 he).1

/-- All numbers of a chain but the last are of expressions. -/
theorem index_lt_of_mem_dropLast {chain : List ExprId} (h : chain.IsChain a.Child)
    (hid : id ∈ chain.dropLast) : id.index < a.exprs.size := by
  induction h with
  | nil => cases hid
  | singleton => cases hid
  | cons_cons hchild _ ih =>
    rw [List.dropLast_cons_cons] at hid
    rcases List.mem_cons.1 hid with rfl | hid
    · exact hchild.index_lt
    · exact ih hid

/-- Without cycles, a chain never visits a number twice. -/
theorem nodup_of_isChain {path : List ExprId} (h : a.Acyclic root)
    (hchain : (root :: path).IsChain a.Child) : (root :: path).Nodup := by
  have hpairs : (root :: path).Pairwise (Relation.TransGen a.Child) :=
    (hchain.imp fun _ _ hchild => .single hchild).pairwise
  have hreached : ∀ id ∈ root :: path, a.Reaches root id := by
    intro id hid
    rcases List.mem_cons.1 hid with rfl | hid
    · exact .refl id
    · exact reaches_of_transGen ((List.pairwise_cons.1 hpairs).1 id hid)
  refine hpairs.imp_of_mem fun hid _ hcycle heq => ?_
  subst heq
  exact h _ (hreached _ hid) hcycle

/-- **A chain without cycles is not longer than the arena**, not counting its last number, which may
be of no expression. -/
theorem length_le_of_isChain {path : List ExprId} (h : a.Acyclic root)
    (hchain : (root :: path).IsChain a.Child) : path.length ≤ a.exprs.size := by
  have hnodup : ((root :: path).dropLast.map ExprId.index).Nodup := by
    refine List.Nodup.map ?_ ((nodup_of_isChain h hchain).sublist (List.dropLast_sublist _))
    rintro ⟨i⟩ ⟨j⟩ hij
    exact congrArg ExprId.mk hij
  have hsub : ((root :: path).dropLast.map ExprId.index).toFinset ⊆ Finset.range a.exprs.size := by
    intro i hi
    obtain ⟨id, hid, rfl⟩ := List.mem_map.1 (List.mem_toFinset.1 hi)
    exact Finset.mem_range.2 (index_lt_of_mem_dropLast hchain hid)
  have hcard := Finset.card_le_card hsub
  rw [List.toFinset_card_of_nodup hnodup, Finset.card_range, List.length_map,
    List.length_dropLast, List.length_cons] at hcard
  omega

/-! ## Trees without a bound on the depth -/

/-- An expression has a tree if all to which it refers have one. -/
theorem exists_treeWithin_of_children
    (h : ∀ j, a.Child id j → ∃ t, a.treeWithin d j = some t) :
    ∃ t, a.treeWithin (d + 1) id = some t := by
  have list : ∀ {ids : List ExprId}, (∀ j ∈ ids, ∃ t, a.treeWithin d j = some t) →
      ∃ ts, ids.mapM (a.treeWithin d) = some ts := by
    intro ids hids
    induction ids with
    | nil => exact ⟨[], rfl⟩
    | cons j ids ih =>
      obtain ⟨t, ht⟩ := hids j List.mem_cons_self
      obtain ⟨ts, hts⟩ := ih fun j hj => hids j (List.mem_cons_of_mem _ hj)
      exact ⟨t :: ts, by simp [List.mapM_cons, ht, hts]⟩
  unfold treeWithin
  cases he : a.get? id with
  | none => exact ⟨_, rfl⟩
  | some e =>
    have hchild : ∀ j ∈ a.children e.kind, ∃ t, a.treeWithin d j = some t :=
      fun j hj => h j ⟨e, he, hj⟩
    obtain ⟨kind, span⟩ := e
    cases kind with
    | leaf l => exact ⟨_, rfl⟩
    | paren inner =>
      obtain ⟨t, ht⟩ := hchild inner List.mem_cons_self
      simp [ht]
    | binary op l r =>
      obtain ⟨x, hx⟩ := hchild l List.mem_cons_self
      obtain ⟨y, hy⟩ := hchild r (List.mem_cons_of_mem _ List.mem_cons_self)
      simp [hx, hy]
    | call f args =>
      obtain ⟨x, hx⟩ := hchild f List.mem_cons_self
      obtain ⟨ys, hys⟩ := list fun j hj => hchild j (List.mem_cons_of_mem _ hj)
      simp [hx, hys]

/-- An expression without a tree of some depth begins a chain that is longer. -/
theorem exists_isChain_of_treeWithin_eq_none (h : a.treeWithin d id = none) :
    ∃ path : List ExprId, path.length = d ∧ (id :: path).IsChain a.Child := by
  induction d generalizing id with
  | zero => exact ⟨[], rfl, .singleton id⟩
  | succ d ih =>
    obtain ⟨j, hj, hnone⟩ : ∃ j, a.Child id j ∧ a.treeWithin d j = none := by
      by_contra hall
      have hchildren : ∀ j, a.Child id j → ∃ t, a.treeWithin d j = some t := by
        intro j hj
        exact Option.ne_none_iff_exists'.1 fun hnone => hall ⟨j, hj, hnone⟩
      obtain ⟨t, ht⟩ := exists_treeWithin_of_children hchildren
      rw [h] at ht
      cases ht
    obtain ⟨path, hlength, hchain⟩ := ih hnone
    exact ⟨j :: path, congrArg Nat.succ hlength, .cons_cons hj hchain⟩

/-- **Without cycles there is a tree**: a chain as long as it would have to be repeats a number. -/
theorem Acyclic.exists_tree? (h : a.Acyclic root) : ∃ t, a.tree? root = some t := by
  by_contra hnone
  have hdepth : a.treeWithin (a.exprs.size + 1) root = none :=
    Option.eq_none_iff_forall_ne_some.2 fun t ht => hnone ⟨t, ht⟩
  obtain ⟨path, hlength, hchain⟩ := exists_isChain_of_treeWithin_eq_none hdepth
  have hbound := length_le_of_isChain h hchain
  omega

/-- Below an expression with a tree all chains come to an end. -/
theorem acc_of_treeWithin (h : a.treeWithin d id = some t) : Acc (Function.swap a.Child) id := by
  induction d generalizing id t with
  | zero => cases h
  | succ d ih =>
    refine ⟨id, ?_⟩
    rintro j ⟨e, he, hj⟩
    obtain ⟨s, -, hs⟩ := exists_of_forall₂_of_mem (forall₂_children he h) hj
    exact ih hs

theorem acyclic_of_treeWithin (h : a.treeWithin d root = some t) : a.Acyclic root := by
  -- a number on a cycle is below itself, and then not all chains from it come to an end
  have irrefl : ∀ {r : ExprId → ExprId → Prop} {i}, Acc r i → ¬r i i := by
    intro r i hi
    induction hi with
    | intro i _ ih => exact fun hloop => ih i hloop hloop
  intro id hid hcycle
  have hacc : Acc (Function.swap a.Child) id := by
    have hroot := acc_of_treeWithin h
    clear h hcycle
    induction hid with
    | refl => exact hroot
    | step he hnext _ ih => exact ih (hroot.inv ⟨_, he, hnext⟩)
  exact irrefl hacc.transGen (Relation.transGen_swap.2 hcycle)

/-- **There is a tree if and only if there is no cycle.** -/
theorem exists_tree?_iff_acyclic : (∃ t, a.tree? root = some t) ↔ a.Acyclic root :=
  ⟨fun ⟨_, h⟩ => acyclic_of_treeWithin h, Acyclic.exists_tree?⟩

/-! ## The unfolded tree -/

/-- A tree is unfolded from a number: expression by expression, with what is shared copied. -/
inductive Unfolds (a : Arena) : ExprId → Tree → Prop
  | missing {id : ExprId} (h : a.get? id = none) : Unfolds a id .missing
  | leaf {id : ExprId} {l : Leaf} {span : Span} (h : a.get? id = some ⟨.leaf l, span⟩) :
    Unfolds a id (.leaf l span)
  | paren {id inner : ExprId} {span : Span} {t : Tree}
    (h : a.get? id = some ⟨.paren inner, span⟩) (ht : Unfolds a inner t) :
    Unfolds a id (.paren t span)
  | binary {id left right : ExprId} {op : Operator} {span : Span} {l r : Tree}
    (h : a.get? id = some ⟨.binary op left right, span⟩) (hl : Unfolds a left l)
    (hr : Unfolds a right r) : Unfolds a id (.binary op l r span)
  | call {id func : ExprId} {args : ExprRange} {span : Span} {f : Tree} {ts : List Tree}
    (h : a.get? id = some ⟨.call func args, span⟩) (hf : Unfolds a func f)
    (hts : List.Forall₂ (Unfolds a) (a.list args) ts) : Unfolds a id (.call f ts span)

/-- The tree within a depth is unfolded. -/
theorem unfolds_of_treeWithin (h : a.treeWithin d id = some t) : a.Unfolds id t := by
  induction d generalizing id t with
  | zero => cases h
  | succ d ih =>
    cases he : a.get? id with
    | none =>
      simp only [treeWithin, he, Option.some.injEq] at h
      subst h
      exact .missing he
    | some e =>
      obtain ⟨kind, span⟩ := e
      simp only [treeWithin, he] at h
      cases kind with
      | leaf l =>
        cases h
        exact .leaf he
      | paren inner =>
        obtain ⟨x, hx, h⟩ := Option.bind_eq_some_iff.1 h
        cases h
        exact .paren he (ih hx)
      | binary op l r =>
        obtain ⟨x, hx, h⟩ := Option.bind_eq_some_iff.1 h
        obtain ⟨y, hy, h⟩ := Option.bind_eq_some_iff.1 h
        cases h
        exact .binary he (ih hx) (ih hy)
      | call f args =>
        obtain ⟨x, hx, h⟩ := Option.bind_eq_some_iff.1 h
        obtain ⟨ys, hys, h⟩ := Option.bind_eq_some_iff.1 h
        cases h
        exact .call he (ih hx) ((mapM_eq_some_iff.1 hys).imp fun _ _ => ih)

/-- Trees of several expressions, each within some depth, are all within one. -/
theorem exists_depth_of_forall₂ {ids : List ExprId} {ts : List Tree}
    (h : List.Forall₂ (fun j s => ∃ d, a.treeWithin d j = some s) ids ts) :
    ∃ d, ids.mapM (a.treeWithin d) = some ts := by
  induction h with
  | nil => exact ⟨0, rfl⟩
  | cons hhead _ ih =>
    obtain ⟨d, hd⟩ := hhead
    obtain ⟨d', hd'⟩ := ih
    refine ⟨max d d', mapM_eq_some_iff.2 (.cons (treeWithin_mono (le_max_left _ _) hd) ?_)⟩
    exact (mapM_eq_some_iff.1 hd').imp fun _ _ => treeWithin_mono (le_max_right _ _)

/-- What is unfolded is the tree within some depth. -/
theorem Unfolds.exists_treeWithin (h : a.Unfolds id t) : ∃ d, a.treeWithin d id = some t := by
  induction t generalizing id with
  | missing =>
    obtain ⟨he⟩ := h
    exact ⟨1, by simp [treeWithin, he]⟩
  | leaf l span =>
    cases h with
    | leaf he => exact ⟨1, by simp [treeWithin, he]⟩
  | paren inner span ih =>
    cases h with
    | paren he ht =>
      obtain ⟨d, hd⟩ := ih ht
      exact ⟨d + 1, by simp [treeWithin, he, hd]⟩
  | binary op left right span ihl ihr =>
    cases h with
    | binary he hl hr =>
      obtain ⟨d, hd⟩ := ihl hl
      obtain ⟨d', hd'⟩ := ihr hr
      have hleft := treeWithin_mono (le_max_left d d') hd
      have hright := treeWithin_mono (le_max_right d d') hd'
      exact ⟨max d d' + 1, by simp [treeWithin, he, hleft, hright]⟩
  | call func args span ihf ihargs =>
    cases h with
    | @call _ _ range _ _ _ he hf hts =>
      obtain ⟨d, hd⟩ := ihf hf
      have heach :
          List.Forall₂ (fun j s => ∃ d, a.treeWithin d j = some s) (a.list range) args := by
        rw [List.forall₂_iff_get] at hts ⊢
        exact ⟨hts.1, fun i hi hi' => ihargs _ (List.get_mem _ _) (hts.2 i hi hi')⟩
      obtain ⟨d', hd'⟩ := exists_depth_of_forall₂ heach
      have hfunc := treeWithin_mono (le_max_left d d') hd
      have hlist : (a.list range).mapM (a.treeWithin (max d d')) = some args :=
        mapM_eq_some_iff.2 ((mapM_eq_some_iff.1 hd').imp fun _ _ =>
          treeWithin_mono (le_max_right d d'))
      exact ⟨max d d' + 1, by simp [treeWithin, he, hfunc, hlist]⟩

/-- **The tree of an expression is the unfolded one.** What is unfolded has some depth, so there is
no cycle, and the size of the arena is enough. -/
theorem tree?_eq_some_iff : a.tree? id = some t ↔ a.Unfolds id t := by
  refine ⟨unfolds_of_treeWithin, fun h => ?_⟩
  obtain ⟨d, hd⟩ := h.exists_treeWithin
  -- the depth that was found may be larger than the arena; both give the tree of the larger one
  obtain ⟨s, hs⟩ := (acyclic_of_treeWithin hd).exists_tree?
  have hdeep := treeWithin_mono (le_max_left d (a.exprs.size + 1)) hd
  have hsame := treeWithin_mono (le_max_right d (a.exprs.size + 1)) hs
  rw [hdeep] at hsame
  rw [hs, hsame]

/-- The check of an expression is that of the tree unfolded from it, in any arena. -/
theorem Unfolds.check?_eq (h : a.Unfolds id t) (ctx : Context) :
    a.check? ctx id = some (t.check ctx) := check?_of_tree? (tree?_eq_some_iff.2 h)

/-! ## Arenas that are built -/

/-- The arenas that can be built, each with the argument lists that were added to it and the ranges
that were returned for them. The numbers in an expression or a list are arbitrary; the range of a
call is one that was returned, or the empty one. -/
inductive Built : Arena → List (ExprRange × List ExprId) → Prop
  | empty : Built .empty [(.empty, [])]
  | expr {a b : Arena} {lists : List (ExprRange × List ExprId)} {e : Expr} {id : ExprId}
    (h : Built a lists)
    (hargs : ∀ func args, e.kind = .call func args → ∃ ids, (args, ids) ∈ lists)
    (halloc : a.alloc? e = .ok (id, b)) : Built b lists
  | list {a b : Arena} {lists : List (ExprRange × List ExprId)} {ids : List ExprId}
    {range : ExprRange} (h : Built a lists) (halloc : a.allocList? ids = .ok (range, b)) :
    Built b ((range, ids) :: lists)

variable {b : Arena} {lists : List (ExprRange × List ExprId)}

theorem alloc?_eq_ok {e : Expr} (h : a.alloc? e = .ok (id, b)) :
    id = ⟨a.exprs.size⟩ ∧ b = { a with exprs := a.exprs.push e } := by
  unfold alloc? at h
  dsimp only at h
  split_ifs at h
  cases h
  exact ⟨rfl, rfl⟩

theorem allocList?_eq_ok {ids : List ExprId} {range : ExprRange}
    (h : a.allocList? ids = .ok (range, b)) :
    range = ⟨a.args.size, ids.length⟩ ∧ b = { a with args := a.args ++ ids } := by
  unfold allocList? at h
  dsimp only at h
  split_ifs at h
  cases h
  exact ⟨rfl, rfl⟩

/-- The range of a list that is added holds its numbers. -/
theorem list_append_self (a : Arena) (ids : List ExprId) :
    list { a with args := a.args ++ ids } ⟨a.args.size, ids.length⟩ = ids := by
  simp [Arena.list, List.extract_eq_take_drop]

/-- A list that is added leaves what the ranges before it hold. -/
theorem list_append {range : ExprRange} (ids : List ExprId)
    (h : range.start + range.length ≤ a.args.size) :
    list { a with args := a.args ++ ids } range = a.list range := by
  have hstart : range.start ≤ a.args.toList.length := by rw [Array.length_toList]; omega
  have hlength : range.length ≤ (a.args.toList.drop range.start).length := by
    rw [List.length_drop, Array.length_toList]
    omega
  simp only [Arena.list, Array.toList_extract, Array.toList_appendList, List.extract_eq_take_drop,
    Nat.add_sub_cancel_left]
  rw [List.drop_append_of_le_length hstart, List.take_append_of_le_length hlength]

/-- **Every argument list stays where it was put**: its range is within the storage, and holds the
numbers that were given. -/
theorem Built.list_eq (h : a.Built lists) {range : ExprRange} {ids : List ExprId}
    (hlist : (range, ids) ∈ lists) :
    range.start + range.length ≤ a.args.size ∧ a.list range = ids := by
  induction h generalizing range ids with
  | empty =>
    cases List.mem_singleton.1 hlist
    exact ⟨Nat.le_refl _, rfl⟩
  | expr _ _ halloc ih =>
    obtain ⟨-, rfl⟩ := alloc?_eq_ok halloc
    exact ih hlist
  | @list a b lists added range' _ halloc ih =>
    obtain ⟨rfl, rfl⟩ := allocList?_eq_ok halloc
    have hsize : (a.args ++ added).size = a.args.size + added.length := by
      rw [← Array.length_toList, Array.toList_appendList, List.length_append, Array.length_toList]
    rcases List.mem_cons.1 hlist with heq | hold
    · cases heq
      exact ⟨hsize.ge, list_append_self a added⟩
    · obtain ⟨hbound, hids⟩ := ih hold
      rw [list_append added hbound]
      exact ⟨hbound.trans ((Nat.le_add_right _ _).trans hsize.ge), hids⟩

/-- The range of every call was returned for a list. -/
theorem Built.range_mem (h : a.Built lists) {func : ExprId} {args : ExprRange} {span : Span}
    (hid : a.get? id = some ⟨.call func args, span⟩) : ∃ ids, (args, ids) ∈ lists := by
  induction h generalizing id with
  | empty => cases hid
  | @expr a b lists e _ _ hargs halloc ih =>
    obtain ⟨-, rfl⟩ := alloc?_eq_ok halloc
    rw [get?, Array.getElem?_push] at hid
    split_ifs at hid
    · exact hargs func args (by cases hid; rfl)
    · exact ih hid
  | list _ halloc ih =>
    obtain ⟨-, rfl⟩ := allocList?_eq_ok halloc
    obtain ⟨ids, hids⟩ := ih hid
    exact ⟨ids, List.mem_cons_of_mem _ hids⟩

end Arena

/-- **Recursion over an arena is bounded, and sharing is not seen.** In an arena that is built,
below an expression from which no cycle is reached:

* nested checks are at most one deeper than the arena is large;
* the range of every call is within the argument storage, and holds the list it was returned for;
* the check is found within that depth, and is that of the one tree that is unfolded;
* every arena from which the same tree is unfolded gives the same node and the same errors. -/
theorem check_of_acyclic {a : Arena} {lists : List (ExprRange × List ExprId)} {root : ExprId}
    (ha : a.Built lists) (hroot : a.Acyclic root) :
    (∀ path, (root :: path).IsChain a.Child → (root :: path).length ≤ a.exprs.size + 1) ∧
    (∀ id func range span, a.get? id = some ⟨.call func range, span⟩ →
      range.start + range.length ≤ a.args.size ∧
      ∃ ids, (range, ids) ∈ lists ∧ a.list range = ids) ∧
    ∃ t, a.Unfolds root t ∧ (∀ u, a.Unfolds root u → u = t) ∧
      (∀ ctx depth, a.exprs.size + 1 ≤ depth →
        a.checkWithin ctx depth root = some (t.check ctx)) ∧
      ∀ (b : Arena) (other : ExprId) (ctx : Context), b.Unfolds other t →
        b.check? ctx other = a.check? ctx root := by
  refine ⟨?_, ?_, ?_⟩
  · intro path hpath
    exact Nat.succ_le_succ (Arena.length_le_of_isChain hroot hpath)
  · intro id func range span hcall
    obtain ⟨ids, hids⟩ := ha.range_mem hcall
    obtain ⟨hbound, hlist⟩ := ha.list_eq hids
    exact ⟨hbound, ids, hids, hlist⟩
  · obtain ⟨t, ht⟩ := hroot.exists_tree?
    have hunfolds := Arena.tree?_eq_some_iff.1 ht
    refine ⟨t, hunfolds, ?_, ?_, ?_⟩
    · intro u hu
      rw [Arena.tree?_eq_some_iff.2 hu] at ht
      exact Option.some.inj ht
    · intro ctx depth hdepth
      rw [Arena.checkWithin_eq, Arena.treeWithin_mono hdepth ht, Option.map_some]
    · intro b other ctx hother
      rw [hother.check?_eq, hunfolds.check?_eq]

/-! ## Two layouts of a call

`f(1, 1, …)`, whose last argument is missing. -/

/-- The call comes first, and its two equal arguments are one expression. -/
def Arena.callFirst : Arena where
  exprs := #[⟨.call ⟨2⟩ ⟨0, 3⟩, ⟨0, 7⟩⟩, ⟨.leaf (.int ⟨2⟩), ⟨2, 3⟩⟩, ⟨.leaf (.ident ⟨1⟩), ⟨0, 1⟩⟩]
  args := #[⟨1⟩, ⟨1⟩, .invalid]

/-- The call comes last, its arguments are copied, and stand behind another list. -/
def Arena.callLast : Arena where
  exprs := #[⟨.leaf (.ident ⟨1⟩), ⟨0, 1⟩⟩, ⟨.leaf (.int ⟨2⟩), ⟨2, 3⟩⟩, ⟨.leaf (.int ⟨2⟩), ⟨2, 3⟩⟩,
    ⟨.call ⟨0⟩ ⟨1, 3⟩, ⟨0, 7⟩⟩]
  args := #[⟨3⟩, ⟨1⟩, ⟨2⟩, ⟨9⟩]

/-- The name and the number of the call, and no bindings. -/
def Context.callOfNone : Context where
  names := { strings := #["", "f", "1"], numbers := {} }
  env := .empty
  word := .bits64

/-- What is unfolded from the call. -/
def Tree.callOfNone : Tree :=
  .call (.leaf (.ident ⟨1⟩) ⟨0, 1⟩)
    [.leaf (.int ⟨2⟩) ⟨2, 3⟩, .leaf (.int ⟨2⟩) ⟨2, 3⟩, .missing] ⟨0, 7⟩

/-- The two layouts give the same two errors. -/
theorem check_of_acyclic_layouts : ∃ r,
    Arena.callFirst.checkWithin .callOfNone 4 ⟨0⟩ = some r ∧
    Arena.callLast.check? .callOfNone ⟨3⟩ = some r ∧
    r.errors = [⟨⟨0, 1⟩, .undefinedIdentifier "f"⟩, ⟨.none, .internal⟩] := by
  have hbuilt : Arena.callFirst.Built [(⟨0, 3⟩, [⟨1⟩, ⟨1⟩, .invalid]), (.empty, [])] := by
    refine .expr (.expr (.expr (.list .empty rfl) ?_ rfl) ?_ rfl) ?_ rfl
    · rintro func args ⟨⟩
      exact ⟨_, List.mem_cons_self⟩
    · rintro func args ⟨⟩
    · rintro func args ⟨⟩
  have hfirst : Arena.callFirst.tree? ⟨0⟩ = some .callOfNone := rfl
  have hlast : Arena.callLast.Unfolds ⟨3⟩ .callOfNone := Arena.tree?_eq_some_iff.1 rfl
  obtain ⟨-, -, t, -, hunique, hcheck, hsame⟩ :=
    check_of_acyclic hbuilt (Arena.exists_tree?_iff_acyclic.1 ⟨_, hfirst⟩)
  obtain rfl := hunique _ (Arena.tree?_eq_some_iff.1 hfirst)
  exact ⟨_, hcheck .callOfNone 4 (Nat.le_refl _),
    (hsame _ _ _ hlast).trans (hcheck .callOfNone 4 (Nat.le_refl _)), rfl⟩

end ConstCheck
