import Constituency.Tree.Basic

/-!
# Trees in pre-order

A walk over a tree keeps a stack: it visits the tree on top and puts the children of that
tree in its place, the first one on top. Seen from the outside this is the plain pre-order.
A node comes first and is followed by the walks of its children, one after the other; so the
words of a tree are those of its children, and every statement about the walk can be proved
by recursion on the tree.

The reason is what a stack stands for. The walk will come to all nodes of the tree on top, in
pre-order, before it comes to those of the tree below it. This account of what is to come
loses its first tree with every step and nothing else.

## Main declarations

* `preorder`       — the pre-order by recursion.
* `Walk.remaining`, `Walk.remaining_eq_next` — what is to come, before and after a step.
* `subtrees_eq_preorder` — the walk is the pre-order.
* `subtrees_node` — a tree, then the subtrees of its children in order.
* `leaves_node`   — the words of the children in order, after the node's own.
-/

namespace Constituency

namespace Tree

-- ---------------------------------------------------------------------------
-- The walk
-- ---------------------------------------------------------------------------

mutual
/-- A tree, then the pre-orders of its children. -/
def preorder : Tree → List Tree
  | .node l cs => .node l cs :: preorderAll cs
/-- The pre-orders of several trees, one after the other. -/
def preorderAll : List Tree → List Tree
  | [] => []
  | t :: ts => preorder t ++ preorderAll ts
end

theorem preorderAll_append (ts us : List Tree) :
    preorderAll (ts ++ us) = preorderAll ts ++ preorderAll us := by
  induction ts with
  | nil => rfl
  | cons t ts ih => rw [List.cons_append, preorderAll, preorderAll, ih, List.append_assoc]

theorem preorder_eq (t : Tree) : t.preorder = t :: preorderAll t.children := by
  obtain ⟨l, cs⟩ := t
  rw [preorder, children_node]

namespace Walk

/-- The trees that are still to come: those of the tree on top, then those below it. -/
def remaining (w : Walk) : List Tree :=
  preorderAll w.stack.toList.reverse

theorem remaining_push (stack : Array Tree) (t : Tree) :
    (⟨stack.push t⟩ : Walk).remaining = t.preorder ++ (⟨stack⟩ : Walk).remaining := by
  rw [remaining, Array.toList_push, List.reverse_concat, preorderAll]
  rfl

theorem remaining_start (t : Tree) : (start t).remaining = t.preorder :=
  List.append_nil _

/-- The children take the place of their parent. -/
theorem remaining_append_reverse (stack : Array Tree) (ts : List Tree) :
    (⟨stack ++ ts.reverse⟩ : Walk).remaining = preorderAll ts ++ (⟨stack⟩ : Walk).remaining := by
  rw [remaining, Array.toList_appendList, List.reverse_append, List.reverse_reverse,
    preorderAll_append]
  rfl

/-- A step takes the first of the trees to come, and leaves the others. -/
theorem remaining_eq_next (w : Walk) :
    w.remaining = w.next.1.toList ++ w.next.2.remaining := by
  rcases eq_empty_or_push w with rfl | ⟨stack, t, rfl⟩
  · rfl
  · rw [next_push, remaining_push, remaining_append_reverse, preorder_eq, List.cons_append]
    rfl

/-- A walk comes to all that is to come. -/
theorem toList_eq_remaining (w : Walk) : w.toList = w.remaining := by
  fun_induction toList w with
  | case1 w rest h =>
    rcases eq_empty_or_push w with rfl | ⟨stack, t, rfl⟩
    · rfl
    · rw [next_push] at h
      cases h
  | case2 w t rest h ih =>
    rw [remaining_eq_next w, h, ih]
    rfl

end Walk

/-- The walk over a tree is its pre-order. -/
theorem subtrees_eq_preorder (t : Tree) : t.subtrees = t.preorder := by
  rw [subtrees, Walk.toList_eq_remaining, Walk.remaining_start]

-- ---------------------------------------------------------------------------
-- Subtrees
-- ---------------------------------------------------------------------------

theorem preorderAll_eq_flatMap (ts : List Tree) : preorderAll ts = ts.flatMap subtrees := by
  induction ts with
  | nil => rfl
  | cons t ts ih => rw [preorderAll, ih, List.flatMap_cons, subtrees_eq_preorder]

theorem subtrees_node (l : Symbol) (cs : List Tree) :
    (node l cs).subtrees = node l cs :: cs.flatMap subtrees := by
  rw [subtrees_eq_preorder, preorder, preorderAll_eq_flatMap]

theorem mem_subtrees_node {l : Symbol} {cs : List Tree} {u : Tree} :
    u ∈ (node l cs).subtrees ↔ u = node l cs ∨ ∃ c ∈ cs, u ∈ c.subtrees := by
  rw [subtrees_node, List.mem_cons, List.mem_flatMap]

theorem self_mem_subtrees (t : Tree) : t ∈ t.subtrees := by
  obtain ⟨l, cs⟩ := t
  exact mem_subtrees_node.2 (Or.inl rfl)

/-- A subtree of a subtree is a subtree. -/
theorem mem_subtrees_trans {t u v : Tree} (huv : v ∈ u.subtrees) (htu : u ∈ t.subtrees) :
    v ∈ t.subtrees := by
  induction t with
  | node l cs ih =>
    rcases mem_subtrees_node.1 htu with rfl | ⟨c, hc, huc⟩
    · exact huv
    · exact mem_subtrees_node.2 (Or.inr ⟨c, hc, ih c hc huc⟩)

-- ---------------------------------------------------------------------------
-- Words
-- ---------------------------------------------------------------------------

theorem leaves_node (l : Symbol) (cs : List Tree) :
    (node l cs).leaves = (if l.isTerminal then [l.name] else []) ++ cs.flatMap leaves := by
  have hchildren : ((cs.flatMap subtrees).filter fun s => s.label.isTerminal).map
      (fun s => s.label.name) = cs.flatMap leaves := by
    rw [List.filter_flatMap, List.map_flatMap]
    rfl
  rw [leaves, subtrees_node, List.filter_cons, label_node]
  split
  · rw [List.map_cons, hchildren, label_node, List.singleton_append]
  · rw [hchildren, List.nil_append]

@[simp] theorem leaves_leaf (w : String) : (leaf w).leaves = [w] := by
  rw [leaf, leaves_node]
  rfl

@[simp] theorem leaves_branch (a : String) (cs : List Tree) :
    (branch a cs).leaves = cs.flatMap leaves := by
  rw [branch, leaves_node]
  rfl

@[simp] theorem label_leaf (w : String) : (leaf w).label = .terminal w := rfl

@[simp] theorem label_branch (a : String) (cs : List Tree) :
    (branch a cs).label = .nonterminal a := rfl

theorem hasLabel_iff {a : String} {t : Tree} :
    t.hasLabel a = true ↔ t.label = .nonterminal a := by
  rw [hasLabel, decide_eq_true_iff]

end Tree

end Constituency
