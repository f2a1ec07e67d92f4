import Constituency.Symbol

/-!
# Trees

A tree is a node labelled with a symbol over the trees of its children. In the
trees that a grammar yields, the nodes labelled with words are the ones without
children; the type itself asks for neither, and everything below is defined for
every tree.

## Main declarations

* `Tree`, `Tree.leaf`, `Tree.branch` — the trees.
* `Tree.inductionOn`                 — what holds of a node whenever it holds of
  its children holds of every tree.
* `Tree.Walk`, `Tree.Walk.next`      — a walk over a tree, and its next step.
* `Tree.subtrees`                    — the tree and all it contains, parents
  before children and left before right.
* `Tree.leaves`, `Tree.phrase`       — the words, left to right.
-/

namespace Constituency

/-- A node labelled with a symbol, over its children from left to right. -/
inductive Tree where
  | node (label : Symbol) (children : List Tree)
deriving Inhabited

namespace Tree

/-- The symbol at the root. -/
def label : Tree → Symbol
  | .node l _ => l

/-- The trees right below the root. -/
def children : Tree → List Tree
  | .node _ cs => cs

/-- A word on its own. -/
def leaf (word : String) : Tree :=
  .node (.terminal word) []

/-- A phrase of the kind `name`. -/
def branch (name : String) (cs : List Tree) : Tree :=
  .node (.nonterminal name) cs

/-- Whether nothing stands below the root. -/
def isLeaf (t : Tree) : Bool :=
  t.children.isEmpty

/-- Whether the root is a phrase of the kind `name`. A word never is. -/
def hasLabel (name : String) (t : Tree) : Bool :=
  t.label = .nonterminal name

@[simp] theorem label_node (l : Symbol) (cs : List Tree) : (node l cs).label = l := rfl

@[simp] theorem children_node (l : Symbol) (cs : List Tree) : (node l cs).children = cs := rfl

-- ---------------------------------------------------------------------------
-- Induction and equality
-- ---------------------------------------------------------------------------

/-- What holds of a node whenever it holds of all its children holds of every
tree. -/
@[induction_eliminator, elab_as_elim]
theorem inductionOn {motive : Tree → Prop}
    (node : ∀ l cs, (∀ c ∈ cs, motive c) → motive (node l cs)) (t : Tree) : motive t :=
  t.rec (motive_2 := fun cs => ∀ c ∈ cs, motive c) node
    (fun _ h => absurd h List.not_mem_nil)
    fun _ _ hc hcs c h => (List.mem_cons.1 h).elim (fun e => e ▸ hc) (hcs c)

mutual
/-- Equality of trees: equal labels and equal children. -/
def decEq : (t u : Tree) → Decidable (t = u)
  | .node l cs, .node m ds =>
    if h : l = m then
      match decEqChildren cs ds with
      | isTrue hc => isTrue (by rw [h, hc])
      | isFalse hc => isFalse fun e => hc (Tree.node.inj e).2
    else isFalse fun e => h (Tree.node.inj e).1
/-- Equality of lists of trees, tree by tree. -/
def decEqChildren : (ts us : List Tree) → Decidable (ts = us)
  | [], [] => isTrue rfl
  | [], _ :: _ => isFalse nofun
  | _ :: _, [] => isFalse nofun
  | t :: ts, u :: us =>
    match decEq t u with
    | isTrue ht =>
      match decEqChildren ts us with
      | isTrue hts => isTrue (by rw [ht, hts])
      | isFalse hts => isFalse fun e => hts (List.cons.inj e).2
    | isFalse ht => isFalse fun e => ht (List.cons.inj e).1
end

instance : DecidableEq Tree := decEq

-- ---------------------------------------------------------------------------
-- Size
-- ---------------------------------------------------------------------------

mutual
/-- The number of nodes. -/
def size : Tree → Nat
  | .node _ cs => sizeAll cs + 1
/-- The number of nodes of several trees. -/
def sizeAll : List Tree → Nat
  | [] => 0
  | t :: ts => size t + sizeAll ts
end

theorem sizeAll_append (ts us : List Tree) : sizeAll (ts ++ us) = sizeAll ts + sizeAll us := by
  induction ts with
  | nil => simp [sizeAll]
  | cons t ts ih => simp [sizeAll, ih, Nat.add_assoc]

theorem sizeAll_reverse (ts : List Tree) : sizeAll ts.reverse = sizeAll ts := by
  induction ts with
  | nil => rfl
  | cons t ts ih => simp [sizeAll, sizeAll_append, ih, Nat.add_comm]

theorem size_eq (t : Tree) : t.size = sizeAll t.children + 1 := by
  cases t; rfl

-- ---------------------------------------------------------------------------
-- Walking a tree
-- ---------------------------------------------------------------------------

/-- A walk over trees. -/
structure Walk where
  /-- What is still to be visited, the next tree last. -/
  stack : Array Tree

namespace Walk

/-- The walk over a tree before its first step. -/
def start (t : Tree) : Walk := ⟨#[t]⟩

/-- The next tree, if any, and the walk after it. The children of the tree come onto
the stack from the last to the first, so that the first one is next. -/
def next (w : Walk) : Option Tree × Walk :=
  match w.stack.back? with
  | none => (none, w)
  | some t => (some t, ⟨w.stack.pop ++ t.children.reverse⟩)

@[simp] theorem next_empty : (⟨#[]⟩ : Walk).next = (none, ⟨#[]⟩) := rfl

@[simp] theorem next_push (stack : Array Tree) (t : Tree) :
    (⟨stack.push t⟩ : Walk).next = (some t, ⟨stack ++ t.children.reverse⟩) := by
  simp [next]

/-- A walk is at its end, or has a tree on top of its stack. -/
theorem eq_empty_or_push (w : Walk) :
    w = ⟨#[]⟩ ∨ ∃ (stack : Array Tree) (t : Tree), w = ⟨stack.push t⟩ := by
  obtain ⟨stack⟩ := w
  cases htop : stack.back? with
  | none => exact Or.inl (congrArg Walk.mk (Array.back?_eq_none_iff.1 htop))
  | some t =>
    obtain ⟨below, hstack⟩ := Array.back?_eq_some_iff.1 htop
    exact Or.inr ⟨below, t, congrArg Walk.mk hstack⟩

/-- The number of nodes that are still to be visited. -/
def size (w : Walk) : Nat :=
  sizeAll w.stack.toList

/-- Every visit is to one node. -/
theorem size_of_next {w rest : Walk} {t : Tree} (h : w.next = (some t, rest)) :
    w.size = rest.size + 1 := by
  rcases eq_empty_or_push w with rfl | ⟨stack, u, rfl⟩
  · simp at h
  · rw [next_push, Prod.mk.injEq, Option.some.injEq] at h
    obtain ⟨rfl, rfl⟩ := h
    simp [size, sizeAll, sizeAll_append, sizeAll_reverse, size_eq u, Nat.add_assoc]

/-- The trees that are visited, in the order of the visits. -/
def toList (w : Walk) : List Tree :=
  match _h : w.next with
  | (none, _) => []
  | (some t, rest) => t :: rest.toList
termination_by w.size
decreasing_by
  have hsize := size_of_next ‹w.next = _›
  omega

end Walk

/-- The tree and every tree inside it, parents before children and left before
right. -/
def subtrees (t : Tree) : List Tree :=
  (Walk.start t).toList

/-- The words of the tree, left to right. -/
def leaves (t : Tree) : List String :=
  (t.subtrees.filter fun s => s.label.isTerminal).map fun s => s.label.name

/-- The words of the tree with a blank between any two. -/
def phrase (t : Tree) : String :=
  " ".intercalate t.leaves

end Tree

end Constituency
