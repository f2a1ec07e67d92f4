import Constituency.Proofs.Answers
import Constituency.Proofs.Tree.Chunk

/-!
# Walking a tree step by step

A walk that is asked for its next tree again and again answers with the subtrees of the tree,
in pre-order, and then with nothing more: the stack accounts for what is to come. No subtree
is left out and none is visited twice, as the visits are to the places in the tree, each of
which comes once.

When a tree comes to the top of the stack, all its nodes are visited before anything that
lies below it. So the visits to one subtree stand together, and so do its words in the words
of the whole tree, behind the words that were visited before.

## Main declarations

* `Walk.after`, `Walk.next_after` — what a walk answers after `n` steps.
* `exists_drop_subtrees_eq` — the visits to a subtree stand together.
* `visits_in_preorder`      — the walk, its places and its words.
-/

namespace Constituency.Tree

-- ---------------------------------------------------------------------------
-- Steps
-- ---------------------------------------------------------------------------

namespace Walk

/-- The walk after `n` more steps. -/
def after (w : Walk) (n : Nat) : Walk :=
  (fun w => w.next.2)^[n] w

/-- What lies on the stack accounts for the answers. -/
theorem accounts : Accounts next remaining := by
  refine ⟨remaining_eq_next, fun w h => ?_⟩
  rcases eq_empty_or_push w with rfl | ⟨stack, t, rfl⟩
  · rfl
  · rw [next_push] at h
    cases h

/-- After `n` steps, a walk answers with the `n`-th tree to come. -/
theorem next_after (w : Walk) (n : Nat) : (w.after n).next.1 = w.remaining[n]? :=
  accounts.next_iterate w n

theorem remaining_after (w : Walk) (n : Nat) : (w.after n).remaining = w.remaining.drop n :=
  accounts.remaining_iterate w n

theorem next_after_start (t : Tree) (n : Nat) :
    ((start t).after n).next.1 = t.subtrees[n]? := by
  rw [next_after, remaining_start, subtrees_eq_preorder]

end Walk

-- ---------------------------------------------------------------------------
-- Visits
-- ---------------------------------------------------------------------------

mutual
theorem length_preorder (t : Tree) : t.preorder.length = t.size := by
  match t with
  | .node l cs => rw [preorder, List.length_cons, length_preorderAll, size]
theorem length_preorderAll (ts : List Tree) : (preorderAll ts).length = sizeAll ts := by
  match ts with
  | [] => rfl
  | t :: ts => rw [preorderAll, List.length_append, length_preorder, length_preorderAll, sizeAll]
end

/-- A tree comes with all its subtrees: the visits to them follow each other. -/
theorem exists_drop_subtrees_eq {t s : Tree} {n : Nat} (h : t.subtrees[n]? = some s) :
    ∃ rest, t.subtrees.drop n = s.subtrees ++ rest := by
  have hnext := Walk.next_after_start t n
  have hremaining := Walk.remaining_after (Walk.start t) n
  rw [Walk.remaining_start, ← subtrees_eq_preorder] at hremaining
  rw [h] at hnext
  rcases Walk.eq_empty_or_push ((Walk.start t).after n) with hempty | ⟨stack, u, hpush⟩
  · rw [hempty] at hnext
    cases hnext
  · -- the tree on top is the one that the walk answers with
    rw [hpush, Walk.next_push] at hnext
    obtain rfl := Option.some.inj hnext
    rw [hpush, Walk.remaining_push, ← subtrees_eq_preorder] at hremaining
    exact ⟨_, hremaining.symm⟩

/-- The words among visited trees. -/
def visitedWords (ts : List Tree) : List String :=
  (ts.filter fun s => s.label.isTerminal).map fun s => s.label.name

theorem visitedWords_append (ts us : List Tree) :
    visitedWords (ts ++ us) = visitedWords ts ++ visitedWords us := by
  rw [visitedWords, List.filter_append, List.map_append]
  rfl

/-- The words of a subtree stand together, behind the words of the visits before. -/
theorem exists_leaves_eq {t s : Tree} {n : Nat} (h : t.subtrees[n]? = some s) :
    ∃ rest, t.leaves = visitedWords (t.subtrees.take n) ++ (s.leaves ++ rest) := by
  obtain ⟨rest, hrest⟩ := exists_drop_subtrees_eq h
  have hsplit := List.take_append_drop n t.subtrees
  rw [hrest] at hsplit
  refine ⟨visitedWords rest, ?_⟩
  calc t.leaves = visitedWords (t.subtrees.take n ++ (s.subtrees ++ rest)) := by rw [hsplit]; rfl
    _ = visitedWords (t.subtrees.take n) ++ (s.leaves ++ visitedWords rest) := by
      rw [visitedWords_append, visitedWords_append]
      rfl

theorem nodup_map_address_occurrences (t : Tree) : (t.occurrences.map Occurrence.address).Nodup := by
  have hincreasing := occurrencesAt_increasing [] t
  refine List.pairwise_map.2 (hincreasing.imp fun hlt heq => ?_)
  rw [heq] at hlt
  exact List.lt_irrefl _ hlt

/-- A walk comes to its end. Its visits are to the tree and then to those of its children, one
child after the other, and to every place in the tree exactly once. The words of the tree are
its own, if it is a word, and those of its children, and the words of every subtree stand
together among them. -/
theorem visits_in_preorder (t : Tree) :
    (∀ n, ((Walk.start t).after n).next.1 = t.subtrees[n]?) ∧
    t.subtrees.length = t.size ∧
    t.subtrees = t :: t.children.flatMap subtrees ∧
    t.subtrees = t.occurrences.map Occurrence.tree ∧
    (∀ o, o ∈ t.occurrences ↔ t.descend o.address = some o.tree) ∧
    (t.occurrences.map Occurrence.address).Nodup ∧
    t.leaves = (if t.label.isTerminal then [t.label.name] else []) ++ t.children.flatMap leaves ∧
    ∀ n s, t.subtrees[n]? = some s →
      ∃ rest, t.leaves = visitedWords (t.subtrees.take n) ++ (s.leaves ++ rest) := by
  refine ⟨Walk.next_after_start t, ?_, ?_, (map_tree_occurrencesAt [] t).symm,
    fun o => mem_occurrences, nodup_map_address_occurrences t, ?_, fun n s => exists_leaves_eq⟩
  · rw [subtrees_eq_preorder, length_preorder]
  · obtain ⟨l, cs⟩ := t
    exact subtrees_node l cs
  · obtain ⟨l, cs⟩ := t
    exact leaves_node l cs

end Constituency.Tree
