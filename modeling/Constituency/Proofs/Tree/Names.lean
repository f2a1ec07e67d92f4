import Constituency.Proofs.Tree.Preorder

/-!
# Trees that can be told apart by their names

The printed forms of a tree show the names of its nodes but not which of them are words.
They can only tell trees apart in which the shape shows this too: the words are the nodes
without children. And a name must not hold the characters that a printed form sets between
names. Both are asked of all nodes of a tree, and hold of a node and of its children when
they hold of the tree.

## Main declarations

* `WordsAtLeaves` — exactly the words have nothing below them.
* `NamesAvoid`    — no name has one of the given characters.
-/

namespace Constituency

theorem Symbol.eq_of_name_eq {l m : Symbol} (hkind : l.isTerminal = m.isTerminal)
    (hname : l.name = m.name) : l = m := by
  cases l with
  | terminal w =>
    cases m with
    | terminal v => exact congrArg terminal hname
    | nonterminal b => cases hkind
  | nonterminal a =>
    cases m with
    | terminal v => cases hkind
    | nonterminal b => exact congrArg nonterminal hname

namespace Tree

/-- Exactly the words have nothing below them. -/
def WordsAtLeaves (t : Tree) : Prop :=
  ∀ s ∈ t.subtrees, s.label.isTerminal = s.isLeaf

/-- No name in the tree has one of the characters. -/
def NamesAvoid (chars : List Char) (t : Tree) : Prop :=
  ∀ s ∈ t.subtrees, ∀ c ∈ s.label.name.toList, c ∉ chars

instance : DecidablePred WordsAtLeaves := fun t =>
  decidable_of_iff (t.preorder.all fun s => s.label.isTerminal == s.isLeaf)
    (by simp [WordsAtLeaves, subtrees_eq_preorder])

instance (chars : List Char) : DecidablePred (NamesAvoid chars) := fun t =>
  decidable_of_iff (t.preorder.all fun s => s.label.name.toList.all fun c => c ∉ chars)
    (by simp [NamesAvoid, subtrees_eq_preorder])

variable {l : Symbol} {cs : List Tree}

/-- What holds of all subtrees of a node holds of the node and of all subtrees of its
children. -/
theorem forall_mem_subtrees_node {p : Tree → Prop} :
    (∀ s ∈ (node l cs).subtrees, p s) ↔ p (node l cs) ∧ ∀ c ∈ cs, ∀ s ∈ c.subtrees, p s := by
  rw [subtrees_node, List.forall_mem_cons, List.forall_mem_flatMap]

theorem wordsAtLeaves_node :
    (node l cs).WordsAtLeaves ↔ l.isTerminal = cs.isEmpty ∧ ∀ c ∈ cs, c.WordsAtLeaves :=
  forall_mem_subtrees_node

theorem namesAvoid_node {chars : List Char} :
    (node l cs).NamesAvoid chars ↔
      (∀ c ∈ l.name.toList, c ∉ chars) ∧ ∀ c ∈ cs, c.NamesAvoid chars :=
  forall_mem_subtrees_node

/-- Where the words are the leaves, the name of a node and whether it has children give the
label. -/
theorem WordsAtLeaves.label_eq {m : Symbol} {ds : List Tree} (ht : (node l cs).WordsAtLeaves)
    (hu : (node m ds).WordsAtLeaves) (hchildren : cs.isEmpty = ds.isEmpty)
    (hname : l.name = m.name) : l = m := by
  refine Symbol.eq_of_name_eq ?_ hname
  rw [(wordsAtLeaves_node.1 ht).1, (wordsAtLeaves_node.1 hu).1, hchildren]

end Tree

end Constituency
