import Constituency.Grammar.Basic
import Constituency.Tree.Basic

/-!
# Licensed trees

A grammar licenses a tree when every node is accounted for: a word has no
children, and a phrase has the children of one of the rules for its kind.

## Main declarations

* `Grammar.licensesNode` — whether a label may stand right above given labels.
* `Grammar.licenses`     — the same for a whole tree.
-/

namespace Constituency

namespace Grammar

/-- Whether a node labelled `l` may have children labelled `below`: a word has
none, and a phrase has the right-hand side of one of its rules. -/
def licensesNode (g : Grammar) (l : Symbol) (below : List Symbol) : Bool :=
  match l with
  | .terminal _ => below.isEmpty
  | .nonterminal a => (g.rulesFor a).any fun p => p.rhs = below

mutual
/-- Whether every node of the tree is licensed by the grammar. -/
def licenses (g : Grammar) : Tree → Bool
  | .node l cs => g.licensesNode l (cs.map Tree.label) && g.licensesAll cs
/-- Whether every one of the trees is licensed by the grammar. -/
def licensesAll (g : Grammar) : List Tree → Bool
  | [] => true
  | t :: ts => g.licenses t && g.licensesAll ts
end

theorem licensesAll_iff {g : Grammar} {ts : List Tree} :
    g.licensesAll ts = true ↔ ∀ t ∈ ts, g.licenses t = true := by
  induction ts with
  | nil => simp [licensesAll]
  | cons t ts ih => simp [licensesAll, ih]

/-- A tree is licensed when its root is and its children are. -/
theorem licenses_node_iff {g : Grammar} {l : Symbol} {cs : List Tree} :
    g.licenses (.node l cs) = true ↔
      g.licensesNode l (cs.map Tree.label) = true ∧ ∀ c ∈ cs, g.licenses c = true := by
  simp [licenses, licensesAll_iff]

/-- A phrase may stand above the right-hand sides of its rules. -/
theorem licensesNode_nonterminal_iff {g : Grammar} {a : String} {below : List Symbol} :
    g.licensesNode (.nonterminal a) below = true ↔ ∃ p ∈ g.rulesFor a, p.rhs = below := by
  simp [licensesNode]

end Grammar

end Constituency
