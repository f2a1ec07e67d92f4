import Constituency.Tree.Basic

/-!
# Bracketed trees

The bracketed text of a tree is the name of a node without children, and
otherwise a pair of parentheses around the name and the children, with a blank
before each child: `(S (NP (N holmes)) (VP (V arrived)))`.
-/

namespace Constituency.Tree

mutual
/-- The tree with parentheses around every node that has children. -/
def bracketed : Tree → String
  | .node l [] => l.name
  | .node l (c :: cs) => "(" ++ l.name ++ bracketedAll (c :: cs) ++ ")"
/-- The bracketed trees, each after a blank. -/
def bracketedAll : List Tree → String
  | [] => ""
  | t :: ts => " " ++ bracketed t ++ bracketedAll ts
end

@[simp] theorem bracketed_leaf (word : String) : (leaf word).bracketed = word := by
  simp [leaf, bracketed, Symbol.name]

theorem bracketed_node_cons (l : Symbol) (c : Tree) (cs : List Tree) :
    (node l (c :: cs)).bracketed = "(" ++ l.name ++ bracketedAll (c :: cs) ++ ")" := by
  simp [bracketed]

end Constituency.Tree
