import Constituency.Tree.Basic

/-!
# Drawn trees

A drawing shows one node on a line, parents above children, with connectors
that lead from a parent down to each of its children:

```text
S
├─ NP
│   └─ N
│       └─ holmes
└─ VP
    └─ V
        └─ arrived
```

A line is a margin, a connector and the name. The connector tells the last child
of a node from the others. The margin has one cell of four columns for each
ancestor below the root: a bar while children of that ancestor's parent are still
to come, blanks after the last one.
-/

namespace Constituency.Tree

/-- What leads to a child: a corner to the last one, a fork to the others. -/
def connector (last : Bool) : String :=
  if last then "└─ " else "├─ "

/-- What a node adds to the margin of everything below it. -/
def marginCell (last : Bool) : String :=
  if last then "    " else "│   "

mutual
/-- The lines of a node below the root. -/
def drawnBelow (margin : String) (last : Bool) : Tree → List String
  | .node l cs =>
    (margin ++ connector last ++ l.name) :: drawnChildren (margin ++ marginCell last) cs
/-- The lines of the children of one node. -/
def drawnChildren (margin : String) : List Tree → List String
  | [] => []
  | t :: ts => drawnBelow margin ts.isEmpty t ++ drawnChildren margin ts
end

/-- The lines of the drawing, one for each node. -/
def drawnLines : Tree → List String
  | .node l cs => l.name :: drawnChildren "" cs

/-- The drawing of the tree. -/
def drawing (t : Tree) : String :=
  "\n".intercalate t.drawnLines

end Constituency.Tree
