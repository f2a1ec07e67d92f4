import Constituency.Tree.Basic

/-!
# Chunks

The chunks of a tree are its smallest phrases of a given kind: the ones that
hold no other phrase of that kind. An outer `NP` that is built from a smaller
`NP` and a `PP` is passed over in favour of the noun phrases inside it.

They are collected from the leaves upwards. A node is a chunk when it has the
label and nothing below it is one; for as soon as something below has the label,
a smallest such phrase is a chunk. Since chunks do not nest, this keeps them in
reading order. A tree can hold the same phrase at several places; so what is
collected are occurrences of phrases, each with its place.

## Main declarations

* `Occurrence`    — a tree at a place inside a tree.
* `Tree.chunksAt` — the occurrences of the smallest phrases.
* `Tree.chunks`   — the phrases themselves.
-/

namespace Constituency

/-- A tree inside a tree. -/
structure Occurrence where
  /-- Which child is taken at each step of the way down, counted from zero. -/
  address : List Nat
  /-- What stands there. -/
  tree : Tree
deriving DecidableEq

namespace Tree

mutual
/-- The smallest phrases of the kind `name` in a tree at an address, left to
right. -/
def chunksAt (name : String) (address : List Nat) : Tree → List Occurrence
  | .node l cs =>
    match chunksBelow name address 0 cs with
    | [] => if (node l cs).hasLabel name then [⟨address, node l cs⟩] else []
    | found => found
/-- The same in the children, from the `i`-th on, of a node at an address. -/
def chunksBelow (name : String) (address : List Nat) (i : Nat) : List Tree → List Occurrence
  | [] => []
  | t :: ts => chunksAt name (address ++ [i]) t ++ chunksBelow name address (i + 1) ts
end

/-- The smallest phrases of the kind `name`, left to right. -/
def chunks (name : String) (t : Tree) : List Tree :=
  (chunksAt name [] t).map Occurrence.tree

mutual
/-- Which phrases are chunks does not depend on the place of the tree. -/
theorem map_tree_chunksAt (name : String) (address address' : List Nat) (t : Tree) :
    (chunksAt name address t).map Occurrence.tree =
      (chunksAt name address' t).map Occurrence.tree := by
  match t with
  | .node l cs =>
    have hbelow := map_tree_chunksBelow name address address' 0 0 cs
    rw [chunksAt, chunksAt]
    cases hcs : chunksBelow name address 0 cs with
    | nil =>
      rw [hcs, List.map_nil, eq_comm, List.map_eq_nil_iff] at hbelow
      by_cases hlabel : (node l cs).hasLabel name = true <;> simp [hbelow, hlabel]
    | cons o os =>
      cases hcs' : chunksBelow name address' 0 cs with
      | nil => simp [hcs, hcs'] at hbelow
      | cons o' os' => rw [hcs, hcs'] at hbelow; exact hbelow
theorem map_tree_chunksBelow (name : String) (address address' : List Nat) (i i' : Nat)
    (ts : List Tree) :
    (chunksBelow name address i ts).map Occurrence.tree =
      (chunksBelow name address' i' ts).map Occurrence.tree := by
  match ts with
  | [] => rfl
  | t :: ts =>
    rw [chunksBelow, chunksBelow, List.map_append, List.map_append,
      map_tree_chunksAt name _ (address' ++ [i']), map_tree_chunksBelow name _ address' _ (i' + 1)]
end

theorem map_tree_chunksBelow_eq_flatMap (name : String) (address : List Nat) (i : Nat)
    (ts : List Tree) :
    (chunksBelow name address i ts).map Occurrence.tree = ts.flatMap (chunks name) := by
  induction ts generalizing i with
  | nil => rfl
  | cons t ts ih => rw [chunksBelow, List.map_append, map_tree_chunksAt name _ [], ih]; rfl

/-- The chunks of the children, or the tree itself if there are none and it has the
label. -/
theorem chunks_node (name : String) (l : Symbol) (cs : List Tree) :
    (node l cs).chunks name =
      if cs.flatMap (chunks name) = [] then
        if (node l cs).hasLabel name then [node l cs] else []
      else cs.flatMap (chunks name) := by
  have hbelow := map_tree_chunksBelow_eq_flatMap name [] 0 cs
  rw [chunks, chunksAt, ← hbelow]
  cases chunksBelow name [] 0 cs with
  | nil => by_cases hlabel : (node l cs).hasLabel name = true <;> simp [hlabel]
  | cons o os => simp

end Tree

end Constituency
