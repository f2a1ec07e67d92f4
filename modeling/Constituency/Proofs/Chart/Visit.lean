import Constituency.Proofs.Chart.Expansion
import Constituency.Proofs.Chart.Forest

/-!
# Walking a tree over a chart

A walk over a tree in pre-order, with the position of the first word in hand, comes to
every phrase knowing which words it covers. What stands right below the phrase spells
out one derivation: the rule is read off the labels, and the part of a child begins
where the children before it end. So a walk is a list of *visits*, a word at a position
or a phrase that uses a derivation over a span.

For a tree that the chart expands, these are the derivations it was expanded from. A
derivation can be read off any of its trees, and two derivations of a phrase kind have
no tree in common.

## Main declarations

* `Visit`, `Tree.visits`   — the visits of a walk.
* `Tree.map_label_visits`  — a walk comes to the subtrees, in their order.
* `Chart.visits_of_mem_expandDerivation` — the walk over a tree starts with the
  derivation that the tree was expanded from.
-/

namespace Constituency

/-- What a walk over a tree comes to. -/
inductive Visit where
  /-- A word at a position. -/
  | word (position : Nat) (text : String)
  /-- A phrase over a span, with the derivation that it uses there. -/
  | phrase (span : Span) (derivation : Derivation)
deriving DecidableEq, Repr

/-- The symbol that labels the node visited. -/
def Visit.label : Visit → Symbol
  | .word _ w => .terminal w
  | .phrase _ d => .nonterminal d.symbol

namespace Tree

mutual
/-- The visits of a walk over a tree whose words start at a position, parents before
children and left before right. -/
def visits (i : Nat) : Tree → List Visit
  | .node (.terminal w) cs => .word i w :: visitsAll (i + 1) cs
  | .node (.nonterminal a) cs =>
    .phrase ⟨i, i + (branch a cs).leaves.length⟩ ⟨⟨a, cs.map label⟩, partsFrom i cs⟩ ::
      visitsAll i cs
/-- The visits of a walk over trees whose words stand side by side from a position
on. -/
def visitsAll (i : Nat) : List Tree → List Visit
  | [] => []
  | t :: ts => visits i t ++ visitsAll (i + t.leaves.length) ts
end

mutual
/-- A walk comes to the subtrees, in their order. -/
theorem map_label_visits (i : Nat) (t : Tree) :
    (t.visits i).map Visit.label = t.subtrees.map label := by
  match t with
  | .node (.terminal w) cs =>
    rw [visits, subtrees_node, List.map_cons, List.map_cons, map_label_visitsAll]
    rfl
  | .node (.nonterminal a) cs =>
    rw [visits, subtrees_node, List.map_cons, List.map_cons, map_label_visitsAll]
    rfl
theorem map_label_visitsAll (i : Nat) (ts : List Tree) :
    (visitsAll i ts).map Visit.label = (ts.flatMap subtrees).map label := by
  match ts with
  | [] => rfl
  | t :: ts =>
    rw [visitsAll, List.flatMap_cons, List.map_append, List.map_append, map_label_visits,
      map_label_visitsAll]
end

theorem visits_branch (i : Nat) (a : String) (cs : List Tree) :
    (branch a cs).visits i =
      .phrase ⟨i, i + (branch a cs).leaves.length⟩ ⟨⟨a, cs.map label⟩, partsFrom i cs⟩ ::
        visitsAll i cs := by
  rw [branch, visits, branch]

end Tree

-- ---------------------------------------------------------------------------
-- Reading a derivation off its trees
-- ---------------------------------------------------------------------------

variable {g : Grammar} {tokens : List String} {cells : Span → Cell}

/-- A tree that a part stands for has as many words as the part covers. -/
theorem Part.StandsFor.length_leaves {part : Part} {t : Tree} (h : part.StandsFor g tokens t)
    (hstop : part.span.stop ≤ tokens.length) :
    t.leaves.length = part.span.length := by
  cases part with
  | leaf i =>
    obtain rfl : t = .leaf (tokens[i]?.getD "") := h
    rw [Tree.leaves_leaf]
    show 1 = i + 1 - i
    omega
  | node u b =>
    rw [Grammar.IsPhrase.leaves h]
    exact Span.length_words hstop

theorem Part.StandsFor.partAt_eq {part : Part} {t : Tree} (h : part.StandsFor g tokens t)
    (hspan : part.span.start < part.span.stop) (hstop : part.span.stop ≤ tokens.length) :
    t.partAt part.span.start = part := by
  have hlen := h.length_leaves hstop
  cases part with
  | leaf i =>
    obtain rfl : t = .leaf (tokens[i]?.getD "") := h
    rfl
  | node u b =>
    have hroot : t.label = .nonterminal b := Grammar.IsPhrase.root h
    have hend : u.start + t.leaves.length = u.stop := by
      rw [hlen]
      show u.start + (u.stop - u.start) = u.stop
      exact Nat.add_sub_cancel' (Nat.le_of_lt hspan)
    rw [Tree.partAt, hroot]
    show Part.node ⟨u.start, u.start + t.leaves.length⟩ b = .node u b
    rw [hend]

namespace Found

/-- The first part starts where the stretch does, and the others go on from there. -/
theorem uncons {i j : Nat} {s : Symbol} {rest : List Symbol} {part : Part} {parts : List Part}
    (h : Found tokens cells i j (s :: rest) (part :: parts)) :
    part.span.start = i ∧ part.span.start < part.span.stop ∧
      Found tokens cells part.span.stop j rest parts := by
  cases h with
  | word _ hrest => exact ⟨rfl, Nat.lt_succ_self i, hrest⟩
  | phrase hik _ hrest => exact ⟨rfl, hik, hrest⟩

/-- The parts are where the trees that they stand for are found. -/
theorem partsFrom_eq {i j : Nat} {rhs : List Symbol} {parts : List Part}
    (h : Found tokens cells i j rhs parts) (hj : j ≤ tokens.length) {cs : List Tree}
    (hcs : List.Forall₂ (fun t part => part.StandsFor g tokens t) cs parts) :
    Tree.partsFrom i cs = parts := by
  induction hcs generalizing i rhs with
  | nil => rfl
  | @cons t part ts parts ht _ ih =>
    cases rhs with
    | nil => cases h
    | cons s rest =>
      obtain ⟨rfl, hspan, hrest⟩ := h.uncons
      have hstop : part.span.stop ≤ tokens.length := Nat.le_trans hrest.le hj
      have hend : part.span.start + t.leaves.length = part.span.stop := by
        rw [ht.length_leaves hstop, Span.length]
        omega
      rw [Tree.partsFrom, ht.partAt_eq hspan hstop, hend, ih hrest]

end Found

namespace Chart

variable {c : Chart} {s : Span} {chain : List String} {d : Derivation} {t : Tree}

theorem expandPart_standsFor {part : Part} (h : t ∈ c.expandPart s chain part) :
    part.StandsFor c.grammar c.tokens t :=
  (standsFor_of_mem_expandPart (fun _ _ _ hmem => expands_of_mem_expand hmem) h).1

/-- The walk over a tree of a derivation starts with that derivation. -/
theorem visits_of_mem_expandDerivation (hd : d ∈ c.cell s) (h : t ∈ c.expandDerivation s chain d) :
    t.visits s.start = .phrase s d :: Tree.visitsAll s.start t.children := by
  obtain ⟨cs, htrees, rfl⟩ := mem_expandDerivation_iff.1 h
  obtain ⟨hp, hfound⟩ := mem_cell_iff.1 hd
  have hs : s.Within c.tokens.length :=
    hfound.within (fun _ => cell_eq_nil) (c.grammar.rhs_ne_nil _ hp)
  have hstands : List.Forall₂ (fun u part => part.StandsFor c.grammar c.tokens u) cs d.parts :=
    htrees.imp fun _ _ hmem => expandPart_standsFor hmem
  obtain ⟨hlabels, -, hwords⟩ := hfound.forest hstands
  have hparts := hfound.partsFrom_eq hs.stop_le hstands
  have hend : s.start + (Tree.branch d.symbol cs).leaves.length = s.stop := by
    rw [Tree.leaves_branch, hwords, Span.length_words hs.stop_le, Span.length]
    have := hs.start_lt
    omega
  rw [Tree.visits_branch, hend, hlabels, hparts]
  rfl

end Chart

end Constituency
