import Constituency.Chart.Basic
import Constituency.Tree.Basic

/-!
# From derivations to trees

A derivation stands for every tree that has its rule at the root and, below it,
a tree for each of its parts. A part over a shorter span is no danger, since
spans cannot shrink forever. But a unary rule stays on its span, and unary rules
may run in circles. So the expansion keeps the *chain* of phrase kinds that it
passed on the way down on one span, and drops a derivation that would repeat one
of them. A shorter span starts a chain of its own.

The trees come in a fixed order: derivation by derivation as the cell lists
them, and for one derivation with the first part varying slowest.

## Main declarations

* `product`                — one element from each list, the first varying
  slowest.
* `Chart.expandDerivation` — the trees of one derivation.
* `Chart.expand`           — the trees of a phrase kind over a span.
* `Chart.trees`            — the trees of the sentence.
-/

namespace Constituency

/-- Every way of taking one element from each list, the first list varying
slowest. -/
def product {α : Type} : List (List α) → List (List α)
  | [] => [[]]
  | options :: rest =>
    let tails := product rest
    options.flatMap fun x => tails.map (x :: ·)

namespace Chart

/-- How many phrase kinds over the span are not in the chain. -/
def unchained (c : Chart) (span : Span) (chain : List String) : Nat :=
  (missing (c.cell span).symbols chain).length

theorem unchained_cons_lt {c : Chart} {span : Span} {chain : List String} {b : String}
    {d : Derivation} (hd : d ∈ c.derivations span b) (hb : b ∉ chain) :
    c.unchained span (b :: chain) < c.unchained span chain := by
  obtain ⟨hcell, hsym⟩ := mem_derivations.1 hd
  exact length_missing_cons_lt (mem_missing.2 ⟨Cell.mem_symbols.2 ⟨d, hcell, hsym⟩, hb⟩)

/-- The trees of a derivation over a span, where `chain` holds the phrase kinds
passed on the way down on this span, its own included. A part over the same span
must not repeat one of them; a part over a shorter span starts a new chain. -/
def expandDerivation (c : Chart) (span : Span) (chain : List String) (d : Derivation) :
    List Tree :=
  let options := d.parts.map fun part =>
    match part with
    | .leaf i => [Tree.leaf (c.tokens[i]?.getD "")]
    | .node s b =>
      if s.length < span.length then
        (c.derivations s b).flatMap fun e => c.expandDerivation s [b] e
      else if s = span ∧ b ∉ chain then
        (c.derivations span b).attach.flatMap fun ⟨e, _⟩ =>
          c.expandDerivation span (b :: chain) e
      else []
  (product options).map (Tree.branch d.symbol)
termination_by (span.length, c.unchained span chain)
decreasing_by
  · exact Prod.Lex.left _ _ ‹_›
  · exact Prod.Lex.right _ (unchained_cons_lt ‹_› (And.right ‹_ ∧ _›))

/-- The trees of the phrase kind `a` over a span, below the phrase kinds in
`chain` over the same span. -/
def expand (c : Chart) (span : Span) (a : String) (chain : List String) : List Tree :=
  (c.derivations span a).flatMap (c.expandDerivation span (a :: chain))

/-- The trees that a part of a derivation over a span stands for. -/
def expandPart (c : Chart) (span : Span) (chain : List String) : Part → List Tree
  | .leaf i => [Tree.leaf (c.tokens[i]?.getD "")]
  | .node s b =>
    if s.length < span.length then c.expand s b []
    else if s = span ∧ b ∉ chain then c.expand span b chain
    else []

/-- The trees of a derivation have a tree for each of its parts. -/
theorem expandDerivation_eq (c : Chart) (span : Span) (chain : List String) (d : Derivation) :
    c.expandDerivation span chain d =
      (product (d.parts.map (c.expandPart span chain))).map (Tree.branch d.symbol) := by
  rw [expandDerivation]
  congr 2
  refine List.map_congr_left fun part _ => ?_
  cases part with
  | leaf i => rfl
  | node s b =>
    simp only [expandPart, expand]
    split
    · rfl
    · split
      · simp [List.flatMap_subtype]
      · rfl

/-- Every tree of the sentence. -/
def trees (c : Chart) : List Tree :=
  c.expand c.whole c.grammar.start []

end Chart

end Constituency
