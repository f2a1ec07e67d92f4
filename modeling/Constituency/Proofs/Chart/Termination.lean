import Constituency.Proofs.Grammar.Depth
import Constituency.Proofs.Parse

/-!
# Why the expansion ends

The derivations of a chart refer to each other, and where unary rules run in circles
the references do, too. Expanding a phrase kind over a span expands its derivations,
and expanding a derivation expands what its parts refer to. Here these calls are taken
as they come: a part over the same span is told apart from all others, and the test
against the chain is all that holds it back. Nothing is asked of the span of any other
part.

That every chain of calls ends is then due to what the cells hold. A part is shorter
than its derivation, unless the rule is unary; and a unary rule stays on the span, but
only to add a phrase kind of the grammar that the chain does not have yet. So the pair
of the length and of the number of kinds that the chain lacks gets smaller.

A chart therefore has a finite list of trees, a cursor comes to the end of it, and
none of the trees is deeper than the words and the phrase kinds allow.

## Main declarations

* `Call`, `Chart.Calls`      — the calls of the expansion.
* `Chart.Ends`               — no endless row of calls starts from a call.
* `Chart.optionsOf`          — what the calls for a part give.
* `calls_from_cell`          — what each call makes smaller.
* `expansion_ends`           — the expansion and the reading of the trees end.
-/

namespace Constituency

/-- A call of the expansion. -/
inductive Call where
  /-- The trees of a phrase kind over a span, below a chain over the same span. -/
  | phrase (span : Span) (symbol : String) (chain : List String)
  /-- The trees of a derivation over a span, on a chain that its own kind is part of. -/
  | derivation (span : Span) (chain : List String) (d : Derivation)

namespace Chart

/-- The calls that a call makes. A phrase kind goes on the chain and expands its
derivations. A part over the same span goes on with the chain unless that has its kind,
and a part over any other span starts a new chain. -/
inductive Calls (c : Chart) : Call → Call → Prop
  | derivation {s : Span} {a : String} {chain : List String} {d : Derivation}
      (hd : d ∈ c.derivations s a) : Calls c (.phrase s a chain) (.derivation s (a :: chain) d)
  | same {s : Span} {b : String} {chain : List String} {d : Derivation}
      (hpart : .node s b ∈ d.parts) (hb : b ∉ chain) :
      Calls c (.derivation s chain d) (.phrase s b chain)
  | other {s u : Span} {b : String} {chain : List String} {d : Derivation}
      (hpart : .node u b ∈ d.parts) (hu : u ≠ s) :
      Calls c (.derivation s chain d) (.phrase u b [])

/-- Every row of calls that starts with this one ends. -/
def Ends (c : Chart) (call : Call) : Prop :=
  Acc (fun callee caller => c.Calls caller callee) call

/-- The trees that a part of a derivation over a span contributes by its calls. -/
def optionsOf (c : Chart) (s : Span) (chain : List String) : Part → List Tree
  | .leaf i => [Tree.leaf (c.tokens[i]?.getD "")]
  | .node u b =>
    if u = s then
      if b ∈ chain then [] else c.expand u b chain
    else c.expand u b []

variable {c : Chart} {s u : Span} {b : String} {chain : List String} {d : Derivation}

-- ---------------------------------------------------------------------------
-- One call
-- ---------------------------------------------------------------------------

/-- What a part refers to is a kind of the grammar. -/
theorem mem_nonterminals_of_node_mem (hd : d ∈ c.cell s) (hpart : .node u b ∈ d.parts) :
    b ∈ c.grammar.nonterminals := by
  obtain ⟨-, hfound⟩ := mem_cell_iff.1 hd
  obtain ⟨rhs, parts, hp, -⟩ := mem_symbols_cell_iff.1 (hfound.bounds hpart).2.2.2
  exact Grammar.lhs_mem_nonterminals hp

/-- A part over another span is over a shorter one. -/
theorem length_lt_of_node_mem (hd : d ∈ c.cell s) (hpart : .node u b ∈ d.parts) (hu : u ≠ s) :
    u.length < s.length := by
  obtain ⟨-, hfound⟩ := mem_cell_iff.1 hd
  rcases hfound.length_lt_or_unary hpart with hlt | ⟨-, heq⟩
  · exact hlt
  · exact absurd heq hu

/-- A derivation of the chart calls for a shorter span, or else for a kind that the
chain does not have. -/
theorem calls_from_cell (hd : d ∈ c.cell s) {chain' : List String}
    (h : c.Calls (.derivation s chain d) (.phrase u b chain')) :
    u.length < s.length ∧ chain' = [] ∨
      u = s ∧ chain' = chain ∧ b ∈ c.grammar.nonterminals ∧ b ∉ chain := by
  cases h with
  | same hpart hb => exact Or.inr ⟨rfl, rfl, mem_nonterminals_of_node_mem hd hpart, hb⟩
  | other hpart hu => exact Or.inl ⟨length_lt_of_node_mem hd hpart hu, rfl⟩

-- ---------------------------------------------------------------------------
-- All calls
-- ---------------------------------------------------------------------------

/-- A phrase kind's calls end if those of its derivations do. -/
theorem ends_phrase {a : String}
    (h : ∀ d ∈ c.derivations s a, c.Ends (.derivation s (a :: chain) d)) :
    c.Ends (.phrase s a chain) := by
  refine Acc.intro _ fun call hcall => ?_
  cases hcall with
  | derivation hd => exact h _ hd

/-- From one derivation to the next, the span gets shorter, or the chain longer by a kind
that it lacked. -/
theorem ends_derivation {s : Span} {d : Derivation} (hd : d ∈ c.cell s) (chain : List String) :
    c.Ends (.derivation s chain d) := by
  refine Acc.intro _ fun call hcall => ?_
  cases hcall with
  | @same _ b _ _ hpart hb =>
    have hmissing : b ∈ missing c.grammar.nonterminals chain :=
      mem_missing.2 ⟨mem_nonterminals_of_node_mem hd hpart, hb⟩
    refine ends_phrase fun e he => ?_
    have hlt := length_missing_cons_lt hmissing
    exact ends_derivation (mem_derivations.1 he).1 (b :: chain)
  | @other _ u b _ _ hpart hu =>
    have hlt := length_lt_of_node_mem hd hpart hu
    refine ends_phrase fun e he => ?_
    exact ends_derivation (mem_derivations.1 he).1 [b]
termination_by (s.length, (missing c.grammar.nonterminals chain).length)
decreasing_by
  · exact Prod.Lex.right _ hlt
  · exact Prod.Lex.left _ _ hlt

-- ---------------------------------------------------------------------------
-- What the calls give
-- ---------------------------------------------------------------------------

/-- The expansion is what its calls make of it: in a cell, the parts over other spans are
those over shorter ones. -/
theorem expandDerivation_eq_optionsOf (hd : d ∈ c.cell s) (chain : List String) :
    c.expandDerivation s chain d =
      (product (d.parts.map (c.optionsOf s chain))).map (Tree.branch d.symbol) := by
  rw [expandDerivation_eq]
  congr 2
  refine List.map_congr_left fun part hpart => ?_
  cases part with
  | leaf i => rfl
  | node u b =>
    rw [expandPart, optionsOf]
    by_cases hu : u = s
    · subst hu
      rw [if_neg (Nat.lt_irrefl _), if_pos rfl]
      by_cases hb : b ∈ chain
      · rw [if_neg (fun h => h.2 hb), if_pos hb]
      · rw [if_pos ⟨rfl, hb⟩, if_neg hb]
    · rw [if_pos (length_lt_of_node_mem hd hpart hu), if_neg hu]

/-- A cursor comes to the end of the trees. -/
theorem exists_next_eq_none (c : Chart) :
    ∃ n, ∀ m, n ≤ m → (c.cursor.after m).next.1 = none := by
  refine ⟨c.trees.length, fun m hm => ?_⟩
  rw [Cursor.next_after, Cursor.remaining_cursor, List.getElem?_eq_none hm]

/-- No tree of a chart is deeper than its words times the phrase kinds, and one more. -/
theorem depth_le_of_mem_trees {t : Tree} (h : t ∈ c.trees) :
    t.depth ≤ c.tokens.length * c.grammar.nonterminals.length + 1 := by
  obtain ⟨hphrase, hacyclic⟩ := mem_trees_iff.1 h
  rw [← hphrase.leaves]
  exact Grammar.depth_le_length_leaves_mul hphrase.licensed hacyclic

end Chart

namespace Grammar

/-- Whatever unary rules a grammar has, the expansion of a sentence ends. Each call is for
a shorter span, or it keeps the span and adds a phrase kind to the chain. So no call
leads to an endless row of others, and the trees are what the calls give. A cursor
yields finitely many of them, and their depth has a bound that only depends on how many
words the sentence and how many phrase kinds the grammar has. -/
theorem expansion_ends {g : Grammar} {tokens : List String} (h : tokens ≠ []) :
    ∃ c, Chart.ofTokens g tokens = .ok c ∧
      (∀ s d, d ∈ c.cell s → ∀ chain u b chain',
        c.Calls (.derivation s chain d) (.phrase u b chain') →
          u.length < s.length ∧ chain' = [] ∨
            u = s ∧ chain' = chain ∧ b ∈ g.nonterminals ∧ b ∉ chain) ∧
      (∀ s a chain, c.Ends (.phrase s a chain)) ∧
      (∀ s d, d ∈ c.cell s → ∀ chain, c.Ends (.derivation s chain d) ∧
        c.expandDerivation s chain d =
          (product (d.parts.map (c.optionsOf s chain))).map (Tree.branch d.symbol)) ∧
      (∃ n, ∀ m, n ≤ m → (c.cursor.after m).next.1 = none) ∧
      ∀ t, c.cursor.Yields t → t.depth ≤ tokens.length * g.nonterminals.length + 1 := by
  obtain ⟨c, hc, rfl, rfl⟩ := Chart.exists_ofTokens g h
  refine ⟨c, hc, ?_, ?_, ?_, c.exists_next_eq_none, ?_⟩
  · intro s d hd chain u b chain' hcall
    exact Chart.calls_from_cell hd hcall
  · intro s a chain
    exact Chart.ends_phrase fun d hd => Chart.ends_derivation (Chart.mem_derivations.1 hd).1 _
  · intro s d hd chain
    exact ⟨Chart.ends_derivation hd chain, Chart.expandDerivation_eq_optionsOf hd chain⟩
  · intro t ht
    exact Chart.depth_le_of_mem_trees (Cursor.yields_cursor_iff.1 ht)

theorem expansion_ends_circular :
    ["x", "and", "x"] ≠ [] ∧ ∃ c, Chart.ofTokens circular ["x", "and", "x"] = .ok c ∧
      (∀ s a chain, c.Ends (.phrase s a chain)) ∧
      (∃ n, ∀ m, n ≤ m → (c.cursor.after m).next.1 = none) ∧
      ∀ t, c.cursor.Yields t → t.depth ≤ 7 := by
  have hne : ["x", "and", "x"] ≠ [] := by decide
  have hkinds : circular.nonterminals = ["S", "A"] := by decide
  obtain ⟨c, hc, -, hends, -, hlast, hdepth⟩ := expansion_ends (g := circular) hne
  rw [hkinds] at hdepth
  exact ⟨hne, c, hc, hends, hlast, hdepth⟩

end Grammar

end Constituency
