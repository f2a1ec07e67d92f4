import Constituency.Proofs.Enumeration

/-!
# What the chain takes away

The expansion of a phrase kind over a span carries a chain on its way down, and drops what
would come back to it. The chain grows with every unary rule and is left behind on shorter
spans, so what it drops is decided in many places, deep inside the expansion.

Seen from the result, the chain is a condition on finished trees. Below a chain, a phrase
kind has the trees that it has without one, except for those in which a phrase below the
root, each the only child of the one above, has a kind of the chain. All others stay, in the
order in which they come without a chain.

Nothing of this needs the recursion again. Which trees there are is known, below any chain,
and so is the order in which they come. The order does not depend on the chain, and two
lists in one strict order are equal if they have the same elements.

## Main results

* `mem_expand_iff_clear`       — which trees a chain leaves.
* `expand_eq_filter_expand`    — the trees that it leaves come in their order.
-/

namespace Constituency

namespace Chart

variable {c : Chart} {s : Span} {a : String} {chain : List String} {t : Tree}

/-- Of two walks, not both precede the other. -/
theorem Precedes.asymm {vs ws : List Visit} (h : c.Precedes vs ws) (h' : c.Precedes ws vs) :
    False :=
  List.lt_irrefl _ (List.lt_trans h.ranks_lt h'.ranks_lt)

/-- A chain leaves the trees whose topmost chain stays clear of it below the root. -/
theorem mem_expand_iff_clear :
    t ∈ c.expand s a chain ↔ t ∈ c.expand s a [] ∧ ∀ b ∈ t.chain.tail, b ∉ chain := by
  rw [mem_expand_iff, mem_expand_iff]
  constructor
  · intro h
    exact ⟨⟨h.within, h.phrase, h.acyclic, fun _ _ => List.not_mem_nil⟩, h.fresh⟩
  · intro h
    obtain ⟨h, hclear⟩ := h
    exact ⟨h.within, h.phrase, h.acyclic, hclear⟩

end Chart

namespace Grammar

/-- Expanding a phrase kind below a chain gives the trees that it has without a chain, in
the same order, but for those that come back to the chain: in which a phrase strictly below
the root, on the topmost chain of only children, has a kind of the chain. -/
theorem expand_eq_filter_expand {g : Grammar} {tokens : List String} (h : tokens ≠ []) :
    ∃ c, Chart.ofTokens g tokens = .ok c ∧ ∀ s a chain,
      c.expand s a chain =
        (c.expand s a []).filter fun t => ∀ b ∈ t.chain.tail, b ∉ chain := by
  obtain ⟨c, hc, -, -⟩ := Chart.exists_ofTokens g h
  refine ⟨c, hc, fun s a chain => ?_⟩
  have hincreasing := c.expand_increasing s a chain
  have hincreasing' := (c.expand_increasing s a []).filter fun t => ∀ b ∈ t.chain.tail, b ∉ chain
  have hnodup := c.expand_nodup s a chain
  have hnodup' := (c.expand_nodup s a []).filter fun t => ∀ b ∈ t.chain.tail, b ∉ chain
  refine List.Perm.eq_of_pairwise (fun t u _ _ htu hut => (htu.asymm hut).elim)
    hincreasing hincreasing' ((List.perm_ext_iff_of_nodup hnodup hnodup').2 fun t => ?_)
  rw [List.mem_filter, decide_eq_true_iff]
  exact Chart.mem_expand_iff_clear

/-- Over the word `x`, the kind `A` has a tree that goes through `S`, and below a chain that
has `S` it has none. -/
theorem expand_eq_filter_expand_circular :
    ["x"] ≠ [] ∧ ∃ c, Chart.ofTokens circular ["x"] = .ok c ∧
      c.expand ⟨0, 1⟩ "A" [] = [.branch "A" [.branch "S" [.leaf "x"]]] ∧
      c.expand ⟨0, 1⟩ "A" ["S"] =
        (c.expand ⟨0, 1⟩ "A" []).filter (fun t => ∀ b ∈ t.chain.tail, b ∉ ["S"]) ∧
      c.expand ⟨0, 1⟩ "A" ["S"] = [] := by
  have hne : ["x"] ≠ [] := by decide
  obtain ⟨c, hc, hfilter⟩ := expand_eq_filter_expand (g := circular) hne
  have hfree : c.expand ⟨0, 1⟩ "A" [] = [.branch "A" [.branch "S" [.leaf "x"]]] := by
    obtain rfl := Except.ok.inj hc
    cbv
  have hchain := hfilter ⟨0, 1⟩ "A" ["S"]
  refine ⟨hne, c, hc, hfree, hchain, ?_⟩
  rw [hchain, hfree]
  decide

end Grammar

end Constituency
