import Constituency.Proofs.Chart.Order
import Constituency.Proofs.Parse

/-!
# How the parses of a sentence are listed

The chart of a sentence lists, for every span and every phrase kind, the derivations
of the kind, each once. The trees are read off these lists, and the order of the trees
comes from them alone: of two trees, the one that is read first is the one that uses
the earlier derivation where the two differ for the first time.

So no tree is read twice. The parser, which drops repetitions, finds none to drop; its
answer is what a cursor reads, tree by tree and in the same order.

## Main results

* `mem_derivations_iff_placed`   — the chart lists every derivation, once.
* `cursor_reads_parse`           — a cursor reads the parser's answer.
* `cursor_increasing`            — the order in which it reads.
-/

namespace Constituency

namespace Chart

/-- There are no repetitions among the trees. -/
theorem parses_eq_trees (c : Chart) : c.parses = c.trees :=
  eraseDups_eq_self (c.expand_nodup c.whole c.grammar.start [])

theorem next_after_cursor (c : Chart) (n : Nat) : (c.cursor.after n).next.1 = c.trees[n]? := by
  rw [Cursor.next_after, Cursor.remaining_cursor]

end Chart

namespace Grammar

-- ---------------------------------------------------------------------------
-- The derivations
-- ---------------------------------------------------------------------------

/-- The chart lists no derivation of a phrase kind over a span twice, and it lists just
the rules for the kind, each with every way of placing its right-hand side over
contiguous spans. -/
theorem mem_derivations_iff_placed {g : Grammar} {tokens : List String} (h : tokens ≠ []) :
    ∃ c, Chart.ofTokens g tokens = .ok c ∧ ∀ start stop a,
      (c.derivations ⟨start, stop⟩ a).Nodup ∧
      ∀ d, d ∈ c.derivations ⟨start, stop⟩ a ↔
        d.production ∈ g.productions ∧ d.production.lhs = a ∧
          ∃ spans, c.Placed start stop d.production.rhs d.parts spans := by
  obtain ⟨c, hc, rfl, rfl⟩ := Chart.exists_ofTokens g h
  refine ⟨c, hc, fun start stop a => ⟨c.derivations_nodup _ a, fun d => ?_⟩⟩
  exact Chart.mem_derivations_iff_exists_placed

theorem mem_derivations_iff_placed_circular :
    ["x", "and", "x"] ≠ [] ∧ ∃ c, Chart.ofTokens circular ["x", "and", "x"] = .ok c ∧
      (∀ start stop a,
        (c.derivations ⟨start, stop⟩ a).Nodup ∧
        ∀ d, d ∈ c.derivations ⟨start, stop⟩ a ↔
          d.production ∈ circular.productions ∧ d.production.lhs = a ∧
            ∃ spans, c.Placed start stop d.production.rhs d.parts spans) ∧
      c.derivations ⟨0, 3⟩ "A" = [circularCut 1 3,
        ⟨⟨"A", [.nonterminal "A"]⟩, [.node ⟨0, 3⟩ "A"]⟩,
        ⟨⟨"A", [.nonterminal "S"]⟩, [.node ⟨0, 3⟩ "S"]⟩] ∧
      c.Placed 0 3 [.nonterminal "A", .terminal "and", .nonterminal "S"]
        [.node ⟨0, 1⟩ "A", .leaf 1, .node ⟨2, 3⟩ "S"] [⟨0, 1⟩, ⟨1, 2⟩, ⟨2, 3⟩] := by
  have hne : ["x", "and", "x"] ≠ [] := by decide
  obtain ⟨c, hc, hall⟩ := mem_derivations_iff_placed (g := circular) hne
  have hlist : c.derivations ⟨0, 3⟩ "A" = [circularCut 1 3,
      ⟨⟨"A", [.nonterminal "A"]⟩, [.node ⟨0, 3⟩ "A"]⟩,
      ⟨⟨"A", [.nonterminal "S"]⟩, [.node ⟨0, 3⟩ "S"]⟩] := by
    obtain rfl := Except.ok.inj hc
    cbv
  have hcut : circularCut 1 3 ∈ c.derivations ⟨0, 3⟩ "A" := by
    rw [hlist]
    exact List.mem_cons_self
  obtain ⟨-, -, spans, hplaced⟩ := ((hall 0 3 "A").2 _).1 hcut
  -- the parts show the spans that they were placed over
  obtain rfl := map_span_of_matchSymbols hplaced.matchSymbols_eq
  exact ⟨hne, c, hc, hall, hlist, hplaced⟩

-- ---------------------------------------------------------------------------
-- A sentence with two trees
-- ---------------------------------------------------------------------------

/-- The tree of `x and x and x` in which the second half is a phrase. -/
def circularRight : Tree :=
  .branch "S" [.branch "A"
    [.branch "A" [.branch "S" [.leaf "x"]], .leaf "and", circularTree]]

/-- The tree of `x and x and x` in which the first half is a phrase. -/
def circularLeft : Tree :=
  .branch "S" [.branch "A"
    [.branch "A" [.branch "A" [.branch "S" [.leaf "x"]], .leaf "and", .branch "S" [.leaf "x"]],
      .leaf "and", .branch "S" [.leaf "x"]]]

theorem parse_circular_ambiguous :
    circular.parse ["x", "and", "x", "and", "x"] = .ok [circularRight, circularLeft] := by
  cbv

-- ---------------------------------------------------------------------------
-- The trees
-- ---------------------------------------------------------------------------

/-- A cursor reads no tree twice, and what it reads is the answer of the parser: the
same trees, in the same order, and then nothing more. -/
theorem cursor_reads_parse {g : Grammar} {tokens : List String} (h : tokens ≠ []) :
    ∃ c ts, Chart.ofTokens g tokens = .ok c ∧ g.parse tokens = .ok ts ∧
      (∀ m n t, (c.cursor.after m).next.1 = some t → (c.cursor.after n).next.1 = some t → m = n) ∧
      ∀ n, (c.cursor.after n).next.1 = ts[n]? := by
  obtain ⟨c, hc, rfl, rfl⟩ := Chart.exists_ofTokens g h
  refine ⟨c, c.parses, hc, parse_eq_ok hc, fun m n t hm hn => ?_, fun n => ?_⟩
  · rw [c.next_after_cursor] at hm hn
    have hlen : m < c.trees.length := (List.getElem?_eq_some_iff.1 hm).1
    exact (List.getElem?_inj hlen (c.expand_nodup _ _ _)).1 (hm.trans hn.symm)
  · rw [c.next_after_cursor, c.parses_eq_trees]

theorem cursor_reads_parse_circular :
    ["x", "and", "x", "and", "x"] ≠ [] ∧
      ∃ c, Chart.ofTokens circular ["x", "and", "x", "and", "x"] = .ok c ∧
        (∀ m n t, (c.cursor.after m).next.1 = some t → (c.cursor.after n).next.1 = some t → m = n) ∧
        ∀ n, (c.cursor.after n).next.1 = [circularRight, circularLeft][n]? := by
  have hne : ["x", "and", "x", "and", "x"] ≠ [] := by decide
  obtain ⟨c, ts, hc, hts, honce, hread⟩ := cursor_reads_parse (g := circular) hne
  rw [parse_circular_ambiguous] at hts
  obtain rfl := Except.ok.inj hts
  exact ⟨hne, c, hc, honce, hread⟩

/-- Of two trees that a cursor reads, the earlier one precedes the later one: where
their walks part for the first time, both are at a phrase of one kind over one span,
and the earlier tree uses the derivation that the chart lists earlier. So the ranks of
the derivations, in pre-order, increase lexicographically. -/
theorem cursor_increasing {g : Grammar} {tokens : List String} (h : tokens ≠ []) :
    ∃ c, Chart.ofTokens g tokens = .ok c ∧ ∀ m n t u, m < n →
      (c.cursor.after m).next.1 = some t → (c.cursor.after n).next.1 = some u →
        c.Precedes (t.visits 0) (u.visits 0) ∧
          (t.visits 0).map c.rankAt < (u.visits 0).map c.rankAt := by
  obtain ⟨c, hc, rfl, rfl⟩ := Chart.exists_ofTokens g h
  refine ⟨c, hc, fun m n t u hmn hm hn => ?_⟩
  rw [c.next_after_cursor] at hm hn
  obtain ⟨hmlt, rfl⟩ := List.getElem?_eq_some_iff.1 hm
  obtain ⟨hnlt, rfl⟩ := List.getElem?_eq_some_iff.1 hn
  have hincreasing := c.expand_increasing c.whole c.grammar.start []
  have hprecedes := List.pairwise_iff_getElem.1 hincreasing m n hmlt hnlt hmn
  exact ⟨hprecedes, hprecedes.ranks_lt⟩

theorem cursor_increasing_circular :
    ["x", "and", "x", "and", "x"] ≠ [] ∧
      ∃ c, Chart.ofTokens circular ["x", "and", "x", "and", "x"] = .ok c ∧
        (c.cursor.after 0).next.1 = some circularRight ∧
        (c.cursor.after 1).next.1 = some circularLeft ∧
        c.Precedes (circularRight.visits 0) (circularLeft.visits 0) ∧
        (circularRight.visits 0).map c.rankAt < (circularLeft.visits 0).map c.rankAt := by
  have hne : ["x", "and", "x", "and", "x"] ≠ [] := by decide
  obtain ⟨c, hc, hread⟩ := cursor_increasing (g := circular) hne
  have hparses : c.parses = [circularRight, circularLeft] :=
    parses_of_parse_eq_ok hc parse_circular_ambiguous
  have hfirst : (c.cursor.after 0).next.1 = some circularRight := by
    rw [c.next_after_cursor, ← c.parses_eq_trees, hparses]
    rfl
  have hsecond : (c.cursor.after 1).next.1 = some circularLeft := by
    rw [c.next_after_cursor, ← c.parses_eq_trees, hparses]
    rfl
  exact ⟨hne, c, hc, hfirst, hsecond, hread 0 1 _ _ Nat.zero_lt_one hfirst hsecond⟩

end Grammar

end Constituency
