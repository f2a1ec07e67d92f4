import Constituency.Proofs.Chart.Derivation
import Constituency.Proofs.Grammar.Licence
import Mathlib.Data.List.Forall2

/-!
# The chart recognises exactly the phrases

A cell builds a phrase kind if and only if the words of its span form a phrase of
that kind. There are two inductions in this, because trees over one span are
unbounded when unary rules run in circles.

From the chart to a tree, the outer induction is on the length of the span: the
parts of a derivation that cuts the span are shorter and have trees. The inner one
follows the climb by which the unary closure reached a kind, so a kind that is
raised in circles still has a tree, namely the one of its first discovery.

From a tree to the chart, the induction is on the tree. Its children lie side by
side over the span, each is recorded by the induction hypothesis, and so the
derivation that they make up is in the cell. The tree may repeat phrase kinds on
its chains; the cell has one symbol for all the repetitions.

## Main results

* `exists_isPhrase_of_mem_symbols` — what a cell builds has a tree.
* `mem_symbols_of_isPhrase`        — what has a tree is built in the cell.
* `mem_symbols_cell_iff_isPhrase`  — both.
-/

namespace Constituency

variable {g : Grammar} {tokens : List String} {cells : Span → Cell}

-- ---------------------------------------------------------------------------
-- The trees of a part
-- ---------------------------------------------------------------------------

/-- The part stands for the tree: it is the word at the position, or a phrase of
the kind over the span. -/
def Part.StandsFor (g : Grammar) (tokens : List String) : Part → Tree → Prop
  | .leaf i, t => t = .leaf (tokens[i]?.getD "")
  | .node u b, t => g.IsPhrase b (u.words tokens) t

/-- Trees for the parts are trees for the symbols, with all the words of the
stretch. -/
theorem Found.forest {i j : Nat} {rhs : List Symbol} {parts : List Part}
    (h : Found tokens cells i j rhs parts) {cs : List Tree}
    (hcs : List.Forall₂ (fun t part => part.StandsFor g tokens t) cs parts) :
    cs.map Tree.label = rhs ∧ (∀ t ∈ cs, g.licenses t = true) ∧
      cs.flatMap Tree.leaves = (⟨i, j⟩ : Span).words tokens := by
  induction h generalizing cs with
  | @nil i =>
    cases hcs
    exact ⟨rfl, fun _ ht => absurd ht List.not_mem_nil, (Span.words_self i tokens).symm⟩
  | @word i j w rest parts hw hrest ih =>
    cases hcs with
    | @cons t _ ts _ ht hts =>
      obtain ⟨hlabels, hlicensed, hwords⟩ := ih hts
      obtain rfl : t = .leaf w := by
        rw [Part.StandsFor, hw] at ht
        exact ht
      have hleaf : g.licenses (.leaf w) = true := Grammar.licenses_terminal_iff.2 rfl
      refine ⟨?_, List.forall_mem_cons.2 ⟨hleaf, hlicensed⟩, ?_⟩
      · rw [List.map_cons, hlabels, Tree.label_leaf]
      · rw [List.flatMap_cons, hwords, Tree.leaves_leaf, ← Span.words_singleton hw]
        exact Span.words_append (Nat.le_succ i) hrest.le
  | @phrase i k j b rest parts hik hb hrest ih =>
    cases hcs with
    | @cons t _ ts _ ht hts =>
      obtain ⟨hlabels, hlicensed, hwords⟩ := ih hts
      refine ⟨?_, List.forall_mem_cons.2 ⟨ht.licensed, hlicensed⟩, ?_⟩
      · rw [List.map_cons, hlabels, ht.root]
      · rw [List.flatMap_cons, hwords, ht.leaves]
        exact Span.words_append (Nat.le_of_lt hik) hrest.le

/-- If each part for a phrase kind stands for a tree, all parts do together. -/
theorem exists_standsFor {parts : List Part}
    (h : ∀ u b, .node u b ∈ parts → ∃ t, g.IsPhrase b (u.words tokens) t) :
    ∃ cs : List Tree, List.Forall₂ (fun t part => part.StandsFor g tokens t) cs parts := by
  have hone : ∀ part ∈ parts, ∃ t, part.StandsFor g tokens t := by
    intro part hpart
    cases part with
    | leaf i => exact ⟨_, rfl⟩
    | node u b => exact h u b hpart
  choose! f hf using hone
  exact ⟨parts.map f, List.forall₂_map_left_iff.2 (List.forall₂_same.2 hf)⟩

-- ---------------------------------------------------------------------------
-- From the chart to a tree
-- ---------------------------------------------------------------------------

namespace Chart

/-- A cell builds nothing outside the sentence. -/
theorem within_of_mem_symbols {c : Chart} {s : Span} {a : String} (h : a ∈ (c.cell s).symbols) :
    s.Within c.tokens.length := by
  refine Classical.byContradiction fun hs => ?_
  rw [cell_eq_nil hs] at h
  exact List.not_mem_nil h

/-- What a cell builds has a tree over the words of its span. -/
theorem exists_isPhrase_of_mem_symbols {c : Chart} {s : Span} {a : String}
    (h : a ∈ (c.cell s).symbols) : ∃ t, c.grammar.IsPhrase a (s.words c.tokens) t := by
  induction hn : s.length using Nat.strongRecOn generalizing s a with
  | ind n ihlen =>
    rw [cell_eq_cellOver (within_of_mem_symbols h), Grammar.mem_symbols_cellOver_iff] at h
    induction h with
    | found h =>
      obtain ⟨d, hd, rfl⟩ := Cell.mem_symbols.1 h
      obtain ⟨hp, hunary, hfound⟩ := Grammar.mem_splitCell_iff.1 hd
      obtain ⟨cs, hcs⟩ := exists_standsFor fun u b hu => by
        -- the rule is not unary, so it leaves a shorter span for each part
        have hlt : u.length < n := by
          rcases hfound.length_lt_or_unary hu with hlt | ⟨hrhs, -⟩
          · exact hn ▸ hlt
          · rw [Production.unaryChild?_eq_some.2 hrhs] at hunary
            cases hunary
        exact ihlen _ hlt (hfound.bounds hu).2.2.2 rfl
      obtain ⟨hlabels, hlicensed, hwords⟩ := hfound.forest hcs
      refine ⟨.branch d.symbol cs, Grammar.isPhrase_branch_iff.2 ⟨rfl, ?_, hlicensed, hwords⟩⟩
      rw [hlabels]
      exact hp
    | @unary b p hb hp ih =>
      obtain ⟨t, ht⟩ := ih
      obtain ⟨hp, hrhs⟩ := Grammar.mem_unaryParents.1 hp
      refine ⟨.branch p.lhs [t], Grammar.isPhrase_branch_iff.2 ⟨rfl, ?_, ?_, ?_⟩⟩
      · rw [List.map_singleton, ht.root, ← hrhs]
        exact hp
      · intro u hu
        rw [List.mem_singleton.1 hu]
        exact ht.licensed
      · rw [List.flatMap_singleton, ht.leaves]

end Chart

-- ---------------------------------------------------------------------------
-- From a tree to the chart
-- ---------------------------------------------------------------------------

namespace Tree

/-- Where a tree is found whose words start at a position. -/
def partAt (i : Nat) (t : Tree) : Part :=
  match t.label with
  | .terminal _ => .leaf i
  | .nonterminal b => .node ⟨i, i + t.leaves.length⟩ b

/-- Where trees are found whose words stand side by side from a position on. -/
def partsFrom : Nat → List Tree → List Part
  | _, [] => []
  | i, t :: ts => t.partAt i :: partsFrom (i + t.leaves.length) ts

end Tree

/-- A licensed tree over the words right after a position is found there, in front of
what is found after it. -/
theorem found_partAt_cons {i j : Nat} {t : Tree} {rest : List Symbol} {parts : List Part}
    (ht : g.licenses t = true) (hle : i + t.leaves.length ≤ tokens.length)
    (hleaves : t.leaves = (⟨i, i + t.leaves.length⟩ : Span).words tokens)
    (hcells : ∀ u b, u.Within tokens.length → g.IsPhrase b (u.words tokens) t →
      b ∈ (cells u).symbols)
    (hrest : Found tokens cells (i + t.leaves.length) j rest parts) :
    Found tokens cells i j (t.label :: rest) (t.partAt i :: parts) ∧
      (t.partAt i).StandsFor g tokens t := by
  have hpos : 0 < t.leaves.length := List.length_pos_of_ne_nil (Grammar.leaves_ne_nil ht)
  obtain ⟨l, cs⟩ := t
  cases l with
  | terminal w =>
    obtain rfl := Grammar.licenses_terminal_iff.1 ht
    have hone : (Tree.node (.terminal w) []).leaves = [w] := Tree.leaves_leaf w
    rw [hone] at hleaves hrest
    have hget := Span.getElem?_of_words_singleton hleaves.symm
    refine ⟨.word hget hrest, ?_⟩
    show _ = Tree.leaf (tokens[i]?.getD "")
    rw [hget]
    rfl
  | nonterminal b =>
    have hphrase : g.IsPhrase b _ (Tree.node (.nonterminal b) cs) := ⟨rfl, ht, hleaves⟩
    have hwithin : Span.Within ⟨i, i + (Tree.node (.nonterminal b) cs).leaves.length⟩
        tokens.length := ⟨Nat.lt_add_of_pos_right hpos, hle⟩
    exact ⟨.phrase hwithin.start_lt (hcells _ b hwithin hphrase) hrest, hphrase⟩

/-- Licensed trees whose words lie side by side over a stretch are found there, if
the cells build the kinds of their roots; and they are what the places stand
for. -/
theorem found_partsFrom {i j : Nat} {cs : List Tree} (hij : i ≤ j) (hj : j ≤ tokens.length)
    (hlicensed : ∀ t ∈ cs, g.licenses t = true)
    (hwords : cs.flatMap Tree.leaves = (⟨i, j⟩ : Span).words tokens)
    (hcells : ∀ t ∈ cs, ∀ u b, u.Within tokens.length → g.IsPhrase b (u.words tokens) t →
      b ∈ (cells u).symbols) :
    Found tokens cells i j (cs.map Tree.label) (Tree.partsFrom i cs) ∧
      List.Forall₂ (fun t part => part.StandsFor g tokens t) cs (Tree.partsFrom i cs) := by
  induction cs generalizing i with
  | nil =>
    have hlen : ((⟨i, j⟩ : Span).words tokens).length = 0 := by
      rw [← hwords]
      rfl
    rw [Span.length_words hj, Span.length] at hlen
    obtain rfl : i = j := Nat.le_antisymm hij (Nat.sub_eq_zero_iff_le.1 hlen)
    exact ⟨.nil, .nil⟩
  | cons t ts ih =>
    obtain ⟨ht, hlicensed⟩ := List.forall_mem_cons.1 hlicensed
    obtain ⟨hcell, hcells⟩ := List.forall_mem_cons.1 hcells
    rw [List.flatMap_cons] at hwords
    obtain ⟨hle, hleaves, hrest⟩ := Span.eq_words_of_append hij hj hwords
    obtain ⟨hfound, hstands⟩ := ih hle hlicensed hrest hcells
    obtain ⟨hfound, hpart⟩ :=
      found_partAt_cons ht (Nat.le_trans hle hj) hleaves hcell hfound
    exact ⟨hfound, .cons hpart hstands⟩

namespace Chart

/-- What has a tree over the words of a span is built in the cell of the span. -/
theorem mem_symbols_of_isPhrase {c : Chart} {t : Tree} {s : Span} {a : String}
    (hs : s.Within c.tokens.length) (h : c.grammar.IsPhrase a (s.words c.tokens) t) :
    a ∈ (c.cell s).symbols := by
  induction t generalizing s a with
  | node l cs ih =>
    obtain rfl : l = .nonterminal a := h.root
    obtain ⟨-, hp, hlicensed, hwords⟩ := Grammar.isPhrase_branch_iff.1 h
    obtain ⟨hfound, -⟩ := found_partsFrom (Nat.le_of_lt hs.start_lt) hs.stop_le hlicensed hwords
      fun t ht _ _ hu hphrase => ih t ht hu hphrase
    exact mem_symbols_cell_iff.2 ⟨_, _, hp, hfound⟩

/-- A cell builds exactly the phrase kinds that the words of its span form. -/
theorem mem_symbols_cell_iff_isPhrase {c : Chart} {s : Span} {a : String} :
    a ∈ (c.cell s).symbols ↔
      s.Within c.tokens.length ∧ ∃ t, c.grammar.IsPhrase a (s.words c.tokens) t := by
  constructor
  · intro h
    exact ⟨within_of_mem_symbols h, exists_isPhrase_of_mem_symbols h⟩
  · intro h
    obtain ⟨hs, t, ht⟩ := h
    exact mem_symbols_of_isPhrase hs ht

theorem derivations_ne_nil_iff {c : Chart} {s : Span} {a : String} :
    c.derivations s a ≠ [] ↔
      s.Within c.tokens.length ∧ ∃ t, c.grammar.IsPhrase a (s.words c.tokens) t := by
  rw [derivations, Cell.derivationsOf_ne_nil_iff, mem_symbols_cell_iff_isPhrase]

end Chart

end Constituency
