import Constituency.Proofs.Chart.Discovery
import Constituency.Proofs.Enumeration
import Mathlib.Algebra.BigOperators.Intervals
import Mathlib.Combinatorics.Enumerative.Catalan.Basic

/-!
# How many trees a sentence has

A chart is small and can stand for a great many trees. How many there are can be told from
the derivations alone: a phrase kind has a tree for each of its derivations and each choice
of one tree for every part (`length_expand`). No tree is counted twice, as none comes twice.

The grammar with the rules `S -> S S` and `S -> "a"` is the classical case of ambiguity. Here
the chart holds a phrase over every span, and every cut of a span gives one derivation. So
the trees of a span are counted by the recursion that counts the ways of bracketing its words
in pairs, and their number for a sentence is a Catalan number.

## Main declarations

* `length_expand`         — the number of the trees of a phrase kind.
* `bracketings`           — the number of bracketings of some words.
* `doubling`              — the grammar of pairs.
* `derivations_doubling`  — all its derivations, over every span.
* `length_parse_doubling` — it has as many trees as there are bracketings.
-/

namespace Constituency

-- ---------------------------------------------------------------------------
-- The number of trees
-- ---------------------------------------------------------------------------

theorem length_product {α : Type} (ls : List (List α)) :
    (product ls).length = (ls.map List.length).prod := by
  induction ls with
  | nil => rfl
  | cons l ls ih =>
    simp only [product, List.length_flatMap, List.length_map, List.map_const',
      List.sum_replicate, List.map_cons, List.prod_cons, ih, smul_eq_mul]

/-- A phrase kind has as many trees as there are choices of a derivation and of a tree for
each of its parts. -/
theorem Chart.length_expand (c : Chart) (s : Span) (a : String) (chain : List String) :
    (c.expand s a chain).length = ((c.derivations s a).map fun d =>
      (d.parts.map fun part => (c.expandPart s (a :: chain) part).length).prod).sum := by
  rw [expand, List.length_flatMap]
  simp only [expandDerivation_eq, List.length_map, length_product, List.map_map]
  rfl

-- ---------------------------------------------------------------------------
-- Bracketings
-- ---------------------------------------------------------------------------

/-- The number of ways to bracket `n` words in pairs, and pairs in pairs, until one is left:
a Catalan number. -/
def bracketings (n : Nat) : Nat :=
  catalan (n - 1)

theorem bracketings_one : bracketings 1 = 1 :=
  catalan_zero

/-- The outermost pair has the first `k` words on its left, and the others on its right. -/
theorem bracketings_eq_sum {n : Nat} (h : 2 ≤ n) :
    bracketings n = ∑ k ∈ Finset.Ico 1 n, bracketings k * bracketings (n - k) := by
  obtain ⟨m, rfl⟩ := Nat.exists_eq_add_of_le' h
  show catalan (m + 1) = _
  rw [catalan_succ', Finset.Nat.sum_antidiagonal_eq_sum_range_succ_mk,
    Finset.sum_Ico_eq_sum_range]
  refine Finset.sum_congr rfl fun i _ => ?_
  have hfirst : 1 + i - 1 = i := by omega
  have hsecond : m + 2 - (1 + i) - 1 = m - i := by omega
  rw [bracketings, bracketings, hfirst, hsecond]

/-- A sum over the cuts of `n` words is one over the lengths of the first part. -/
theorem sum_map_cuts (start n : Nat) (f : Nat → Nat → Nat) :
    ((List.range' (start + 1) (n - 1)).map fun cut => f (cut - start) (start + n - cut)).sum =
      ∑ k ∈ Finset.Ico 1 n, f k (n - k) := by
  have hsum (m : Nat) (F : Nat → Nat) :
      ((List.range m).map F).sum = ∑ k ∈ Finset.range m, F k := rfl
  rw [Finset.sum_Ico_eq_sum_range, List.range'_eq_map_range, List.map_map, hsum]
  refine Finset.sum_congr rfl fun i _ => ?_
  have hfirst : start + 1 + i - start = 1 + i := by omega
  have hsecond : start + n - (start + 1 + i) = n - (1 + i) := by omega
  rw [Function.comp_apply, hfirst, hsecond]

-- ---------------------------------------------------------------------------
-- The grammar of pairs
-- ---------------------------------------------------------------------------

namespace Grammar

/-- Two phrases form a phrase. -/
def pairRule : Production :=
  ⟨"S", [.nonterminal "S", .nonterminal "S"]⟩

/-- The word `a` is a phrase. -/
def wordRule : Production :=
  ⟨"S", [.terminal "a"]⟩

/-- The grammar in which a phrase is the word `a` or a pair of phrases. -/
def doubling : Grammar where
  start := "S"
  rules := .ofList [pairRule, wordRule]
  start_mem := by decide
  rhs_ne_nil := by decide
  closed := by
    have hall : ∀ p ∈ (RuleTable.ofList [pairRule, wordRule]).productions,
        ∀ b ∈ p.children, b ∈ (RuleTable.ofList [pairRule, wordRule]).names := by decide
    intro p hp b hb
    exact hall p hp b (Production.mem_children.2 hb)

theorem ofProductions_doubling : ofProductions "S" [pairRule, wordRule] = .ok doubling :=
  ofProductions_eq_ok_iff.2 ⟨by decide, rfl, rfl⟩

theorem productions_doubling : doubling.productions = [pairRule, wordRule] := by decide

theorem rulesFor_doubling : doubling.rulesFor "S" = [pairRule, wordRule] := by decide

theorem unaryDerivations_doubling (s : Span) (b : String) : doubling.unaryDerivations s b = [] := by
  rw [unaryDerivations, unaryParents, productions_doubling]
  rfl

end Grammar

namespace Chart

open Grammar

/-- The phrase over a span whose two parts meet at the cut. -/
def pairAt (s : Span) (cut : Nat) : Derivation :=
  ⟨pairRule, [.node ⟨s.start, cut⟩ "S", .node ⟨cut, s.stop⟩ "S"]⟩

variable {tokens : List String} {cells : Span → Cell} {s : Span}

theorem derivationsOver_wordRule (hword : tokens[s.start]? = some "a") :
    wordRule.derivationsOver tokens cells s =
      if s.length = 1 then [⟨wordRule, [.leaf s.start]⟩] else [] := by
  have hlex : wordRule.isLexical = true := rfl
  rw [Production.derivationsOver, if_pos hlex]
  refine ite_congr rfl (fun hone => ?_) fun _ => rfl
  have hmatch : matchSymbols tokens cells wordRule.rhs [s] = some [.leaf s.start] :=
    matchSymbols_word_eq_some.2 ⟨⟨hone, hword⟩, rfl⟩
  rw [hmatch]
  rfl

/-- Where both parts are phrases at every cut, every cut gives a phrase. -/
theorem derivationsOver_pairRule
    (hphrases : ∀ cut, s.start < cut → cut < s.stop →
      "S" ∈ (cells ⟨s.start, cut⟩).symbols ∧ "S" ∈ (cells ⟨cut, s.stop⟩).symbols) :
    pairRule.derivationsOver tokens cells s =
      (List.range' (s.start + 1) (s.length - 1)).map (pairAt s) := by
  have hlex : ¬pairRule.isLexical = true := Bool.false_ne_true
  have hunary : pairRule.unaryChild?.isSome = false := rfl
  rw [Production.derivationsOver, if_neg hlex, hunary]
  split
  · next hshort =>
    have hlen : s.length < 2 := hshort.resolve_left Bool.false_ne_true
    have hnone : s.length - 1 = 0 := by omega
    rw [hnone]
    rfl
  · show (s.splits 2).filterMap _ = _
    rw [Span.splits_two, List.filterMap_map, ← List.filterMap_eq_map]
    refine List.filterMap_congr fun cut hcut => ?_
    rw [List.mem_range'_1, Span.length] at hcut
    obtain ⟨hfirst, hsecond⟩ := hphrases cut (by omega) (by omega)
    have hmatch : matchSymbols tokens cells pairRule.rhs [⟨s.start, cut⟩, ⟨cut, s.stop⟩] =
        some (pairAt s cut).parts :=
      matchSymbols_cons_eq_some.2 ⟨_, _, matchSymbol_nonterminal_eq_some.2 ⟨hfirst, rfl⟩,
        matchSymbols_cons_eq_some.2 ⟨_, _, matchSymbol_nonterminal_eq_some.2 ⟨hsecond, rfl⟩,
          rfl, rfl⟩, rfl⟩
    rw [Function.comp_apply, hmatch]
    rfl

section Doubling

variable {c : Chart} (hgrammar : c.grammar = doubling) (hwords : ∀ w ∈ c.tokens, w = "a")

include hwords in
theorem getElem?_start_eq (hs : s.Within c.tokens.length) : c.tokens[s.start]? = some "a" := by
  have hlt := hs.start_lt_length
  rw [List.getElem?_eq_getElem hlt, hwords _ (List.getElem_mem hlt)]

include hgrammar hwords

/-- Any of the words side by side are a phrase: the first one, and if there are more, the
others beside it. -/
theorem mem_symbols_doubling {s : Span} (hs : s.Within c.tokens.length) :
    "S" ∈ (c.cell s).symbols := by
  have hword := getElem?_start_eq hwords hs
  obtain ⟨hlt, hle⟩ := hs
  rw [mem_symbols_cell_iff, hgrammar]
  by_cases hone : s.stop = s.start + 1
  · exact ⟨[.terminal "a"], [.leaf s.start], by decide, Found.word_iff.2 ⟨hone, hword, rfl⟩⟩
  · have hfirst : (⟨s.start, s.start + 1⟩ : Span).Within c.tokens.length :=
      ⟨Nat.lt_succ_self _, Nat.le_trans hlt hle⟩
    have hrest : (⟨s.start + 1, s.stop⟩ : Span).Within c.tokens.length :=
      ⟨Nat.lt_of_le_of_ne hlt (Ne.symm hone), hle⟩
    exact ⟨[.nonterminal "S", .nonterminal "S"], _, by decide,
      .phrase hfirst.start_lt (mem_symbols_doubling hfirst)
        (.phrase hrest.start_lt (mem_symbols_doubling hrest) .nil)⟩
termination_by s.length
decreasing_by all_goals (simp only [Span.length] at *; omega)

/-- Over every span there is a phrase for each cut, and for a single word the word itself. -/
theorem derivations_doubling (hs : s.Within c.tokens.length) :
    c.derivations s "S" = (List.range' (s.start + 1) (s.length - 1)).map (pairAt s) ++
      if s.length = 1 then [⟨wordRule, [.leaf s.start]⟩] else [] := by
  have hunary (kinds : List String) : kinds.flatMap (doubling.unaryDerivations s) = [] :=
    List.flatMap_eq_nil_iff.2 fun b _ => unaryDerivations_doubling s b
  have hphrases : ∀ cut, s.start < cut → cut < s.stop →
      "S" ∈ (c.cell ⟨s.start, cut⟩).symbols ∧ "S" ∈ (c.cell ⟨cut, s.stop⟩).symbols := by
    intro cut hstart hstop
    have hle := Nat.le_trans (Nat.le_of_lt hstop) hs.stop_le
    exact ⟨mem_symbols_doubling hgrammar hwords ⟨hstart, hle⟩,
      mem_symbols_doubling hgrammar hwords ⟨hstop, hs.stop_le⟩⟩
  rw [derivations_eq_append hs, hgrammar, hunary, Grammar.derivationsOf_splitCell,
    rulesFor_doubling, List.flatMap_cons, List.flatMap_singleton,
    derivationsOver_pairRule hphrases, derivationsOver_wordRule (getElem?_start_eq hwords hs)]
  exact List.append_nil _

/-- The phrase over a span has as many trees as there are bracketings of its words. -/
theorem length_expand_doubling {s : Span} (hs : s.Within c.tokens.length) :
    (c.expand s "S" []).length = bracketings s.length := by
  rw [length_expand, derivations_doubling hgrammar hwords hs]
  obtain ⟨hlt, hle⟩ := hs
  by_cases hone : s.length = 1
  · rw [hone, bracketings_one]
    rfl
  · have htwo : 2 ≤ s.length := by
      unfold Span.length at hone ⊢
      omega
    have hstop : s.start + s.length = s.stop := by
      unfold Span.length
      omega
    rw [if_neg hone, List.append_nil, List.map_map, bracketings_eq_sum htwo,
      ← sum_map_cuts s.start s.length fun i j => bracketings i * bracketings j]
    refine congrArg List.sum (List.map_congr_left fun cut hcut => ?_)
    have hbounds := List.mem_range'_1.1 hcut
    have hshorter : (⟨s.start, cut⟩ : Span).length < s.length := by
      simp only [Span.length] at hbounds ⊢
      omega
    have hshorter' : (⟨cut, s.stop⟩ : Span).length < s.length := by
      simp only [Span.length] at hbounds ⊢
      omega
    have hfirst := length_expand_doubling (s := ⟨s.start, cut⟩)
      ⟨by dsimp only; omega, by dsimp only; omega⟩
    have hsecond := length_expand_doubling (s := ⟨cut, s.stop⟩) ⟨by dsimp only; omega, hle⟩
    simp only [Function.comp_apply, pairAt, List.map_cons, List.map_nil, List.prod_cons,
      List.prod_nil, Nat.mul_one, expandPart, if_pos hshorter, if_pos hshorter', hfirst, hsecond,
      hstop]
    rfl
termination_by s.length

end Doubling

end Chart

namespace Grammar

/-- With the rules `S -> S S` and `S -> "a"`, a sentence of `n` words `a` has as many different
trees as there are bracketings of `n` words: one for a single word, and for more words the sum,
over the lengths of the first part, of the products of the numbers for both parts. -/
theorem length_parse_doubling :
    ofProductions "S" [pairRule, wordRule] = .ok doubling ∧
      bracketings 1 = 1 ∧
      (∀ n, 2 ≤ n →
        bracketings n = ∑ k ∈ Finset.Ico 1 n, bracketings k * bracketings (n - k)) ∧
      ∀ n, 1 ≤ n → ∃ ts, doubling.parse (List.replicate n "a") = .ok ts ∧ ts.Nodup ∧
        ts.length = bracketings n := by
  refine ⟨ofProductions_doubling, bracketings_one, fun n hn => bracketings_eq_sum hn, ?_⟩
  intro n hn
  have hne : List.replicate n "a" ≠ [] := by
    rw [ne_eq, List.replicate_eq_nil_iff]
    omega
  obtain ⟨c, hc, hgrammar, htokens⟩ := Chart.exists_ofTokens doubling hne
  have hwords : ∀ w ∈ c.tokens, w = "a" := by
    rw [htokens]
    exact fun w hw => List.eq_of_mem_replicate hw
  have hlength : c.whole.length = n := by
    rw [Span.length, Chart.whole, htokens, List.length_replicate]
    rfl
  refine ⟨c.parses, parse_eq_ok hc, nodup_eraseDups _, ?_⟩
  rw [c.parses_eq_trees, Chart.trees, hgrammar, ← hlength]
  exact Chart.length_expand_doubling hgrammar hwords c.within_whole

end Grammar

end Constituency
