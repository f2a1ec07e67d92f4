import Constituency.Proofs.Chart.Forest
import Constituency.Proofs.Grammar.BreadthFirst
import Constituency.Proofs.Parse

/-!
# The order of the derivations in a cell

A cell lists its derivations as they are found, and the phrase kinds of the cell are
discovered with them. The rules that are not unary come first, kind after kind as the
grammar has them. For one kind they are in the order of its rules, and for one rule in
that of the cuts. Then come the unary rules, child after child, where the children are
the kinds in the order of their discovery.

So the derivations of one kind are those that cut the span, by rule and cuts, and behind
them those of its unary rules, each by the rank at which its child was discovered. Both
groups are complete: every placement of a rule that is not unary is in the first one, and
every unary rule over a kind of the cell in the second one (`Chart.Ordered`). Without
this a cell that leaves kinds out would be in order just as well.

The ranks in turn start with the kinds that have a derivation of the first group, and go
on with the others in breadth-first order. For this, the list of the kinds at their first
occurrence in the cell is seen to be the list that the closure visits
(`symbols_cellOver`).

## Main declarations

* `Derivation.cuts`, `Grammar.ByRuleAndCuts` — the order of the derivations that cut the
  span.
* `Chart.foundKinds`      — the kinds that are discovered first.
* `Chart.Ordered`         — the two groups, what is in them and in which order.
* `symbols_cellOver`      — the kinds of a cell are discovered as they are visited.
* `derivations_in_order`  — the order of the derivations of a phrase kind.
-/

namespace Constituency

variable {g : Grammar} {tokens : List String} {cells : Span → Cell} {s : Span}

/-- The positions where one part of the derivation ends and the next one begins. -/
def Derivation.cuts (d : Derivation) : List Nat :=
  (d.parts.map fun part => part.span.stop).dropLast

-- ---------------------------------------------------------------------------
-- The derivations of one kind
-- ---------------------------------------------------------------------------

/-- The derivations of one rule come in the order of their cuts. -/
theorem Production.derivationsOver_increasing (p : Production) (s : Span) :
    (p.derivationsOver tokens cells s).Pairwise fun d d' => d.cuts < d'.cuts := by
  unfold derivationsOver
  split
  · split
    · cases matchSymbols tokens cells p.rhs [s] with
      | none => exact .nil
      | some parts => exact List.pairwise_singleton _ _
    · exact .nil
  · split
    · exact .nil
    · rw [List.pairwise_filterMap]
      refine (s.splits_increasing_dropLast p.rhs.length).imp fun {us vs} hlt d hd d' hd' => ?_
      obtain ⟨parts, hmatch, rfl⟩ := Option.map_eq_some_iff.1 hd
      obtain ⟨parts', hmatch', rfl⟩ := Option.map_eq_some_iff.1 hd'
      rw [← map_span_of_matchSymbols hmatch, ← map_span_of_matchSymbols hmatch', List.map_map,
        List.map_map] at hlt
      exact hlt

namespace Grammar

/-- By the place of the rule among those for `a`, and for one rule by the cuts. -/
def ByRuleAndCuts (g : Grammar) (a : String) (d d' : Derivation) : Prop :=
  (g.rulesFor a).idxOf d.production < (g.rulesFor a).idxOf d'.production ∨
    d.production = d'.production ∧ d.cuts < d'.cuts

/-- By the place of the child, for derivations by unary rules. -/
def ByChild (kinds : List String) (d d' : Derivation) : Prop :=
  ∀ b b', d.production.unaryChild? = some b → d'.production.unaryChild? = some b' →
    kinds.idxOf b < kinds.idxOf b'

theorem derivationsOf_splitCell (a : String) :
    (g.splitCell tokens cells s).derivationsOf a =
      (g.rulesFor a).flatMap fun p => p.derivationsOver tokens cells s := by
  rw [Cell.derivationsOf, splitCell, rulesFor_eq_filter]
  refine filter_flatMap_eq_flatMap_filter fun p _ d hd => ?_
  rw [Derivation.symbol, (mem_derivationsOver_iff.1 hd).1]

theorem derivationsOf_splitCell_increasing (a : String) :
    ((g.splitCell tokens cells s).derivationsOf a).Pairwise (g.ByRuleAndCuts a) := by
  rw [derivationsOf_splitCell, List.pairwise_flatMap]
  constructor
  · intro p _
    refine (p.derivationsOver_increasing s).imp_of_mem fun {d d'} hd hd' hlt => ?_
    rw [ByRuleAndCuts, (mem_derivationsOver_iff.1 hd).1, (mem_derivationsOver_iff.1 hd').1]
    exact Or.inr ⟨rfl, hlt⟩
  · have hrules : (g.rulesFor a).Nodup := by
      rw [rulesFor_eq_filter]
      exact g.productions_nodup.filter _
    refine (pairwise_idxOf_lt hrules).imp fun {p p'} hlt d hd d' hd' => ?_
    rw [ByRuleAndCuts, (mem_derivationsOver_iff.1 hd).1, (mem_derivationsOver_iff.1 hd').1]
    exact Or.inl hlt

/-- Over some kinds, the unary rules for `a` are applied completely. -/
theorem mem_derivationsOf_unaryDerivations_iff {kinds : List String} {a : String}
    {d : Derivation} :
    d ∈ Cell.derivationsOf (kinds.flatMap (g.unaryDerivations s)) a ↔
      ∃ b ∈ kinds, ⟨a, [.nonterminal b]⟩ ∈ g.productions ∧
        d = ⟨⟨a, [.nonterminal b]⟩, [.node s b]⟩ := by
  rw [Cell.mem_derivationsOf, List.mem_flatMap]
  constructor
  · rintro ⟨⟨b, hb, hd⟩, hsymbol⟩
    obtain ⟨⟨lhs, rhs⟩, parts⟩ := d
    obtain rfl : lhs = a := hsymbol
    obtain ⟨hp, rfl⟩ := mem_unaryDerivations_iff.1 hd
    obtain ⟨hp, rfl⟩ := mem_unaryParents.1 hp
    exact ⟨b, hb, hp, rfl⟩
  · rintro ⟨b, hb, hp, rfl⟩
    have hparent : ⟨a, [.nonterminal b]⟩ ∈ g.unaryParents b := mem_unaryParents.2 ⟨hp, rfl⟩
    exact ⟨⟨b, hb, mem_unaryDerivations_iff.2 ⟨hparent, rfl⟩⟩, rfl⟩

/-- For one kind, the unary rules come in the order of their children. -/
theorem derivationsOf_unaryDerivations_increasing {kinds : List String} (h : kinds.Nodup)
    (a : String) :
    (Cell.derivationsOf (kinds.flatMap (g.unaryDerivations s)) a).Pairwise (ByChild kinds) := by
  rw [Cell.derivationsOf, List.pairwise_filter, List.pairwise_flatMap]
  constructor
  · -- over one child, a kind has one unary rule only
    intro b _
    refine List.Pairwise.imp_of_mem (fun {d d'} hd hd' hne ha ha' => ?_)
      (unaryDerivations_nodup s b)
    obtain ⟨⟨lhs, rhs⟩, parts⟩ := d
    obtain ⟨⟨lhs', rhs'⟩, parts'⟩ := d'
    obtain rfl := Production.unaryChild?_eq_some.1 (unaryChild?_of_mem_unaryDerivations hd)
    obtain rfl := Production.unaryChild?_eq_some.1 (unaryChild?_of_mem_unaryDerivations hd')
    obtain rfl := (mem_unaryDerivations_iff.1 hd).2
    obtain rfl := (mem_unaryDerivations_iff.1 hd').2
    obtain rfl : lhs = a := of_decide_eq_true ha
    obtain rfl : lhs' = lhs := of_decide_eq_true ha'
    exact absurd rfl hne
  · refine (pairwise_idxOf_lt h).imp fun {b b'} hlt d hd d' hd' _ _ => ?_
    intro c c' hc hc'
    obtain rfl := Option.some.inj ((unaryChild?_of_mem_unaryDerivations hd).symm.trans hc)
    obtain rfl := Option.some.inj ((unaryChild?_of_mem_unaryDerivations hd').symm.trans hc')
    exact hlt

-- ---------------------------------------------------------------------------
-- The discovery of the kinds
-- ---------------------------------------------------------------------------

/-- The kinds with a rule that cuts the span are discovered in the order of the grammar. -/
theorem symbols_splitCell :
    (g.splitCell tokens cells s).symbols = g.nonterminals.filter fun a =>
      !((g.splitCell tokens cells s).derivationsOf a).isEmpty := by
  have hrow : (g.splitCell tokens cells s).map Derivation.symbol =
      g.nonterminals.flatMap fun a =>
        ((g.splitCell tokens cells s).derivationsOf a).map Derivation.symbol := by
    simp only [derivationsOf_splitCell]
    rw [splitCell, productions, RuleTable.productions_eq_flatMap_rulesFor, List.flatMap_assoc,
      List.map_flatMap]
    rfl
  have hblock : ∀ a ∈ g.nonterminals,
      ∀ b ∈ ((g.splitCell tokens cells s).derivationsOf a).map Derivation.symbol, b = a := by
    intro a _ b hb
    obtain ⟨d, hd, rfl⟩ := List.mem_map.1 hb
    exact (Cell.mem_derivationsOf.1 hd).2
  have hnames : g.nonterminals.Nodup := g.rules.names_nodup
  rw [Cell.symbols, hrow, eraseDups_flatMap_eq_filter hnames hblock]
  simp only [List.isEmpty_map]

theorem map_symbol_unaryDerivations (s : Span) (b : String) :
    (g.unaryDerivations s b).map Derivation.symbol = g.parentKinds b := by
  rw [unaryDerivations, List.map_map]
  rfl

/-- The kinds of a cell are discovered in the order in which the closure visits them. -/
theorem symbols_cellOver :
    (g.cellOver tokens cells s).symbols = g.unaryClosure (g.splitCell tokens cells s).symbols := by
  have hclosure := g.unaryVisits_eq (g.splitCell tokens cells s).symbols
    (g.splitCell tokens cells s).symbols
  rw [cellOver, Cell.symbols, List.map_append, List.eraseDups_append, List.map_flatMap]
  simp only [map_symbol_unaryDerivations]
  rw [removeAll_congr fun a => List.mem_eraseDups.symm]
  exact hclosure.symm

end Grammar

namespace Chart

/-- The kinds with a derivation over the span by a rule that is not unary, in the order of
the grammar. -/
def foundKinds (c : Chart) (s : Span) : List String :=
  c.grammar.nonterminals.filter fun a =>
    (c.derivations s a).any fun d => d.production.unaryChild?.isNone

/-- The ways in which the phrase kind `a` covers a span are two groups, one after the
other. The first one holds every rule for `a` that is not unary, with every way of placing
its right-hand side over the span, by rule and cuts. The second one holds every unary rule
for `a` over one of the kinds, by the place of the child among the kinds. -/
structure Ordered (c : Chart) (s : Span) (kinds : List String) (a : String)
    (cutting unary : List Derivation) : Prop where
  derivations_eq : c.derivations s a = cutting ++ unary
  mem_cutting    : ∀ d, d ∈ cutting ↔
    d.production ∈ c.grammar.productions ∧ d.production.lhs = a ∧
      d.production.unaryChild? = none ∧
      ∃ spans, c.Placed s.start s.stop d.production.rhs d.parts spans
  by_cuts        : cutting.Pairwise (c.grammar.ByRuleAndCuts a)
  mem_unary      : ∀ d, d ∈ unary ↔
    ∃ b ∈ kinds, ⟨a, [.nonterminal b]⟩ ∈ c.grammar.productions ∧
      d = ⟨⟨a, [.nonterminal b]⟩, [.node s b]⟩
  by_child       : unary.Pairwise (Grammar.ByChild kinds)

variable {c : Chart}

namespace Ordered

variable {kinds : List String} {a : String} {cutting unary : List Derivation}

theorem isNone_of_mem_cutting (h : c.Ordered s kinds a cutting unary) {d : Derivation}
    (hd : d ∈ cutting) : d.production.unaryChild?.isNone = true :=
  Option.isNone_iff_eq_none.2 ((h.mem_cutting d).1 hd).2.2.1

theorem isSome_of_mem_unary (h : c.Ordered s kinds a cutting unary) {d : Derivation}
    (hd : d ∈ unary) : d.production.unaryChild?.isSome = true := by
  obtain ⟨b, -, -, rfl⟩ := (h.mem_unary d).1 hd
  rfl

/-- What is listed by rules that are not unary is the first group. -/
theorem cutting_eq (h : c.Ordered s kinds a cutting unary) :
    cutting = (c.derivations s a).filter fun d => d.production.unaryChild?.isNone := by
  have hunary : unary.filter (fun d => d.production.unaryChild?.isNone) = [] := by
    refine List.filter_eq_nil_iff.2 fun d hd => ?_
    rw [Bool.not_eq_true, Option.isNone_eq_false_iff]
    exact h.isSome_of_mem_unary hd
  rw [h.derivations_eq, List.filter_append, hunary, List.append_nil]
  exact (List.filter_eq_self.2 fun d hd => h.isNone_of_mem_cutting hd).symm

/-- What is listed by unary rules is the second group. -/
theorem unary_eq (h : c.Ordered s kinds a cutting unary) :
    unary = (c.derivations s a).filter fun d => d.production.unaryChild?.isSome := by
  have hcutting : cutting.filter (fun d => d.production.unaryChild?.isSome) = [] := by
    refine List.filter_eq_nil_iff.2 fun d hd => ?_
    rw [Bool.not_eq_true, Option.isSome_eq_false_iff]
    exact h.isNone_of_mem_cutting hd
  rw [h.derivations_eq, List.filter_append, hcutting, List.nil_append]
  exact (List.filter_eq_self.2 fun d hd => h.isSome_of_mem_unary hd).symm

end Ordered

/-- The derivations by unary rules go through the kinds of the cell as they were
discovered. -/
theorem derivations_eq_append (hs : s.Within c.tokens.length) (a : String) :
    c.derivations s a = (c.grammar.splitCell c.tokens c.cell s).derivationsOf a ++
      Cell.derivationsOf ((c.cell s).symbols.flatMap (c.grammar.unaryDerivations s)) a := by
  have hcell := cell_eq_cellOver hs
  have hkinds : (c.cell s).symbols =
      c.grammar.unaryClosure (c.grammar.splitCell c.tokens c.cell s).symbols := by
    rw [hcell]
    exact Grammar.symbols_cellOver
  rw [hkinds, derivations, hcell]
  exact List.filter_append ..

/-- The rules for `a` that are not unary are placed completely. -/
theorem mem_derivationsOf_splitCell_iff {a : String} {d : Derivation} :
    d ∈ (c.grammar.splitCell c.tokens c.cell s).derivationsOf a ↔
      d.production ∈ c.grammar.productions ∧ d.production.lhs = a ∧
        d.production.unaryChild? = none ∧
        ∃ spans, c.Placed s.start s.stop d.production.rhs d.parts spans := by
  rw [Cell.mem_derivationsOf, Grammar.mem_splitCell_iff, found_iff_exists_placed,
    Derivation.symbol, and_assoc]
  exact and_congr_right fun _ => and_comm

/-- What a cell lists for a kind are the rules that cut the span, and the unary rules over
the kinds of the cell. -/
theorem ordered (hs : s.Within c.tokens.length) (a : String) :
    c.Ordered s (c.cell s).symbols a
      ((c.grammar.splitCell c.tokens c.cell s).derivationsOf a)
      (Cell.derivationsOf ((c.cell s).symbols.flatMap (c.grammar.unaryDerivations s)) a) where
  derivations_eq := derivations_eq_append hs a
  mem_cutting _ := mem_derivationsOf_splitCell_iff
  by_cuts := Grammar.derivationsOf_splitCell_increasing a
  mem_unary _ := Grammar.mem_derivationsOf_unaryDerivations_iff
  by_child := Grammar.derivationsOf_unaryDerivations_increasing (nodup_eraseDups _) a

theorem foundKinds_eq (hs : s.Within c.tokens.length) :
    c.foundKinds s = (c.grammar.splitCell c.tokens c.cell s).symbols := by
  rw [Grammar.symbols_splitCell, foundKinds]
  refine List.filter_congr fun a _ => ?_
  rw [(ordered hs a).cutting_eq, Bool.eq_iff_iff, List.any_eq_true, Bool.not_eq_true',
    List.isEmpty_eq_false_iff, ne_eq, List.filter_eq_nil_iff]
  simp only [not_forall, not_not, exists_prop]

/-- The kinds of a cell are first those with a derivation that cuts the span, and then the
others in breadth-first order. -/
theorem exists_symbols_eq (hs : s.Within c.tokens.length) :
    ∃ later, (c.cell s).symbols = c.foundKinds s ++ later ∧
      c.grammar.BreadthFirst (c.foundKinds s) later := by
  rw [foundKinds_eq hs, cell_eq_cellOver hs, Grammar.symbols_cellOver]
  exact c.grammar.exists_breadthFirst _

end Chart

namespace Grammar

/-- The derivations of a phrase kind over a span are listed in two complete groups. First
come those by rules that are not unary, all of them, by rule and cuts. Then come those by
unary rules over the kinds of the cell, all of them, by the rank at which the child is
discovered. The kinds with a derivation of the first group are discovered first, as the
grammar has them; then come the others that have a derivation at all, in breadth-first
order. -/
theorem derivations_in_order {g : Grammar} {tokens : List String} (h : tokens ≠ []) :
    ∃ c, Chart.ofTokens g tokens = .ok c ∧
      ∀ start stop, start < stop → stop ≤ tokens.length →
        ∃ later, g.BreadthFirst (c.foundKinds ⟨start, stop⟩) later ∧
          (c.foundKinds ⟨start, stop⟩ ++ later).Nodup ∧
          (∀ a, a ∈ c.foundKinds ⟨start, stop⟩ ++ later ↔ c.derivations ⟨start, stop⟩ a ≠ []) ∧
          ∀ a, ∃ cutting unary,
            c.Ordered ⟨start, stop⟩ (c.foundKinds ⟨start, stop⟩ ++ later) a cutting unary := by
  obtain ⟨c, hc, rfl, rfl⟩ := Chart.exists_ofTokens g h
  refine ⟨c, hc, fun start stop hlt hle => ?_⟩
  have hs : (⟨start, stop⟩ : Span).Within c.tokens.length := ⟨hlt, hle⟩
  obtain ⟨later, hkinds, hlater⟩ := Chart.exists_symbols_eq hs
  refine ⟨later, hlater, ?_⟩
  rw [← hkinds]
  refine ⟨nodup_eraseDups _, fun a => ?_, fun a => ⟨_, _, Chart.ordered hs a⟩⟩
  exact Cell.derivationsOf_ne_nil_iff.symm

theorem derivations_in_order_circular :
    ["x", "and", "x", "and", "x"] ≠ [] ∧
      ∃ c, Chart.ofTokens circular ["x", "and", "x", "and", "x"] = .ok c ∧
        c.foundKinds ⟨0, 5⟩ = ["A"] ∧ circular.BreadthFirst ["A"] ["S"] ∧
        ["A", "S"].Nodup ∧
        (∀ a, a ∈ ["A", "S"] ↔ c.derivations ⟨0, 5⟩ a ≠ []) ∧
        c.Ordered ⟨0, 5⟩ ["A", "S"] "A" [circularCut 1 5, circularCut 3 5]
          [⟨⟨"A", [.nonterminal "A"]⟩, [.node ⟨0, 5⟩ "A"]⟩,
            ⟨⟨"A", [.nonterminal "S"]⟩, [.node ⟨0, 5⟩ "S"]⟩] ∧
        c.Ordered ⟨0, 5⟩ ["A", "S"] "S" []
          [⟨⟨"S", [.nonterminal "A"]⟩, [.node ⟨0, 5⟩ "A"]⟩] := by
  have hne : ["x", "and", "x", "and", "x"] ≠ [] := by decide
  obtain ⟨c, hc, hordered⟩ := derivations_in_order (g := circular) hne
  obtain ⟨later, hlater, hnodup, hmem, hgroups⟩ := hordered 0 5 (by decide) (by decide)
  obtain ⟨cutting, unary, hA⟩ := hgroups "A"
  obtain ⟨cutting', unary', hS⟩ := hgroups "S"
  have hgrammar : c.grammar = circular := by
    obtain rfl := Except.ok.inj hc
    rfl
  have hcell : c.cell ⟨0, 5⟩ = [circularCut 1 5, circularCut 3 5,
      ⟨⟨"S", [.nonterminal "A"]⟩, [.node ⟨0, 5⟩ "A"]⟩,
      ⟨⟨"A", [.nonterminal "A"]⟩, [.node ⟨0, 5⟩ "A"]⟩,
      ⟨⟨"A", [.nonterminal "S"]⟩, [.node ⟨0, 5⟩ "S"]⟩] := by
    obtain rfl := Except.ok.inj hc
    cbv
  have hfound : c.foundKinds ⟨0, 5⟩ = ["A"] := by
    simp only [Chart.foundKinds, Chart.derivations, hgrammar, hcell]
    decide
  rw [hfound] at hlater hnodup hmem hA hS
  -- the kinds are those of the cell, and `A` is the first of them
  obtain rfl : later = ["S"] := by
    have hperm : (["A"] ++ later).Perm ["A", "S"] := by
      refine (List.perm_ext_iff_of_nodup hnodup (by decide)).2 fun a => ?_
      rw [hmem, Chart.derivations, Cell.derivationsOf_ne_nil_iff, hcell]
      rfl
    exact List.perm_singleton.1 ((List.perm_cons "A").1 hperm)
  obtain rfl := hA.cutting_eq
  obtain rfl := hA.unary_eq
  obtain rfl := hS.cutting_eq
  obtain rfl := hS.unary_eq
  rw [Chart.derivations, hcell] at hA hS
  exact ⟨hne, c, hc, hfound, hlater, hnodup, hmem, hA, hS⟩

end Grammar

end Constituency
