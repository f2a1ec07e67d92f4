import Constituency.Proofs.Enumeration
import Constituency.Proofs.Renaming.Chart

/-!
# Parsing under renaming

The trees are read off the cells in the order of the cells, and so they are renamed where
the cells are. What the expansion drops to escape a circle is decided by whether a phrase
kind has been passed, which is once more a comparison of names. And there is no tree to
be dropped as a repetition, neither before the renaming nor after it.

So much holds for a renaming that keeps all names and all words apart. A renaming that
keeps apart those of the productions and of the sentence does the same to all that is
involved as one that keeps all of them apart, and so it need not be asked for more. It
may well give a phrase kind the name of another one, if that one is renamed, and may give
it the spelling of a word.

## Main results

* `Chart.IsRenamed.parses` — the trees of a renamed chart.
* `parse_rename`           — renaming a grammar and a sentence renames the trees and the
  derivations, and changes nothing else.
-/

namespace Constituency

variable {ρ ρ' : Renaming}

-- ---------------------------------------------------------------------------
-- The trees of a renamed chart
-- ---------------------------------------------------------------------------

theorem product_map {α β : Type} (f : α → β) (ls : List (List α)) :
    product (ls.map (List.map f)) = (product ls).map (List.map f) := by
  induction ls with
  | nil => rfl
  | cons options rest ih =>
    rw [List.map_cons, product, ih, List.flatMap_map, product, List.map_flatMap]
    refine List.flatMap_congr fun x _ => ?_
    rw [List.map_map, List.map_map]
    rfl

namespace Chart.IsRenamed

variable {c c' : Chart} {s : Span} {a : String} {d : Derivation}

theorem expand_of_expandDerivation (h : IsRenamed ρ c c') (hρ : ρ.Injective)
    (chain : List String)
    (hexpand : ∀ d ∈ c.derivations s a,
      c'.expandDerivation s ((a :: chain).map ρ.name) (d.rename ρ) =
        (c.expandDerivation s (a :: chain) d).map (Tree.rename ρ)) :
    c'.expand s (ρ.name a) (chain.map ρ.name) = (c.expand s a chain).map (Tree.rename ρ) := by
  rw [Chart.expand, h.derivations hρ, List.flatMap_map, Chart.expand, List.map_flatMap]
  exact List.flatMap_congr hexpand

/-- The trees of a derivation are renamed. The induction is along the expansion: to shorter
spans, or on the same span to a longer chain. -/
theorem expandDerivation (h : IsRenamed ρ c c') (hρ : ρ.Injective) (chain : List String)
    (hd : d ∈ c.cell s) :
    c'.expandDerivation s (chain.map ρ.name) (d.rename ρ) =
      (c.expandDerivation s chain d).map (Tree.rename ρ) := by
  induction s, chain, d using Chart.expandDerivation.induct c with
  | case1 s chain d ihshort ihsame =>
    obtain ⟨-, hfound⟩ := mem_cell_iff.1 hd
    have hparts : ∀ part ∈ d.parts, c'.expandPart s (chain.map ρ.name) (part.rename ρ) =
        (c.expandPart s chain part).map (Tree.rename ρ) := by
      intro part hpart
      cases part with
      | leaf i =>
        obtain ⟨w, hw⟩ := hfound.exists_getElem? hpart
        have hw' : c'.tokens[i]? = some (ρ.word w) := by
          rw [h.tokens, List.getElem?_map, hw, Option.map_some]
        rw [Part.rename, expandPart, expandPart, hw, hw', List.map_singleton, Option.getD_some,
          Option.getD_some, Tree.rename_leaf]
      | node u b =>
        simp only [Part.rename, expandPart, List.mem_map_of_injective hρ.name]
        split
        · next hlt =>
          exact h.expand_of_expandDerivation hρ [] fun e he =>
            ihshort u b hlt e (mem_derivations.1 he).1
        · split
          · next hsame =>
            obtain rfl := hsame.1
            exact h.expand_of_expandDerivation hρ chain fun e he =>
              ihsame u b hsame e he (mem_derivations.1 he).1
          · rfl
    have hoptions : (d.rename ρ).parts.map (c'.expandPart s (chain.map ρ.name)) =
        (d.parts.map (c.expandPart s chain)).map (List.map (Tree.rename ρ)) := by
      rw [Derivation.rename, List.map_map, List.map_map]
      exact List.map_congr_left hparts
    rw [expandDerivation_eq, expandDerivation_eq, hoptions, product_map, List.map_map,
      List.map_map]
    refine List.map_congr_left fun cs _ => ?_
    exact (Tree.rename_branch d.symbol cs).symm

theorem trees (h : IsRenamed ρ c c') (hρ : ρ.Injective) :
    c'.trees = c.trees.map (Tree.rename ρ) := by
  rw [Chart.trees, h.whole, h.grammar.start, Chart.trees]
  exact h.expand_of_expandDerivation hρ [] fun d hd =>
    h.expandDerivation hρ _ (mem_derivations.1 hd).1

/-- The trees of the sentence are renamed, and come in the same order. -/
theorem parses (h : IsRenamed ρ c c') (hρ : ρ.Injective) :
    c'.parses = c.parses.map (Tree.rename ρ) := by
  rw [parses_eq_trees, h.trees hρ, parses_eq_trees]

end Chart.IsRenamed

-- ---------------------------------------------------------------------------
-- What a renaming does to a grammar and a sentence
-- ---------------------------------------------------------------------------

/-- The renamings do the same to the symbols of the productions and to the words. -/
structure Renaming.AgreeOn (ρ ρ' : Renaming) (ps : List Production) (tokens : List String) :
    Prop where
  lhs : ∀ p ∈ ps, ρ.name p.lhs = ρ'.name p.lhs
  rhs : ∀ p ∈ ps, ∀ s ∈ p.rhs, s.rename ρ = s.rename ρ'
  word : ∀ w ∈ tokens, ρ.word w = ρ'.word w

namespace Renaming.AgreeOn

variable {ps : List Production} {tokens : List String}

theorem mono (h : AgreeOn ρ ρ' ps tokens) {ps' : List Production} (hps : ∀ p ∈ ps', p ∈ ps) :
    AgreeOn ρ ρ' ps' tokens :=
  ⟨fun p hp => h.lhs p (hps p hp), fun p hp => h.rhs p (hps p hp), h.word⟩

theorem production (h : AgreeOn ρ ρ' ps tokens) {p : Production} (hp : p ∈ ps) :
    p.rename ρ = p.rename ρ' := by
  rw [Production.rename, h.lhs p hp, List.map_congr_left (h.rhs p hp), ← Production.rename]

theorem derivation {c : Chart} (h : AgreeOn ρ ρ' c.grammar.productions c.tokens) {s : Span}
    {d : Derivation} (hd : d ∈ c.cell s) : d.rename ρ = d.rename ρ' := by
  obtain ⟨hp, hfound⟩ := Chart.mem_cell_iff.1 hd
  have hparts : ∀ part ∈ d.parts, part.rename ρ = part.rename ρ' := by
    intro part hpart
    cases part with
    | leaf i => rfl
    | node u b =>
      obtain ⟨e, he, rfl⟩ := Cell.mem_symbols.1 (hfound.bounds hpart).2.2.2
      rw [Part.rename, Derivation.symbol, h.lhs _ (Chart.mem_cell_iff.1 he).1]
      rfl
  rw [Derivation.rename, h.production hp, List.map_congr_left hparts, ← Derivation.rename]

theorem tree {g : Grammar} {t : Tree} (h : AgreeOn ρ ρ' g.productions t.leaves)
    (ht : g.licenses t = true) : t.rename ρ = t.rename ρ' := by
  induction t with
  | node l cs ih =>
    match l with
    | .terminal w =>
      obtain rfl := Grammar.licenses_terminal_iff.1 ht
      rw [← Tree.leaf] at h ⊢
      rw [Tree.rename_leaf, Tree.rename_leaf, h.word w (by simp)]
    | .nonterminal a =>
      rw [← Tree.branch] at h ht ⊢
      obtain ⟨hrule, hcs⟩ := Grammar.licenses_branch_iff.1 ht
      have hchildren : ∀ c ∈ cs, c.rename ρ = c.rename ρ' := by
        refine fun c hc => ih c hc ⟨h.lhs, h.rhs, fun w hw => h.word w ?_⟩ (hcs c hc)
        rw [Tree.leaves_branch]
        exact List.mem_flatMap.2 ⟨c, hc, hw⟩
      rw [Tree.rename_branch, Tree.rename_branch, List.map_congr_left hchildren]
      exact congrArg (Tree.branch · _) (h.lhs _ hrule)

/-- A renaming that keeps apart the phrase kinds and the words that occur agrees on them
with one that keeps everything apart. -/
theorem exists_injective {start : String} {g : Grammar}
    (hg : Grammar.ofProductions start ps = .ok g)
    (hname : Set.InjOn ρ.name {a | a ∈ ps.map (·.lhs)})
    (hword : Set.InjOn ρ.word {w | w ∈ tokens ∨ ∃ p ∈ ps, .terminal w ∈ p.rhs}) :
    ∃ ρ' : Renaming, ρ'.Injective ∧ AgreeOn ρ ρ' ps tokens := by
  have hfinite : {w | w ∈ tokens ∨ ∃ p ∈ ps, .terminal w ∈ p.rhs}.Finite := by
    refine tokens.finite_toSet.union ?_
    have hterminals := (ps.flatMap (·.rhs)).finite_toSet.preimage
      (f := Symbol.terminal) fun _ _ _ _ h => Symbol.terminal.inj h
    exact hterminals.subset fun w hw => List.mem_flatMap.2 hw
  obtain ⟨name, hname', hnames⟩ :=
    exists_injective_agreeing (List.finite_toSet (ps.map (·.lhs))) hname
  obtain ⟨word, hword', hwords⟩ := exists_injective_agreeing hfinite hword
  refine ⟨⟨name, word⟩, ⟨hname', hword'⟩, fun p hp => ?_, fun p hp s hs => ?_, ?_⟩
  · exact (hnames _ (List.mem_map_of_mem hp)).symm
  · cases s with
    | terminal w => exact congrArg Symbol.terminal (hwords w (Or.inr ⟨p, hp, hs⟩)).symm
    | nonterminal b =>
      -- whatever a production mentions is defined by one
      obtain ⟨hdefects, -⟩ := Grammar.ofProductions_eq_ok_iff.1 hg
      obtain ⟨-, -, hps⟩ := defects_eq_nil_iff.1 hdefects
      exact congrArg Symbol.nonterminal (hnames b ((hps p hp).2 b hs)).symm
  · exact fun w hw => (hwords w (Or.inl hw)).symm

end Renaming.AgreeOn

-- ---------------------------------------------------------------------------
-- Parsing
-- ---------------------------------------------------------------------------

namespace Grammar

/-- Renamed productions form a grammar, and it parses the renamed words to the renamed
trees, in the same order. The cells of its chart hold the renamed derivations, in the same
order, together and for each phrase kind. The renaming need not keep apart more than the
phrase kinds of the productions and the words of the productions and of the sentence. -/
theorem parse_rename {ρ : Renaming} {start : String} {ps : List Production} {g : Grammar}
    {tokens : List String} (hg : ofProductions start ps = .ok g)
    (hname : Set.InjOn ρ.name {a | a ∈ ps.map (·.lhs)})
    (hword : Set.InjOn ρ.word {w | w ∈ tokens ∨ ∃ p ∈ ps, .terminal w ∈ p.rhs})
    (htokens : tokens ≠ []) :
    ∃ g' c c' ts, ofProductions (ρ.name start) (ps.map (Production.rename ρ)) = .ok g' ∧
      Chart.ofTokens g tokens = .ok c ∧ Chart.ofTokens g' (tokens.map ρ.word) = .ok c' ∧
      g.parse tokens = .ok ts ∧ g'.parse (tokens.map ρ.word) = .ok (ts.map (Tree.rename ρ)) ∧
      (∀ s, c'.cell s = (c.cell s).map (Derivation.rename ρ)) ∧
      ∀ s, ∀ a ∈ g.nonterminals,
        c'.derivations s (ρ.name a) = (c.derivations s a).map (Derivation.rename ρ) := by
  obtain ⟨ρ', hρ', hagree⟩ := Renaming.AgreeOn.exists_injective hg hname hword
  obtain ⟨g', hg', hgrammar⟩ := ofProductions_rename hρ' hg
  obtain ⟨c, hc, rfl, rfl⟩ := Chart.exists_ofTokens g htokens
  obtain ⟨c', hc', rfl, htokens'⟩ :=
    Chart.exists_ofTokens g' (mt List.map_eq_nil_iff.1 htokens : c.tokens.map ρ'.word ≠ [])
  have hchart : Chart.IsRenamed ρ' c c' := ⟨hgrammar, htokens'⟩
  -- what has been shown of the one renaming is now said of the other
  have hps : ps.map (Production.rename ρ) = ps.map (Production.rename ρ') :=
    List.map_congr_left fun p hp => hagree.production hp
  have hwords : c.tokens.map ρ.word = c.tokens.map ρ'.word := List.map_congr_left hagree.word
  have hinside : Renaming.AgreeOn ρ ρ' c.grammar.productions c.tokens :=
    hagree.mono fun p hp => (mem_productions_of_ofProductions hg).1 hp
  have hnames : ∀ a ∈ c.grammar.nonterminals, ρ.name a = ρ'.name a := by
    intro a ha
    obtain ⟨p, hp, rfl⟩ := List.mem_map.1 (mem_nonterminals_iff.1 ha)
    exact hinside.lhs p hp
  have hstart : ρ.name start = ρ'.name start := by
    obtain ⟨-, rfl, -⟩ := ofProductions_eq_ok_iff.1 hg
    exact hnames _ c.grammar.start_mem
  have htrees : c.parses.map (Tree.rename ρ) = c.parses.map (Tree.rename ρ') := by
    refine List.map_congr_left fun t ht => ?_
    obtain ⟨hphrase, -⟩ := Chart.mem_trees_iff.1 (Chart.mem_parses.1 ht)
    exact (hphrase.leaves ▸ hinside).tree hphrase.licensed
  rw [hstart, hps, hwords]
  refine ⟨c'.grammar, c, c', c.parses, hg', hc, hc', parse_eq_ok hc, ?_, fun s => ?_,
    fun s a ha => ?_⟩
  · rw [parse_eq_ok hc', hchart.parses hρ', htrees]
  · rw [hchart.cell hρ', Cell.rename]
    exact List.map_congr_left fun d hd => (hinside.derivation hd).symm
  · rw [hnames a ha, hchart.derivations hρ']
    exact List.map_congr_left fun d hd => (hinside.derivation (Chart.mem_derivations.1 hd).1).symm

/-- A renaming that crosses the two phrase kinds of the grammar `circular` and spells its
words like phrase kinds. It merges whatever else there is. -/
def crossing : Renaming where
  name a := if a = "S" then "A" else "S"
  word w := if w = "x" then "S" else "A"

theorem parse_rename_circular :
    ofProductions "S" circularProductions = .ok circular ∧
      Set.InjOn crossing.name {a | a ∈ circularProductions.map (·.lhs)} ∧
      Set.InjOn crossing.word
        {w | w ∈ ["x", "and", "x", "and", "x"] ∨ ∃ p ∈ circularProductions, .terminal w ∈ p.rhs} ∧
      ∃ g', ofProductions "A" (circularProductions.map (Production.rename crossing)) = .ok g' ∧
        g'.parse ["S", "A", "S", "A", "S"] =
          .ok [circularRight.rename crossing, circularLeft.rename crossing] := by
  have hg : ofProductions "S" circularProductions = .ok circular :=
    ofProductions_eq_ok_iff.2 ⟨by decide, rfl, rfl⟩
  have hname : Set.InjOn crossing.name {a | a ∈ circularProductions.map (·.lhs)} := by
    have hall : ∀ a ∈ circularProductions.map (·.lhs), ∀ b ∈ circularProductions.map (·.lhs),
        crossing.name a = crossing.name b → a = b := by decide
    exact fun a ha b hb => hall a ha b hb
  have hword : Set.InjOn crossing.word
      {w | w ∈ ["x", "and", "x", "and", "x"] ∨
        ∃ p ∈ circularProductions, .terminal w ∈ p.rhs} := by
    have hmem (w : String) (hw : w ∈ ["x", "and", "x", "and", "x"] ∨
        ∃ p ∈ circularProductions, .terminal w ∈ p.rhs) : w ∈ ["x", "and"] := by
      simp [circularProductions] at hw ⊢
      tauto
    have hall : ∀ v ∈ ["x", "and"], ∀ w ∈ ["x", "and"],
        crossing.word v = crossing.word w → v = w := by decide
    exact fun v hv w hw => hall v (hmem v hv) w (hmem w hw)
  obtain ⟨g', -, -, ts, hg', -, -, hts, hts', -⟩ := parse_rename hg hname hword (by decide)
  rw [parse_circular_ambiguous] at hts
  obtain rfl := Except.ok.inj hts
  exact ⟨hg, hname, hword, g', hg', hts'⟩

end Grammar

end Constituency
