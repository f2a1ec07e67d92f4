import Constituency.Proofs.Grammar.Licence
import Mathlib.Computability.ContextFreeGrammar

/-!
# The language of a grammar

A grammar generates a sentence when its start symbol can be rewritten to the
sentence, one nonterminal at a time, each by the right-hand side of one of its
productions. Mathlib's context-free grammars define just that, so a grammar is read
as one of them.

Rewriting and licensed trees are two views of one thing. A licensed tree is
rewritten from its root to its words, child after child. Conversely a rewriting is
read backwards from its last step: there every word is a tree of its own, and each
step back puts a node over the trees that the right-hand side stands for.

## Main results

* `derives_of_licenses`      — a licensed tree is a rewriting.
* `exists_forest_of_derives` — a rewriting to words is a forest.
* `mem_language_iff`         — the language is what the phrases for the start symbol
  cover.
-/

/-- A symbol that is rewritten: words are final, names are not. -/
abbrev ContextFreeSymbol : Type := Symbol String String

namespace Constituency

/-- The symbol as rewriting knows it. -/
def Symbol.contextFree : Symbol → ContextFreeSymbol
  | .terminal w => .terminal w
  | .nonterminal a => .nonterminal a

/-- The production as a rule of rewriting. -/
def Production.contextFree (p : Production) : ContextFreeRule String String where
  input := p.lhs
  output := p.rhs.map Symbol.contextFree

/-- The grammar as rewriting knows it. -/
abbrev Grammar.contextFree (g : Grammar) : ContextFreeGrammar String where
  NT := String
  initial := g.start
  rules := (g.productions.map Production.contextFree).toFinset

theorem Symbol.contextFree_injective : Function.Injective Symbol.contextFree := by
  intro s t h
  cases s <;> cases t <;> simp_all [Symbol.contextFree]

namespace Grammar

variable {g : Grammar}

-- ---------------------------------------------------------------------------
-- From trees to rewritings
-- ---------------------------------------------------------------------------

theorem produces_of_mem_productions {p : Production} (hp : p ∈ g.productions) :
    g.contextFree.Produces [.nonterminal p.lhs] (p.rhs.map Symbol.contextFree) := by
  refine ⟨p.contextFree, ?_, ContextFreeRule.Rewrites.input_output⟩
  exact List.mem_toFinset.2 (List.mem_map_of_mem hp)

theorem derives_flatMap_leaves {ts : List Tree}
    (h : ∀ t ∈ ts, g.contextFree.Derives [t.label.contextFree] (t.leaves.map .terminal)) :
    g.contextFree.Derives (ts.map fun t => t.label.contextFree)
      ((ts.flatMap Tree.leaves).map .terminal) := by
  induction ts with
  | nil => exact ContextFreeGrammar.Derives.refl _
  | cons t ts ih =>
    have hhead := h t List.mem_cons_self
    have htail := ih fun u hu => h u (List.mem_cons_of_mem _ hu)
    rw [List.map_cons, List.flatMap_cons, List.map_append, ← List.singleton_append]
    exact (hhead.append_right _).trans (htail.append_left _)

/-- A licensed tree is a rewriting of its root to its words. -/
theorem derives_of_licenses {t : Tree} (h : g.licenses t = true) :
    g.contextFree.Derives [t.label.contextFree] (t.leaves.map .terminal) := by
  induction t with
  | node l cs ih =>
    match l with
    | .terminal w =>
      obtain rfl := licenses_terminal_iff.1 h
      rw [← Tree.leaf, Tree.leaves_leaf]
      exact ContextFreeGrammar.Derives.refl _
    | .nonterminal a =>
      obtain ⟨hrule, hcs⟩ := licenses_branch_iff.1 h
      have hstep := produces_of_mem_productions hrule
      have hforest := derives_flatMap_leaves fun c hc => ih c hc (hcs c hc)
      rw [← Tree.branch, Tree.leaves_branch]
      rw [List.map_map] at hstep
      exact hstep.trans_derives hforest

-- ---------------------------------------------------------------------------
-- From rewritings to trees
-- ---------------------------------------------------------------------------

/-- One step back in a rewriting puts a node over the trees that the right-hand side
stands for. -/
theorem exists_forest_of_produces {u v : List ContextFreeSymbol}
    (h : g.contextFree.Produces u v) {ts : List Tree}
    (hroots : (ts.map fun t => t.label.contextFree) = v)
    (hlicensed : ∀ t ∈ ts, g.licenses t = true) :
    ∃ us : List Tree, (us.map fun t => t.label.contextFree) = u ∧
      (∀ t ∈ us, g.licenses t = true) ∧ us.flatMap Tree.leaves = ts.flatMap Tree.leaves := by
  obtain ⟨r, hr, hrewrites⟩ := h
  obtain ⟨p, hp, rfl⟩ := List.mem_map.1 (List.mem_toFinset.1 hr)
  obtain ⟨before, after, rfl, rfl⟩ := hrewrites.exists_parts
  obtain ⟨front, ts₃, rfl, hfront, rfl⟩ := List.map_eq_append_iff.1 hroots
  obtain ⟨ts₁, ts₂, rfl, rfl, hrhs⟩ := List.map_eq_append_iff.1 hfront
  simp only [List.forall_mem_append] at hlicensed
  obtain ⟨⟨h₁, h₂⟩, h₃⟩ := hlicensed
  have hlabels : ts₂.map Tree.label = p.rhs := by
    refine List.map_injective_iff.2 Symbol.contextFree_injective ?_
    rw [List.map_map]
    exact hrhs
  have hnode : g.licenses (.branch p.lhs ts₂) = true :=
    licenses_branch_iff.2 ⟨hlabels ▸ hp, h₂⟩
  refine ⟨ts₁ ++ [.branch p.lhs ts₂] ++ ts₃, ?_, ?_, ?_⟩
  · simp only [List.map_append, List.map_cons, List.map_nil, Tree.label_branch]
    rfl
  · simp only [List.forall_mem_append, List.forall_mem_singleton]
    exact ⟨⟨h₁, hnode⟩, h₃⟩
  · simp only [List.flatMap_append, List.flatMap_singleton, Tree.leaves_branch]

/-- A rewriting to words is a forest of licensed trees over these words, whose roots
are the symbols that it starts from. -/
theorem exists_forest_of_derives {u : List ContextFreeSymbol} {ws : List String}
    (h : g.contextFree.Derives u (ws.map .terminal)) :
    ∃ ts : List Tree, (ts.map fun t => t.label.contextFree) = u ∧
      (∀ t ∈ ts, g.licenses t = true) ∧ ts.flatMap Tree.leaves = ws := by
  induction h using Relation.ReflTransGen.head_induction_on with
  | refl =>
    refine ⟨ws.map Tree.leaf, ?_, ?_, ?_⟩
    · rw [List.map_map]
      rfl
    · intro t ht
      obtain ⟨w, -, rfl⟩ := List.mem_map.1 ht
      exact licenses_terminal_iff.2 rfl
    · rw [List.flatMap_map]
      simp only [Tree.leaves_leaf, List.flatMap_singleton']
  | head hstep _ ih =>
    obtain ⟨ts, hroots, hlicensed, hwords⟩ := ih
    obtain ⟨us, hus, hlic, hleaves⟩ := exists_forest_of_produces hstep hroots hlicensed
    exact ⟨us, hus, hlic, hleaves.trans hwords⟩

/-- The grammar generates the sentences that are phrases of the start symbol. -/
theorem mem_language_iff {ws : List String} :
    ws ∈ g.contextFree.language ↔ ∃ t, g.IsPhrase g.start ws t := by
  constructor
  · intro h
    obtain ⟨ts, hroots, hlicensed, hwords⟩ := exists_forest_of_derives h
    obtain ⟨t, rfl, hroot⟩ := List.map_eq_singleton_iff.1 hroots
    rw [List.flatMap_singleton] at hwords
    have hlabel : t.label = .nonterminal g.start := Symbol.contextFree_injective hroot
    exact ⟨t, hlabel, hlicensed t List.mem_cons_self, hwords⟩
  · intro h
    obtain ⟨t, hroot, hlicensed, rfl⟩ := h
    have hderives := derives_of_licenses hlicensed
    rw [hroot] at hderives
    exact hderives

end Grammar

end Constituency
