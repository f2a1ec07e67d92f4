import Constituency.Chart.Expand
import Constituency.Proofs.Chart.Recognition

/-!
# Which trees the chart expands to

Expanding a phrase kind over a span gives trees, below a chain of phrase kinds
that were passed on the way down over the same span. `mem_expand_iff` says which
trees these are: all trees that show the words of the span to form a phrase of the
kind, that are without unary cycles, and whose topmost chain does not come back to
the chain above. Nothing else is said about the tree, so none is lost and none
invented, whatever unary rules the grammar has.

The expansion recurses on spans and chains. The proof does not follow that
recursion: it is by induction on the tree, in both directions. What a tree needs
of the chart at its root is the one derivation that its children spell out, and
the chain test concerns only a part over the whole span, which is the single child
of a unary rule.

## Main results

* `mem_product_iff`  — one element from each list.
* `mem_expand_iff`   — the trees of a phrase kind over a span.
* `derivations_ne_nil_iff_expand_ne_nil` — what is recorded has a tree without
  unary cycles.
-/

namespace Constituency

-- ---------------------------------------------------------------------------
-- One tree for each part
-- ---------------------------------------------------------------------------

theorem mem_product_iff {α : Type} {ls : List (List α)} {xs : List α} :
    xs ∈ product ls ↔ List.Forall₂ (fun x l => x ∈ l) xs ls := by
  induction ls generalizing xs with
  | nil => rw [product, List.mem_singleton, List.forall₂_nil_right_iff]
  | cons l ls ih =>
    rw [product, List.mem_flatMap, List.forall₂_cons_right_iff]
    constructor
    · intro h
      obtain ⟨x, hx, h⟩ := h
      obtain ⟨tail, htail, rfl⟩ := List.mem_map.1 h
      exact ⟨x, tail, hx, ih.1 htail, rfl⟩
    · intro h
      obtain ⟨x, tail, hx, htail, rfl⟩ := h
      exact ⟨x, hx, List.mem_map.2 ⟨tail, ih.2 htail, rfl⟩⟩

/-- A relation between corresponding elements may use that they are elements. -/
theorem forall₂_of_mem {α β : Type} {R S : α → β → Prop} {as : List α} {bs : List β}
    (h : List.Forall₂ R as bs) (himp : ∀ a ∈ as, ∀ b ∈ bs, R a b → S a b) :
    List.Forall₂ S as bs := by
  rw [List.forall₂_iff_zip] at h ⊢
  refine ⟨h.1, fun {a b} hab => ?_⟩
  obtain ⟨ha, hb⟩ := List.of_mem_zip hab
  exact himp a ha b hb (h.2 hab)

theorem exists_mem_of_forall₂ {α β : Type} {R : α → β → Prop} {as : List α} {bs : List β}
    (h : List.Forall₂ R as bs) {a : α} (ha : a ∈ as) : ∃ b ∈ bs, R a b := by
  induction h with
  | nil => exact absurd ha List.not_mem_nil
  | cons hab _ ih =>
    rcases List.mem_cons.1 ha with rfl | ha
    · exact ⟨_, List.mem_cons_self, hab⟩
    · obtain ⟨b, hb, hR⟩ := ih ha
      exact ⟨b, List.mem_cons_of_mem _ hb, hR⟩

namespace Chart

variable {c : Chart} {s : Span} {a : String} {chain : List String} {t : Tree}

theorem mem_expandDerivation_iff {d : Derivation} :
    t ∈ c.expandDerivation s chain d ↔
      ∃ cs, List.Forall₂ (fun u part => u ∈ c.expandPart s chain part) cs d.parts ∧
        t = .branch d.symbol cs := by
  simp only [expandDerivation_eq, List.mem_map, mem_product_iff, List.forall₂_map_right_iff,
    eq_comm (a := t)]

/-- A tree of a phrase kind has a right derivation at its root and, below it, a
tree for each part of that derivation. -/
theorem mem_expand_iff_exists_parts :
    t ∈ c.expand s a chain ↔ ∃ rhs parts cs, ⟨a, rhs⟩ ∈ c.grammar.productions ∧
      Found c.tokens c.cell s.start s.stop rhs parts ∧
      List.Forall₂ (fun u part => u ∈ c.expandPart s (a :: chain) part) cs parts ∧
      t = .branch a cs := by
  rw [expand, List.mem_flatMap]
  constructor
  · intro h
    obtain ⟨d, hd, ht⟩ := h
    obtain ⟨hcell, rfl⟩ := mem_derivations.1 hd
    obtain ⟨hp, hfound⟩ := mem_cell_iff.1 hcell
    obtain ⟨cs, hcs, rfl⟩ := mem_expandDerivation_iff.1 ht
    exact ⟨d.production.rhs, d.parts, cs, hp, hfound, hcs, rfl⟩
  · intro h
    obtain ⟨rhs, parts, cs, hp, hfound, hcs, rfl⟩ := h
    refine ⟨⟨⟨a, rhs⟩, parts⟩, ?_, mem_expandDerivation_iff.2 ⟨cs, hcs, rfl⟩⟩
    exact mem_derivations.2 ⟨mem_cell_iff.2 ⟨hp, hfound⟩, rfl⟩

-- ---------------------------------------------------------------------------
-- The trees of a part
-- ---------------------------------------------------------------------------

theorem mem_expandPart_leaf {i : Nat} :
    t ∈ c.expandPart s chain (.leaf i) ↔ t = .leaf (c.tokens[i]?.getD "") := by
  rw [expandPart, List.mem_singleton]

theorem mem_expandPart_of_length_lt {u : Span} {b : String} (h : u.length < s.length) :
    t ∈ c.expandPart s chain (.node u b) ↔ t ∈ c.expand u b [] := by
  rw [expandPart, if_pos h]

theorem mem_expandPart_self {b : String} :
    t ∈ c.expandPart s chain (.node s b) ↔ b ∉ chain ∧ t ∈ c.expand s b chain := by
  rw [expandPart, if_neg (Nat.lt_irrefl _)]
  split
  · next h => exact ⟨fun ht => ⟨h.2, ht⟩, fun ht => ht.2⟩
  · next h => exact ⟨fun ht => absurd ht List.not_mem_nil, fun ht => absurd ⟨rfl, ht.1⟩ h⟩

/-- Below some chain, the trees of a part are trees of its phrase kind. -/
theorem exists_mem_expand_of_mem_expandPart {u : Span} {b : String}
    (h : t ∈ c.expandPart s chain (.node u b)) : ∃ chain', t ∈ c.expand u b chain' := by
  rw [expandPart] at h
  split at h
  · exact ⟨[], h⟩
  · split at h
    · next hu => exact ⟨chain, hu.1 ▸ h⟩
    · exact absurd h List.not_mem_nil

-- ---------------------------------------------------------------------------
-- The trees of a phrase kind
-- ---------------------------------------------------------------------------

/-- The trees that the chart expands a phrase kind to, below a chain: the phrases
without unary cycles whose topmost chain does not come back to the chain above. -/
structure Expands (c : Chart) (s : Span) (a : String) (chain : List String) (t : Tree) : Prop where
  within  : s.Within c.tokens.length
  phrase  : c.grammar.IsPhrase a (s.words c.tokens) t
  acyclic : t.NoUnaryCycle
  fresh   : ∀ b ∈ t.chain.tail, b ∉ chain

/-- What a part expands to is the phrase that it stands for, once this is known of
every phrase kind. -/
theorem standsFor_of_mem_expandPart {part : Part}
    (hexpand : ∀ u b chain', t ∈ c.expand u b chain' → c.Expands u b chain' t)
    (h : t ∈ c.expandPart s chain part) :
    part.StandsFor c.grammar c.tokens t ∧ t.NoUnaryCycle := by
  cases part with
  | leaf i =>
    obtain rfl := mem_expandPart_leaf.1 h
    exact ⟨rfl, Tree.noUnaryCycle_leaf _⟩
  | node u b =>
    obtain ⟨chain', hmem⟩ := exists_mem_expand_of_mem_expandPart h
    have hexpands := hexpand u b chain' hmem
    exact ⟨hexpands.phrase, hexpands.acyclic⟩

/-- The only child of an expanded phrase was tested against the chain. -/
theorem fresh_of_mem_expandPart {part : Part}
    (hexpand : ∀ b, t ∈ c.expand s b chain → c.Expands s b chain t)
    (hfound : Found c.tokens c.cell s.start s.stop [t.label] [part])
    (h : t ∈ c.expandPart s chain part) : ∀ b ∈ t.chain, b ∉ chain := by
  cases hlabel : t.label with
  | terminal w =>
    rw [Tree.chain_eq_nil hlabel]
    intro b hb
    exact absurd hb List.not_mem_nil
  | nonterminal a =>
    -- a unary rule: its part is the span itself, where the chain is tested
    rw [hlabel] at hfound
    obtain ⟨-, -, hpart⟩ := Found.unary_iff.1 hfound
    obtain rfl := List.singleton_inj.1 hpart
    obtain ⟨ha, hmem⟩ := mem_expandPart_self.1 h
    have hfresh := (hexpand a hmem).fresh
    rw [Tree.chain_eq_cons hlabel]
    intro b hb
    rcases List.mem_cons.1 hb with rfl | hb
    · exact ha
    · exact hfresh b hb

/-- Expansion gives such trees only. -/
theorem expands_of_mem_expand (h : t ∈ c.expand s a chain) : c.Expands s a chain t := by
  induction t generalizing s a chain with
  | node l cs ih =>
    obtain ⟨rhs, parts, cs, hp, hfound, htrees, heq⟩ := mem_expand_iff_exists_parts.1 h
    obtain ⟨rfl, rfl⟩ := Tree.node.inj heq
    have hpart : ∀ u ∈ cs, ∀ part, u ∈ c.expandPart s (a :: chain) part →
        part.StandsFor c.grammar c.tokens u ∧ u.NoUnaryCycle := by
      intro u hu part
      exact standsFor_of_mem_expandPart fun _ _ _ hmem => ih u hu hmem
    -- the children are phrases where the derivation says, so the root is one
    have hstands : List.Forall₂ (fun u part => part.StandsFor c.grammar c.tokens u) cs parts :=
      forall₂_of_mem htrees fun u hu part _ hmem => (hpart u hu part hmem).1
    obtain ⟨hlabels, hlicensed, hwords⟩ := hfound.forest hstands
    have hphrase : c.grammar.IsPhrase a (s.words c.tokens) (.branch a cs) :=
      Grammar.isPhrase_branch_iff.2 ⟨rfl, hlabels ▸ hp, hlicensed, hwords⟩
    have hacyclic : ∀ u ∈ cs, u.NoUnaryCycle := by
      intro u hu
      obtain ⟨part, -, hmem⟩ := exists_mem_of_forall₂ htrees hu
      exact (hpart u hu part hmem).2
    have honly : ∀ u, cs = [u] → ∀ b ∈ u.chain, b ∉ a :: chain := by
      rintro u rfl
      obtain ⟨part, rest, hmem, hrest, rfl⟩ := List.forall₂_cons_left_iff.1 htrees
      obtain rfl := List.forall₂_nil_left_iff.1 hrest
      rw [← hlabels] at hfound
      exact fresh_of_mem_expandPart (fun _ hmem => ih u List.mem_cons_self hmem) hfound hmem
    obtain ⟨hacyclic, hfresh⟩ := Tree.fresh_branch_iff.2 ⟨hacyclic, honly⟩
    have hwithin := hfound.within (fun _ => cell_eq_nil) (c.grammar.rhs_ne_nil _ hp)
    exact ⟨hwithin, hphrase, hacyclic, hfresh⟩

/-- Expansion misses no such tree. -/
theorem mem_expand_of_expands (h : c.Expands s a chain t) : t ∈ c.expand s a chain := by
  induction t generalizing s a chain with
  | node l cs ih =>
    obtain ⟨hwithin, hphrase, hacyclic, hfresh⟩ := h
    obtain rfl : l = .nonterminal a := hphrase.root
    obtain ⟨-, hp, hlicensed, hwords⟩ := Grammar.isPhrase_branch_iff.1 hphrase
    obtain ⟨hacyclic, honly⟩ := Tree.fresh_branch_iff.1 ⟨hacyclic, hfresh⟩
    obtain ⟨hfound, hstands⟩ := found_partsFrom (Nat.le_of_lt hwithin.start_lt) hwithin.stop_le
      hlicensed hwords fun t _ _ _ hu hphrase => mem_symbols_of_isPhrase hu hphrase
    refine mem_expand_iff_exists_parts.2 ⟨_, _, cs, hp, hfound, ?_, rfl⟩
    refine forall₂_of_mem hstands fun u hu part hpart hpu => ?_
    cases part with
    | leaf i => exact mem_expandPart_leaf.2 hpu
    | node v b =>
      have hv : v.Within c.tokens.length := within_of_mem_symbols (hfound.bounds hpart).2.2.2
      have hu' := hacyclic u hu
      rcases hfound.length_lt_or_unary hpart with hlt | ⟨hrhs, rfl⟩
      · -- a shorter span, where a new chain starts
        have hmem := ih u hu ⟨hv, hpu, hu', fun _ _ => List.not_mem_nil⟩
        exact (mem_expandPart_of_length_lt hlt).2 hmem
      · -- the same span: the child stands on the topmost chain
        obtain ⟨u', rfl, -⟩ := List.map_eq_singleton_iff.1 hrhs
        obtain rfl := List.mem_singleton.1 hu
        have hfresh := honly u rfl
        rw [Tree.chain_eq_cons hpu.root] at hfresh
        obtain ⟨hb, hfresh⟩ := List.forall_mem_cons.1 hfresh
        exact mem_expandPart_self.2 ⟨hb, ih u hu ⟨hv, hpu, hu', hfresh⟩⟩

/-- Which trees the chart expands a phrase kind to. -/
theorem mem_expand_iff : t ∈ c.expand s a chain ↔ c.Expands s a chain t :=
  ⟨expands_of_mem_expand, mem_expand_of_expands⟩

/-- What the chart records has a tree that survives the expansion. -/
theorem derivations_ne_nil_iff_expand_ne_nil :
    c.derivations s a ≠ [] ↔ c.expand s a [] ≠ [] := by
  constructor
  · intro h
    obtain ⟨hs, t, ht⟩ := derivations_ne_nil_iff.1 h
    obtain ⟨u, hu, hacyclic⟩ := ht.exists_noUnaryCycle
    exact List.ne_nil_of_mem (mem_expand_iff.2 ⟨hs, hu, hacyclic, fun _ _ => List.not_mem_nil⟩)
  · intro h hnil
    rw [expand, hnil, List.flatMap_nil] at h
    exact h rfl

end Chart

end Constituency
