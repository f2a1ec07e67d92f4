import Constituency.Parse
import Constituency.Proofs.Chart.Expansion
import Constituency.Proofs.Chart.Reading
import Constituency.Proofs.Grammar.Language

/-!
# What the parser answers

A sentence with at least one word has a chart, and what the chart says of the
sentence is what the grammar says of it. A cell records a phrase kind exactly when
the words of its span form such a phrase. The trees of the sentence are the
licensed trees over its words with the start symbol at the root, except for those
in which a chain of unary rules comes back to a phrase kind. Those are endlessly
many as soon as there is one, and leaving them out costs no sentence its last tree.

Nothing is asked of the grammar beyond what its type says.

## Main results

* `mem_trees_iff`               — the trees of a sentence.
* `mem_parse_of_licenses`       — the parser misses no tree.
* `parse_sound`                 — the parser and the cursor invent no tree.
* `accepted_iff_parse_ne_nil`   — what is recorded has a tree.
* `recorded_iff_licensed`       — what is recorded is what the grammar licenses.
-/

namespace Constituency

-- ---------------------------------------------------------------------------
-- The chart of a sentence
-- ---------------------------------------------------------------------------

namespace Chart

theorem words_whole (c : Chart) : c.whole.words c.tokens = c.tokens :=
  Span.words_whole c.tokens

theorem within_whole (c : Chart) : c.whole.Within c.tokens.length :=
  ⟨List.length_pos_iff.2 c.tokens_ne_nil, Nat.le_refl _⟩

/-- The trees of a sentence are its phrases without unary cycles. -/
theorem mem_trees_iff {c : Chart} {t : Tree} :
    t ∈ c.trees ↔ c.grammar.IsPhrase c.grammar.start c.tokens t ∧ t.NoUnaryCycle := by
  have hwords := c.words_whole
  rw [trees, mem_expand_iff]
  constructor
  · intro h
    exact ⟨hwords ▸ h.phrase, h.acyclic⟩
  · intro h
    obtain ⟨hphrase, hacyclic⟩ := h
    exact ⟨c.within_whole, hwords.symm ▸ hphrase, hacyclic, fun _ _ => List.not_mem_nil⟩

theorem mem_parses {c : Chart} {t : Tree} : t ∈ c.parses ↔ t ∈ c.trees :=
  List.mem_eraseDups

theorem parses_ne_nil_iff {c : Chart} : c.parses ≠ [] ↔ c.trees ≠ [] := by
  simp only [ne_eq, List.eq_nil_iff_forall_not_mem, mem_parses]

theorem isAccepted_iff_roots_ne_nil {c : Chart} : c.isAccepted = true ↔ c.roots ≠ [] := by
  rw [isAccepted, Bool.not_eq_true', List.isEmpty_eq_false_iff]

/-- A sentence is accepted when its words are a phrase of the start symbol. -/
theorem isAccepted_iff_exists_isPhrase {c : Chart} :
    c.isAccepted = true ↔ ∃ t, c.grammar.IsPhrase c.grammar.start c.tokens t := by
  rw [isAccepted_iff_roots_ne_nil, roots, derivations_ne_nil_iff, words_whole]
  exact and_iff_right c.within_whole

/-- A sentence with a word has a chart. -/
theorem exists_ofTokens (g : Grammar) {tokens : List String} (h : tokens ≠ []) :
    ∃ c, ofTokens g tokens = .ok c ∧ c.grammar = g ∧ c.tokens = tokens := by
  unfold ofTokens
  rw [dif_neg h]
  exact ⟨_, rfl, rfl, rfl⟩

end Chart

namespace Grammar

/-- The parser answers with the trees of the chart. -/
theorem parse_eq_ok {g : Grammar} {tokens : List String} {c : Chart}
    (h : Chart.ofTokens g tokens = .ok c) : g.parse tokens = .ok c.parses := by
  rw [parse, h]
  rfl

theorem parses_of_parse_eq_ok {g : Grammar} {tokens : List String} {c : Chart} {ts : List Tree}
    (h : Chart.ofTokens g tokens = .ok c) (hts : g.parse tokens = .ok ts) : c.parses = ts :=
  Except.ok.inj ((parse_eq_ok h).symm.trans hts)

-- ---------------------------------------------------------------------------
-- A grammar with unary cycles
-- ---------------------------------------------------------------------------

/-- Productions whose unary rules run in circles: `S` and `A` are each other's child,
and `A` is its own. -/
def circularProductions : List Production :=
  [⟨"S", [.nonterminal "A"]⟩,
   ⟨"S", [.terminal "x"]⟩,
   ⟨"A", [.nonterminal "S"]⟩,
   ⟨"A", [.nonterminal "A"]⟩,
   ⟨"A", [.nonterminal "A", .terminal "and", .nonterminal "S"]⟩]

/-- A grammar in which unary rules run in circles, and in which a word stands between
phrases. -/
def circular : Grammar where
  start := "S"
  rules := .ofList circularProductions
  start_mem := by decide
  rhs_ne_nil := by decide
  closed := by
    have hall : ∀ p ∈ (RuleTable.ofList circularProductions).productions,
        ∀ b ∈ p.children, b ∈ (RuleTable.ofList circularProductions).names := by decide
    intro p hp b hb
    exact hall p hp b (Production.mem_children.2 hb)

/-- A tree of the grammar `circular` that goes through both circles, but not all the
way round. -/
def circularTree : Tree :=
  .branch "S" [.branch "A"
    [.branch "A" [.branch "S" [.leaf "x"]], .leaf "and", .branch "S" [.leaf "x"]]]

/-- The derivation of an `A` over the words up to `stop` with the `and` at `cut`. -/
def circularCut (cut stop : Nat) : Derivation :=
  ⟨⟨"A", [.nonterminal "A", .terminal "and", .nonterminal "S"]⟩,
    [.node ⟨0, cut⟩ "A", .leaf cut, .node ⟨cut + 1, stop⟩ "S"]⟩

theorem parse_circular : circular.parse ["x", "and", "x"] = .ok [circularTree] := by
  cbv

-- ---------------------------------------------------------------------------
-- Completeness
-- ---------------------------------------------------------------------------

/-- Every licensed tree for the start symbol, without unary cycles, is among the
trees of its words. -/
theorem mem_parse_of_licenses {g : Grammar} {t : Tree} (hroot : t.label = .nonterminal g.start)
    (hlicensed : g.licenses t = true) (hacyclic : t.NoUnaryCycle) :
    ∃ ts, g.parse t.leaves = .ok ts ∧ t ∈ ts := by
  obtain ⟨c, hc, rfl, htokens⟩ := Chart.exists_ofTokens g (leaves_ne_nil hlicensed)
  have htree : t ∈ c.trees :=
    Chart.mem_trees_iff.2 ⟨⟨hroot, hlicensed, htokens.symm⟩, hacyclic⟩
  exact ⟨c.parses, parse_eq_ok hc, Chart.mem_parses.2 htree⟩

theorem mem_parse_circular :
    ∃ ts, circular.parse ["x", "and", "x"] = .ok ts ∧ circularTree ∈ ts := by
  have hleaves : circularTree.leaves = ["x", "and", "x"] := by
    simp only [circularTree, Tree.leaves_branch, Tree.leaves_leaf, List.flatMap_cons,
      List.flatMap_nil, List.append_nil, List.cons_append, List.nil_append]
  have hacyclic : circularTree.NoUnaryCycle := by
    have hword : (Tree.branch "S" [.leaf "x"]).NoUnaryCycle :=
      Tree.noUnaryCycle_branch_singleton.2 ⟨by decide, Tree.noUnaryCycle_leaf "x"⟩
    have hphrase : (Tree.branch "A" [.branch "S" [.leaf "x"]]).NoUnaryCycle :=
      Tree.noUnaryCycle_branch_singleton.2 ⟨by decide, hword⟩
    refine Tree.noUnaryCycle_branch_singleton.2 ⟨by decide, ?_⟩
    refine (Tree.noUnaryCycle_branch_of_length_ne_one (by decide)).2 ?_
    rw [List.forall_mem_cons, List.forall_mem_cons, List.forall_mem_singleton]
    exact ⟨hphrase, Tree.noUnaryCycle_leaf "and", hword⟩
  have h := mem_parse_of_licenses (g := circular) (t := circularTree) rfl (by decide) hacyclic
  rw [hleaves] at h
  exact h

-- ---------------------------------------------------------------------------
-- Soundness
-- ---------------------------------------------------------------------------

/-- Every tree that the parser gives, and every tree that a cursor comes to, has the
start symbol at the root and the words of the sentence as its leaves. It is licensed
and without unary cycles. -/
theorem parse_sound {g : Grammar} {tokens : List String} (h : tokens ≠ []) :
    ∃ c ts, Chart.ofTokens g tokens = .ok c ∧ g.parse tokens = .ok ts ∧
      ∀ t, t ∈ ts ∨ c.cursor.Yields t →
        t.label = .nonterminal g.start ∧ t.leaves = tokens ∧ g.licenses t = true ∧
          t.NoUnaryCycle := by
  obtain ⟨c, hc, rfl, rfl⟩ := Chart.exists_ofTokens g h
  refine ⟨c, c.parses, hc, parse_eq_ok hc, ?_⟩
  intro t ht
  have htree : t ∈ c.trees := ht.elim Chart.mem_parses.1 Cursor.yields_cursor_iff.1
  obtain ⟨hphrase, hacyclic⟩ := Chart.mem_trees_iff.1 htree
  exact ⟨hphrase.root, hphrase.leaves, hphrase.licensed, hacyclic⟩

theorem parse_sound_circular :
    ["x", "and", "x"] ≠ [] ∧ ∃ c, Chart.ofTokens circular ["x", "and", "x"] = .ok c ∧
      circular.parse ["x", "and", "x"] = .ok [circularTree] ∧ c.cursor.Yields circularTree ∧
      (circularTree.label = .nonterminal "S" ∧ circularTree.leaves = ["x", "and", "x"] ∧
        circular.licenses circularTree = true ∧ circularTree.NoUnaryCycle) ∧
      ∀ t, t ∈ [circularTree] ∨ c.cursor.Yields t →
        t.label = .nonterminal "S" ∧ t.leaves = ["x", "and", "x"] ∧
          circular.licenses t = true ∧ t.NoUnaryCycle := by
  have hne : ["x", "and", "x"] ≠ [] := by decide
  obtain ⟨c, ts, hc, hts, hsound⟩ := parse_sound (g := circular) hne
  obtain rfl := Except.ok.inj (parse_circular.symm.trans hts)
  have hyields : c.cursor.Yields circularTree := by
    rw [Cursor.yields_cursor_iff, ← Chart.mem_parses, parses_of_parse_eq_ok hc hts]
    exact List.mem_singleton_self circularTree
  exact ⟨hne, c, hc, hts, hyields, hsound circularTree (Or.inr hyields), hsound⟩

-- ---------------------------------------------------------------------------
-- Acceptance
-- ---------------------------------------------------------------------------

/-- A sentence is accepted exactly when it has a tree, and each phrase kind over each
span is recorded exactly when it has one. Dropping what runs in circles never drops
the last tree. -/
theorem accepted_iff_parse_ne_nil {g : Grammar} {tokens : List String} (h : tokens ≠ []) :
    ∃ c ts, Chart.ofTokens g tokens = .ok c ∧ g.parse tokens = .ok ts ∧
      (c.isAccepted = true ↔ ts ≠ []) ∧
      ∀ s a, c.derivations s a ≠ [] ↔ c.expand s a [] ≠ [] := by
  obtain ⟨c, hc, rfl, rfl⟩ := Chart.exists_ofTokens g h
  refine ⟨c, c.parses, hc, parse_eq_ok hc, ?_, ?_⟩
  · rw [Chart.isAccepted_iff_roots_ne_nil, Chart.parses_ne_nil_iff]
    exact Chart.derivations_ne_nil_iff_expand_ne_nil
  · intro s a
    exact Chart.derivations_ne_nil_iff_expand_ne_nil

theorem accepted_iff_parse_ne_nil_circular :
    ["x", "and", "x"] ≠ [] ∧ ∃ c, Chart.ofTokens circular ["x", "and", "x"] = .ok c ∧
      circular.parse ["x", "and", "x"] = .ok [circularTree] ∧
      (c.isAccepted = true ↔ [circularTree] ≠ []) ∧ c.isAccepted = true ∧
      ∀ s a, c.derivations s a ≠ [] ↔ c.expand s a [] ≠ [] := by
  have hne : ["x", "and", "x"] ≠ [] := by decide
  obtain ⟨c, ts, hc, hts, haccepted, hspans⟩ := accepted_iff_parse_ne_nil (g := circular) hne
  obtain rfl := Except.ok.inj (parse_circular.symm.trans hts)
  exact ⟨hne, c, hc, hts, haccepted, haccepted.2 (List.cons_ne_nil _ _), hspans⟩

-- ---------------------------------------------------------------------------
-- Recognition
-- ---------------------------------------------------------------------------

/-- A phrase kind is recorded over a span exactly when the span lies within the
sentence and some licensed tree of that kind, of any shape, has its words. So the
accepted sentences are those of the language. -/
theorem recorded_iff_licensed {g : Grammar} {tokens : List String} (h : tokens ≠ []) :
    ∃ c, Chart.ofTokens g tokens = .ok c ∧
      (∀ start stop a, c.derivations ⟨start, stop⟩ a ≠ [] ↔
        start < stop ∧ stop ≤ tokens.length ∧
          ∃ t : Tree, t.hasLabel a = true ∧ g.licenses t = true ∧
            t.leaves = tokens.extract start stop) ∧
      (c.isAccepted = true ↔ tokens ∈ g.contextFree.language) := by
  obtain ⟨c, hc, rfl, rfl⟩ := Chart.exists_ofTokens g h
  refine ⟨c, hc, ?_, ?_⟩
  · intro start stop a
    rw [Chart.derivations_ne_nil_iff]
    constructor
    · intro hrecorded
      obtain ⟨hwithin, t, hphrase⟩ := hrecorded
      have hlabel : t.hasLabel a = true := Tree.hasLabel_iff.2 hphrase.root
      exact ⟨hwithin.start_lt, hwithin.stop_le, t, hlabel, hphrase.licensed, hphrase.leaves⟩
    · intro hlicensed
      obtain ⟨hlt, hle, t, hlabel, hlic, hleaves⟩ := hlicensed
      exact ⟨⟨hlt, hle⟩, t, Tree.hasLabel_iff.1 hlabel, hlic, hleaves⟩
  · rw [mem_language_iff]
    exact Chart.isAccepted_iff_exists_isPhrase

theorem recorded_iff_licensed_circular :
    ["x", "and", "x"] ≠ [] ∧ ∃ c, Chart.ofTokens circular ["x", "and", "x"] = .ok c ∧
      (∀ start stop a, c.derivations ⟨start, stop⟩ a ≠ [] ↔
        start < stop ∧ stop ≤ 3 ∧
          ∃ t : Tree, t.hasLabel a = true ∧ circular.licenses t = true ∧
            t.leaves = ["x", "and", "x"].extract start stop) ∧
      (c.isAccepted = true ↔ ["x", "and", "x"] ∈ circular.contextFree.language) ∧
      c.derivations ⟨0, 3⟩ "A" ≠ [] ∧ ["x", "and", "x"] ∈ circular.contextFree.language := by
  have hne : ["x", "and", "x"] ≠ [] := by decide
  obtain ⟨c, hc, hrecorded, haccepted⟩ := recorded_iff_licensed (g := circular) hne
  have hphrase : c.derivations ⟨0, 3⟩ "A" ≠ [] := by
    refine (hrecorded 0 3 "A").2 ⟨by decide, by decide, .branch "A"
      [.branch "A" [.branch "S" [.leaf "x"]], .leaf "and", .branch "S" [.leaf "x"]], ?_⟩
    cbv
  have haccept : c.isAccepted = true := by
    obtain rfl := Except.ok.inj hc
    cbv
  exact ⟨hne, c, hc, hrecorded, haccepted, hphrase, haccepted.1 haccept⟩

end Grammar

end Constituency
