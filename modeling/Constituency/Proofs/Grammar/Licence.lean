import Constituency.Grammar.Licence
import Constituency.Proofs.Tree.Chain
import Mathlib.Tactic.Choose

/-!
# Phrases

A tree shows that some words form a phrase of a kind when its root has that kind,
the grammar licenses it, and its leaves are the words. What a grammar generates is
defined by such trees, of any shape.

Since every rule consumes something, a licensed tree has at least one word; this
is what makes the parts of a phrase shorter than the phrase. And unary cycles in a
tree serve nothing: where a chain comes back to a phrase kind, what lies between
the two occurrences can be cut out, and the words stay.

## Main results

* `rulesFor_eq_filter`    — the rules for a kind are the productions for it.
* `licenses_branch_iff`   — a phrase is licensed by a production and its children.
* `leaves_ne_nil`         — a licensed tree has a word.
* `IsPhrase.exists_noUnaryCycle` — words that form a phrase have a tree without
  unary cycles.
-/

namespace Constituency

-- ---------------------------------------------------------------------------
-- The rules for a phrase kind
-- ---------------------------------------------------------------------------

/-- Blocks that are kept or dropped as a whole can be chosen before they are lined up. -/
theorem filter_flatMap_eq_flatMap_filter {α β : Type} {as : List α} {f : α → List β}
    {p : β → Bool} {q : α → Bool} (h : ∀ a ∈ as, ∀ b ∈ f a, p b = q a) :
    (as.flatMap f).filter p = (as.filter q).flatMap f := by
  induction as with
  | nil => rfl
  | cons a as ih =>
    obtain ⟨ha, has⟩ := List.forall_mem_cons.1 h
    rw [List.flatMap_cons, List.filter_append, ih has, List.filter_cons]
    by_cases hq : q a = true
    · have hall : (f a).filter p = f a := List.filter_eq_self.2 fun b hb => (ha b hb).trans hq
      rw [hall, if_pos hq, List.flatMap_cons]
    · have hnone : (f a).filter p = [] :=
        List.filter_eq_nil_iff.2 fun b hb hp => hq ((ha b hb).symm.trans hp)
      rw [hnone, if_neg hq, List.nil_append]

/-- The rules for a phrase kind are the productions for it, in their order. -/
theorem rulesIn_eq_filter {es : List Entry} (hnd : (es.map Entry.lhs).Nodup) (a : String) :
    rulesIn a es = (es.flatMap Entry.productions).filter fun p => p.lhs = a := by
  rw [filter_flatMap_eq_flatMap_filter (q := fun e => e.lhs = a) fun e _ p hp => by
    rw [Entry.lhs_of_mem_productions hp]]
  induction es with
  | nil => rfl
  | cons e es ih =>
    obtain ⟨hne, hnd⟩ := List.nodup_cons.1 hnd
    rw [rulesIn, List.filter_cons]
    by_cases he : e.lhs = a
    · -- a second entry for the same kind is excluded
      have hrest : es.filter (fun e' => e'.lhs = a) = [] :=
        List.filter_eq_nil_iff.2 fun e' he' h =>
          hne (List.mem_map.2 ⟨e', he', (of_decide_eq_true h).trans he.symm⟩)
      rw [if_pos he, if_pos (decide_eq_true he), hrest, List.flatMap_singleton]
    · rw [if_neg he, if_neg (by simpa using he), ih hnd]

namespace Grammar

theorem rulesFor_eq_filter (g : Grammar) (a : String) :
    g.rulesFor a = g.productions.filter fun p => p.lhs = a :=
  rulesIn_eq_filter g.rules.names_nodup a

theorem mem_rulesFor_iff {g : Grammar} {a : String} {p : Production} :
    p ∈ g.rulesFor a ↔ p ∈ g.productions ∧ p.lhs = a := by
  rw [rulesFor_eq_filter, List.mem_filter, decide_eq_true_iff]

-- ---------------------------------------------------------------------------
-- Licensed trees
-- ---------------------------------------------------------------------------

theorem licenses_terminal_iff {g : Grammar} {w : String} {cs : List Tree} :
    g.licenses (.node (.terminal w) cs) = true ↔ cs = [] := by
  rw [licenses_node_iff]
  constructor
  · intro h
    obtain ⟨h, -⟩ := h
    simpa [licensesNode] using h
  · rintro rfl
    simp [licensesNode]

theorem licenses_branch_iff {g : Grammar} {a : String} {cs : List Tree} :
    g.licenses (.branch a cs) = true ↔
      ⟨a, cs.map Tree.label⟩ ∈ g.productions ∧ ∀ c ∈ cs, g.licenses c = true := by
  rw [Tree.branch, licenses_node_iff, licensesNode_nonterminal_iff]
  refine and_congr_left fun _ => ?_
  constructor
  · intro h
    obtain ⟨p, hp, hrhs⟩ := h
    obtain ⟨hmem, rfl⟩ := mem_rulesFor_iff.1 hp
    rw [← hrhs]
    exact hmem
  · intro h
    exact ⟨_, mem_rulesFor_iff.2 ⟨h, rfl⟩, rfl⟩

theorem licenses_of_mem_subtrees {g : Grammar} {t u : Tree} (h : g.licenses t = true)
    (hu : u ∈ t.subtrees) : g.licenses u = true := by
  induction t with
  | node l cs ih =>
    rcases Tree.mem_subtrees_node.1 hu with rfl | ⟨c, hc, hu⟩
    · exact h
    · exact ih c hc ((licenses_node_iff.1 h).2 c hc) hu

/-- Every rule consumes something, so a licensed tree has a word. -/
theorem leaves_ne_nil {g : Grammar} {t : Tree} (h : g.licenses t = true) : t.leaves ≠ [] := by
  induction t with
  | node l cs ih =>
    match l with
    | .terminal w =>
      obtain rfl := licenses_terminal_iff.1 h
      rw [← Tree.leaf, Tree.leaves_leaf]
      exact List.cons_ne_nil _ _
    | .nonterminal a =>
      obtain ⟨hrule, hcs⟩ := licenses_branch_iff.1 h
      have hne : cs ≠ [] := fun hnil => g.rhs_ne_nil _ hrule (by rw [hnil, List.map_nil])
      obtain ⟨c, hc⟩ := List.exists_mem_of_ne_nil cs hne
      rw [← Tree.branch, Tree.leaves_branch]
      intro hnil
      exact ih c hc (hcs c hc) (List.flatMap_eq_nil_iff.1 hnil c hc)

-- ---------------------------------------------------------------------------
-- Phrases
-- ---------------------------------------------------------------------------

/-- The tree shows that the words `ws` form a phrase of the kind `a`. -/
structure IsPhrase (g : Grammar) (a : String) (ws : List String) (t : Tree) : Prop where
  root     : t.label = .nonterminal a
  licensed : g.licenses t = true
  leaves   : t.leaves = ws

theorem isPhrase_branch_iff {g : Grammar} {a b : String} {ws : List String} {cs : List Tree} :
    g.IsPhrase b ws (.branch a cs) ↔
      a = b ∧ ⟨a, cs.map Tree.label⟩ ∈ g.productions ∧ (∀ c ∈ cs, g.licenses c = true) ∧
        cs.flatMap Tree.leaves = ws := by
  constructor
  · intro h
    obtain ⟨hroot, hlicensed, hleaves⟩ := h
    obtain ⟨hrule, hcs⟩ := licenses_branch_iff.1 hlicensed
    exact ⟨Symbol.nonterminal.inj hroot, hrule, hcs, by rw [← hleaves, Tree.leaves_branch]⟩
  · intro h
    obtain ⟨rfl, hrule, hcs, hleaves⟩ := h
    exact ⟨rfl, licenses_branch_iff.2 ⟨hrule, hcs⟩, by rw [Tree.leaves_branch, hleaves]⟩

/-- Over children without unary cycles, only the root can close one; then the lower
phrase of its kind is enough. -/
theorem exists_noUnaryCycle_of_children {g : Grammar} {a : String} {cs : List Tree}
    (h : g.licenses (.branch a cs) = true) (hcs : ∀ c ∈ cs, c.NoUnaryCycle) :
    ∃ u, g.IsPhrase a (cs.flatMap Tree.leaves) u ∧ u.NoUnaryCycle := by
  have hphrase : g.IsPhrase a (cs.flatMap Tree.leaves) (.branch a cs) :=
    ⟨rfl, h, Tree.leaves_branch a cs⟩
  by_cases hlen : cs.length = 1
  · obtain ⟨c, rfl⟩ := List.length_eq_one_iff.1 hlen
    have hc := hcs c List.mem_cons_self
    have hlicensed := (licenses_branch_iff.1 h).2 c List.mem_cons_self
    by_cases ha : a ∈ c.chain
    · obtain ⟨u, hu, hroot, hwords⟩ := Tree.exists_subtree_of_mem_chain ha
      have hleaves : u.leaves = [c].flatMap Tree.leaves := by
        rw [hwords, List.flatMap_singleton]
      exact ⟨u, ⟨hroot, licenses_of_mem_subtrees hlicensed hu, hleaves⟩, hc.of_mem_subtrees hu⟩
    · exact ⟨_, hphrase, Tree.noUnaryCycle_branch_singleton.2 ⟨ha, hc⟩⟩
  · exact ⟨_, hphrase, (Tree.noUnaryCycle_branch_of_length_ne_one hlen).2 hcs⟩

/-- Cutting unary cycles out of a licensed tree keeps its root and its words. -/
theorem exists_noUnaryCycle_of_licenses {g : Grammar} {t : Tree} (h : g.licenses t = true) :
    ∃ u, u.label = t.label ∧ g.licenses u = true ∧ u.leaves = t.leaves ∧ u.NoUnaryCycle := by
  induction t with
  | node l cs ih =>
    match l with
    | .terminal w =>
      obtain rfl := licenses_terminal_iff.1 h
      exact ⟨_, rfl, h, rfl, Tree.noUnaryCycle_leaf w⟩
    | .nonterminal a =>
      obtain ⟨hrule, hcs⟩ := licenses_branch_iff.1 h
      choose! cut hlabel hlicensed hleaves hcycle using fun c hc => ih c hc (hcs c hc)
      -- the same node over children that are free of unary cycles
      have hlabels : (cs.map cut).map Tree.label = cs.map Tree.label := by
        rw [List.map_map]
        exact List.map_congr_left hlabel
      have hwords : (cs.map cut).flatMap Tree.leaves = cs.flatMap Tree.leaves := by
        rw [List.flatMap_map, List.flatMap_def, List.map_congr_left hleaves, ← List.flatMap_def]
      have hlic : g.licenses (.branch a (cs.map cut)) = true :=
        licenses_branch_iff.2 ⟨hlabels ▸ hrule, List.forall_mem_map.2 hlicensed⟩
      obtain ⟨u, hphrase, hu⟩ :=
        exists_noUnaryCycle_of_children hlic (List.forall_mem_map.2 hcycle)
      rw [hwords, ← Tree.leaves_branch] at hphrase
      exact ⟨u, hphrase.root, hphrase.licensed, hphrase.leaves, hu⟩

/-- Words that form a phrase have a tree without unary cycles. -/
theorem IsPhrase.exists_noUnaryCycle {g : Grammar} {a : String} {ws : List String} {t : Tree}
    (h : g.IsPhrase a ws t) : ∃ u, g.IsPhrase a ws u ∧ u.NoUnaryCycle := by
  obtain ⟨u, hroot, hlicensed, hleaves, hcycle⟩ := exists_noUnaryCycle_of_licenses h.licensed
  exact ⟨u, ⟨hroot.trans h.root, hlicensed, hleaves.trans h.leaves⟩, hcycle⟩

end Grammar

end Constituency
