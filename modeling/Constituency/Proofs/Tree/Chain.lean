import Constituency.Proofs.Tree.Preorder
import Mathlib.Data.List.Chain
import Mathlib.Data.List.Nodup

/-!
# Chains of only children

A unary rule puts a phrase right above a single phrase over the same words. In a
tree such steps line up to *chains*: phrases, each the only child of the one
before it. Unary rules may run in circles, and then a grammar has trees whose
chains come back to the same phrase kind over and over. A tree **without unary
cycles** is one in which no chain does.

The definition speaks of every chain in the tree. Proofs by recursion on the tree
need less: the chain that starts at the root cannot be made longer, and each
chain is a stretch of such a one. So a tree is without unary cycles exactly when
the kinds on the topmost chain of each subtree are distinct.

## Main declarations

* `Tree.OnlyChildChain`    — a chain.
* `Tree.NoUnaryCycle`      — no chain of the tree names a phrase kind twice.
* `Tree.chain`             — the phrase kinds on the topmost chain.
* `noUnaryCycle_node_iff`  — the recursive form.
* `exists_subtree_of_mem_chain` — each kind on the topmost chain labels a subtree
  with all the words of the tree.
-/

namespace Constituency

namespace Tree

-- ---------------------------------------------------------------------------
-- Chains
-- ---------------------------------------------------------------------------

/-- Phrases, each the only child of the one before it. -/
structure OnlyChildChain (ts : List Tree) : Prop where
  linked  : ts.IsChain fun t u => t.children = [u]
  phrases : ∀ t ∈ ts, t.label.isTerminal = false

/-- No chain of the tree carries the same label twice. -/
def NoUnaryCycle (t : Tree) : Prop :=
  ∀ ts, OnlyChildChain ts → (∀ u ∈ ts, u ∈ t.subtrees) → (ts.map label).Nodup

/-- The phrase kinds on the chain that starts at the root and goes down as far as
it can. -/
def chain : Tree → List String
  | .node (.terminal _) _ => []
  | .node (.nonterminal a) [c] => a :: c.chain
  | .node (.nonterminal a) _ => [a]

@[simp] theorem chain_terminal (w : String) (cs : List Tree) :
    (node (.terminal w) cs).chain = [] := by
  unfold chain
  rfl

@[simp] theorem chain_branch_singleton (a : String) (c : Tree) :
    (branch a [c]).chain = a :: c.chain := by
  rw [branch, chain]

theorem chain_branch_of_length_ne_one {a : String} {cs : List Tree} (h : cs.length ≠ 1) :
    (branch a cs).chain = [a] := by
  match cs, h with
  | [], _ => rfl
  | [_], h => exact absurd rfl h
  | _ :: _ :: _, _ => rfl

/-- A phrase stands at the top of its own chain. -/
theorem chain_branch (a : String) (cs : List Tree) :
    (branch a cs).chain = a :: (branch a cs).chain.tail := by
  by_cases h : cs.length = 1
  · obtain ⟨c, rfl⟩ := List.length_eq_one_iff.1 h
    rw [chain_branch_singleton, List.tail_cons]
  · rw [chain_branch_of_length_ne_one h, List.tail_cons]

theorem chain_eq_nil {t : Tree} {w : String} (h : t.label = .terminal w) : t.chain = [] := by
  obtain ⟨l, cs⟩ := t
  obtain rfl : l = .terminal w := h
  exact chain_terminal w cs

theorem chain_eq_cons {t : Tree} {a : String} (h : t.label = .nonterminal a) :
    t.chain = a :: t.chain.tail := by
  obtain ⟨l, cs⟩ := t
  obtain rfl : l = .nonterminal a := h
  exact chain_branch a cs

-- ---------------------------------------------------------------------------
-- The topmost chain is a chain, and there is no longer one
-- ---------------------------------------------------------------------------

theorem OnlyChildChain.exists_label {ts : List Tree} (h : OnlyChildChain ts) {t : Tree}
    (ht : t ∈ ts) : ∃ a, t.label = .nonterminal a := by
  have hphrase := h.phrases t ht
  cases hl : t.label with
  | terminal w =>
    rw [hl] at hphrase
    cases hphrase
  | nonterminal a => exact ⟨a, rfl⟩

theorem onlyChildChain_singleton (a : String) (cs : List Tree) :
    OnlyChildChain [branch a cs] := by
  refine ⟨.singleton _, ?_⟩
  intro t ht
  rw [List.mem_singleton.1 ht]
  rfl

/-- A chain grows by a phrase whose only child is its first one. -/
theorem OnlyChildChain.cons {a : String} {c : Tree} {ts : List Tree} (h : OnlyChildChain ts)
    (hhead : ∀ u ∈ ts.head?, u = c) : OnlyChildChain (branch a [c] :: ts) := by
  refine ⟨h.linked.cons ?_, ?_⟩
  · intro u hu
    rw [hhead u hu]
    rfl
  · intro t ht
    rcases List.mem_cons.1 ht with rfl | ht
    · rfl
    · exact h.phrases t ht

/-- The topmost chain is a chain of the tree, and starts at its root. -/
theorem exists_onlyChildChain (t : Tree) :
    ∃ ts, OnlyChildChain ts ∧ (∀ u ∈ ts.head?, u = t) ∧ (∀ u ∈ ts, u ∈ t.subtrees) ∧
      ts.map label = t.chain.map .nonterminal := by
  induction t with
  | node l cs ih =>
    match l with
    | .terminal w => exact ⟨[], ⟨.nil, by simp⟩, by simp, by simp, by simp⟩
    | .nonterminal a =>
      by_cases h : cs.length = 1
      · obtain ⟨c, rfl⟩ := List.length_eq_one_iff.1 h
        obtain ⟨ts, hchain, hhead, hsub, hlabels⟩ := ih c List.mem_cons_self
        refine ⟨branch a [c] :: ts, hchain.cons hhead, by simp [branch], ?_, ?_⟩
        · intro u hu
          rcases List.mem_cons.1 hu with rfl | hu
          · exact self_mem_subtrees _
          · exact mem_subtrees_node.2 (Or.inr ⟨c, List.mem_cons_self, hsub u hu⟩)
        · rw [List.map_cons, hlabels, ← branch, chain_branch_singleton, List.map_cons, label_branch]
      · refine ⟨[branch a cs], onlyChildChain_singleton a cs, by simp [branch], ?_, ?_⟩
        · intro u hu
          rw [List.mem_singleton.1 hu]
          exact self_mem_subtrees _
        · rw [← branch, chain_branch_of_length_ne_one h]
          rfl

/-- A chain that starts at the root goes down along the topmost chain. -/
theorem map_label_prefix_chain {t : Tree} {ts : List Tree} (h : OnlyChildChain (t :: ts)) :
    (t :: ts).map label <+: t.chain.map .nonterminal := by
  induction ts generalizing t with
  | nil =>
    obtain ⟨a, ha⟩ := h.exists_label List.mem_cons_self
    rw [chain_eq_cons ha, List.map_cons, List.map_cons, ha]
    exact ⟨_, rfl⟩
  | cons u us ih =>
    obtain ⟨a, ha⟩ := h.exists_label List.mem_cons_self
    obtain ⟨hlinked, hphrases⟩ := h
    obtain ⟨hchild, hrest⟩ := List.isChain_cons_cons.1 hlinked
    have ih := ih ⟨hrest, fun v hv => hphrases v (List.mem_cons_of_mem _ hv)⟩
    obtain rfl : t = branch a [u] := by
      obtain ⟨l, cs⟩ := t
      rw [branch, ← ha, ← hchild, label_node, children_node]
    rw [chain_branch_singleton]
    exact (List.prefix_cons_inj _).2 ih

-- ---------------------------------------------------------------------------
-- Trees without unary cycles
-- ---------------------------------------------------------------------------

theorem noUnaryCycle_iff_forall_subtrees {t : Tree} :
    t.NoUnaryCycle ↔ ∀ u ∈ t.subtrees, u.chain.Nodup := by
  constructor
  · intro h u hu
    obtain ⟨ts, hchain, -, hsub, hlabels⟩ := exists_onlyChildChain u
    have hnodup := h ts hchain fun v hv => mem_subtrees_trans (hsub v hv) hu
    rw [hlabels] at hnodup
    exact hnodup.of_map _
  · intro h ts hchain hsub
    match ts with
    | [] => exact List.nodup_nil
    | u :: us =>
      have hu := h u (hsub u List.mem_cons_self)
      refine List.Nodup.sublist (map_label_prefix_chain hchain).sublist ?_
      exact hu.map fun _ _ hab => Symbol.nonterminal.inj hab

/-- A tree is without unary cycles when its topmost chain is, and its children
are. -/
theorem noUnaryCycle_node_iff {l : Symbol} {cs : List Tree} :
    (node l cs).NoUnaryCycle ↔ (node l cs).chain.Nodup ∧ ∀ c ∈ cs, c.NoUnaryCycle := by
  simp only [noUnaryCycle_iff_forall_subtrees, mem_subtrees_node]
  constructor
  · intro h
    exact ⟨h _ (Or.inl rfl), fun c hc u hu => h u (Or.inr ⟨c, hc, hu⟩)⟩
  · intro h u hu
    obtain ⟨hroot, hchildren⟩ := h
    rcases hu with rfl | ⟨c, hc, hu⟩
    · exact hroot
    · exact hchildren c hc u hu

theorem NoUnaryCycle.chain_nodup {t : Tree} (h : t.NoUnaryCycle) : t.chain.Nodup :=
  noUnaryCycle_iff_forall_subtrees.1 h t t.self_mem_subtrees

theorem NoUnaryCycle.of_mem_subtrees {t u : Tree} (h : t.NoUnaryCycle) (hu : u ∈ t.subtrees) :
    u.NoUnaryCycle :=
  fun ts hchain hsub => h ts hchain fun v hv => mem_subtrees_trans (hsub v hv) hu

theorem noUnaryCycle_leaf (w : String) : (leaf w).NoUnaryCycle :=
  noUnaryCycle_node_iff.2 ⟨by simp, by simp⟩

/-- A node over several children, or over none, starts no chain of its own. -/
theorem noUnaryCycle_branch_of_length_ne_one {a : String} {cs : List Tree} (h : cs.length ≠ 1) :
    (branch a cs).NoUnaryCycle ↔ ∀ c ∈ cs, c.NoUnaryCycle := by
  rw [branch, noUnaryCycle_node_iff, ← branch, chain_branch_of_length_ne_one h]
  simp

/-- A node over a single child adds its kind to the chain of that child. -/
theorem noUnaryCycle_branch_singleton {a : String} {c : Tree} :
    (branch a [c]).NoUnaryCycle ↔ a ∉ c.chain ∧ c.NoUnaryCycle := by
  rw [branch, noUnaryCycle_node_iff, ← branch, chain_branch_singleton, List.nodup_cons]
  constructor
  · intro h
    obtain ⟨⟨ha, -⟩, hc⟩ := h
    exact ⟨ha, hc c List.mem_cons_self⟩
  · intro h
    obtain ⟨ha, hc⟩ := h
    refine ⟨⟨ha, hc.chain_nodup⟩, fun d hd => ?_⟩
    rw [List.mem_singleton.1 hd]
    exact hc

/-- A tree without unary cycles stays clear of the kinds in `above` with what stands
below its root when its children are such trees, and an only child stays clear of the
root as well. -/
theorem fresh_branch_iff {a : String} {cs : List Tree} {above : List String} :
    ((branch a cs).NoUnaryCycle ∧ ∀ b ∈ (branch a cs).chain.tail, b ∉ above) ↔
      (∀ c ∈ cs, c.NoUnaryCycle) ∧ ∀ c, cs = [c] → ∀ b ∈ c.chain, b ∉ a :: above := by
  by_cases hlen : cs.length = 1
  · obtain ⟨c, rfl⟩ := List.length_eq_one_iff.1 hlen
    rw [noUnaryCycle_branch_singleton, chain_branch_singleton, List.tail_cons,
      List.forall_mem_singleton]
    constructor
    · intro h
      obtain ⟨⟨ha, hc⟩, habove⟩ := h
      refine ⟨hc, ?_⟩
      intro c' hc' b hb hmem
      obtain rfl := List.singleton_inj.1 hc'
      rcases List.mem_cons.1 hmem with rfl | hmem
      · exact ha hb
      · exact habove b hb hmem
    · intro h
      obtain ⟨hc, hfresh⟩ := h
      have hfresh := hfresh c rfl
      have ha : a ∉ c.chain := fun ha => hfresh a ha List.mem_cons_self
      exact ⟨⟨ha, hc⟩, fun b hb hmem => hfresh b hb (List.mem_cons_of_mem _ hmem)⟩
  · rw [noUnaryCycle_branch_of_length_ne_one hlen, chain_branch_of_length_ne_one hlen]
    constructor
    · intro h
      refine ⟨h.1, ?_⟩
      intro c hc
      rw [hc] at hlen
      exact absurd rfl hlen
    · intro h
      exact ⟨h.1, fun b hb => absurd hb List.not_mem_nil⟩

-- ---------------------------------------------------------------------------
-- What stands on the topmost chain
-- ---------------------------------------------------------------------------

/-- Each kind on the topmost chain labels a subtree that has all the words of the
tree. -/
theorem exists_subtree_of_mem_chain {t : Tree} {b : String} (h : b ∈ t.chain) :
    ∃ u ∈ t.subtrees, u.label = .nonterminal b ∧ u.leaves = t.leaves := by
  induction t with
  | node l cs ih =>
    match l with
    | .terminal w => simp at h
    | .nonterminal a =>
      rw [← branch, chain_branch] at h
      rcases List.mem_cons.1 h with rfl | h
      · exact ⟨_, self_mem_subtrees _, rfl, rfl⟩
      · by_cases hlen : cs.length = 1
        · obtain ⟨c, rfl⟩ := List.length_eq_one_iff.1 hlen
          rw [chain_branch_singleton, List.tail_cons] at h
          obtain ⟨u, hu, hlabel, hleaves⟩ := ih c List.mem_cons_self h
          refine ⟨u, mem_subtrees_node.2 (Or.inr ⟨c, List.mem_cons_self, hu⟩), hlabel, ?_⟩
          rw [hleaves, ← branch, leaves_branch, List.flatMap_singleton]
        · rw [chain_branch_of_length_ne_one hlen] at h
          simp at h

end Tree

end Constituency
