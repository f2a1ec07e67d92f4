import Constituency.Proofs.Grammar.Licence
import Mathlib.Data.List.Perm.Subperm

/-!
# How deep a licensed tree can be

On the way down from the root of a licensed tree, a step either stays on a chain of
only children or comes to a phrase with at least two children. In the second case a
word is lost, since each of the other children keeps one. In the first case no word is
lost, but in a tree without unary cycles a chain names each phrase kind at most once.
So between two losses there is room for as many nodes as the grammar has phrase kinds,
and the depth is bounded by the number of the words times that of the phrase kinds.

## Main results

* `Tree.depth`                  — the number of nodes on the longest way down.
* `length_chain_le`             — how long a chain is.
* `depth_le_of_licenses`        — the bound, with what the topmost chain takes of it.
* `depth_le_length_leaves_mul`  — the bound by words and phrase kinds.
-/

namespace Constituency

namespace Tree

mutual
/-- The number of nodes on the longest way from the root to a leaf. -/
def depth : Tree → Nat
  | .node _ cs => depthAll cs + 1
/-- The depth of the deepest of several trees. -/
def depthAll : List Tree → Nat
  | [] => 0
  | t :: ts => max (depth t) (depthAll ts)
end

theorem depthAll_le_iff {ts : List Tree} {m : Nat} : depthAll ts ≤ m ↔ ∀ t ∈ ts, t.depth ≤ m := by
  induction ts with
  | nil => simp [depthAll]
  | cons t ts ih => rw [depthAll, Nat.max_le, ih, List.forall_mem_cons]

theorem depth_node_le_iff {l : Symbol} {cs : List Tree} {m : Nat} :
    (node l cs).depth ≤ m + 1 ↔ ∀ c ∈ cs, c.depth ≤ m := by
  rw [depth, Nat.add_le_add_iff_right, depthAll_le_iff]

/-- With other trees beside it that have words, a tree has fewer words than all
together. -/
theorem length_leaves_lt {cs : List Tree} (hlen : cs.length ≠ 1)
    (hwords : ∀ c ∈ cs, c.leaves ≠ []) {c : Tree} (hc : c ∈ cs) :
    c.leaves.length < (cs.flatMap leaves).length := by
  obtain ⟨front, back, rfl⟩ := List.append_of_mem hc
  have hothers : front ++ back ≠ [] := by
    intro hnil
    obtain ⟨rfl, rfl⟩ := List.append_eq_nil_iff.1 hnil
    exact hlen rfl
  obtain ⟨u, hu⟩ := List.exists_mem_of_ne_nil _ hothers
  have hmem : u ∈ front ++ c :: back := by
    rcases List.mem_append.1 hu with hu | hu
    · exact List.mem_append_left _ hu
    · exact List.mem_append_right _ (List.mem_cons_of_mem _ hu)
  have hpos : 0 < ((front ++ back).flatMap leaves).length := by
    refine List.length_pos_of_ne_nil fun hnil => hwords u hmem ?_
    exact List.flatMap_eq_nil_iff.1 hnil u hu
  rw [List.flatMap_append, List.length_append] at hpos
  rw [List.flatMap_append, List.flatMap_cons, List.length_append, List.length_append]
  omega

end Tree

namespace Grammar

variable {g : Grammar} {t : Tree}

/-- What stands on the topmost chain is a phrase kind of the grammar. -/
theorem mem_nonterminals_of_mem_chain (h : g.licenses t = true) {b : String} (hb : b ∈ t.chain) :
    b ∈ g.nonterminals := by
  obtain ⟨u, hu, hlabel, -⟩ := Tree.exists_subtree_of_mem_chain hb
  obtain ⟨l, cs⟩ := u
  obtain rfl : l = .nonterminal b := hlabel
  exact lhs_mem_nonterminals (licenses_branch_iff.1 (licenses_of_mem_subtrees h hu)).1

theorem length_chain_le (h : g.licenses t = true) (hacyclic : t.NoUnaryCycle) :
    t.chain.length ≤ g.nonterminals.length :=
  (List.subperm_of_subset hacyclic.chain_nodup fun _ => mem_nonterminals_of_mem_chain h).length_le

/-- What the bound with the topmost chain says when that chain is as long as it can be. -/
theorem depth_le_mul_of_depth_le (h : g.licenses t = true) (hacyclic : t.NoUnaryCycle)
    (hdepth : t.depth ≤ (t.leaves.length - 1) * g.nonterminals.length + t.chain.length + 1) :
    t.depth ≤ t.leaves.length * g.nonterminals.length + 1 := by
  have hchain := length_chain_le h hacyclic
  obtain ⟨n, hn⟩ := Nat.exists_eq_add_one.2 (List.length_pos_of_ne_nil (leaves_ne_nil h))
  rw [hn, Nat.add_sub_cancel] at hdepth
  rw [hn, Nat.succ_mul]
  omega

/-- Each word but one makes room for all phrase kinds; the last one, for the topmost
chain and the word itself. -/
theorem depth_le_of_licenses (h : g.licenses t = true) (hacyclic : t.NoUnaryCycle) :
    t.depth ≤ (t.leaves.length - 1) * g.nonterminals.length + t.chain.length + 1 := by
  induction t with
  | node l cs ih =>
    match l with
    | .terminal w =>
      obtain rfl := licenses_terminal_iff.1 h
      exact Nat.le_add_left _ _
    | .nonterminal a =>
      obtain ⟨-, hlicensed⟩ := licenses_branch_iff.1 h
      have hbelow := (Tree.noUnaryCycle_node_iff.1 hacyclic).2
      refine Tree.depth_node_le_iff.2 fun c hc => ?_
      have hc' := ih c hc (hlicensed c hc) (hbelow c hc)
      rw [← Tree.branch, Tree.leaves_branch]
      by_cases hlen : cs.length = 1
      · -- an only child has the same words and the rest of the chain
        obtain ⟨u, rfl⟩ := List.length_eq_one_iff.1 hlen
        obtain rfl := List.mem_singleton.1 hc
        rw [Tree.chain_branch_singleton, List.flatMap_singleton, List.length_cons]
        exact hc'
      · -- one of several children has fewer words and a chain of its own
        have hlt := Tree.length_leaves_lt hlen (fun c hc => leaves_ne_nil (hlicensed c hc)) hc
        have hmul : c.leaves.length * g.nonterminals.length ≤
            ((cs.flatMap Tree.leaves).length - 1) * g.nonterminals.length :=
          Nat.mul_le_mul_right _ (Nat.le_sub_one_of_lt hlt)
        have hroom := depth_le_mul_of_depth_le (hlicensed c hc) (hbelow c hc) hc'
        rw [Tree.chain_branch_of_length_ne_one hlen, List.length_singleton]
        omega

/-- A licensed tree without unary cycles is no deeper than it has words times the
grammar has phrase kinds, and one more. -/
theorem depth_le_length_leaves_mul (h : g.licenses t = true) (hacyclic : t.NoUnaryCycle) :
    t.depth ≤ t.leaves.length * g.nonterminals.length + 1 :=
  depth_le_mul_of_depth_le h hacyclic (depth_le_of_licenses h hacyclic)

end Grammar

end Constituency
