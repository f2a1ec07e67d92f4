import Constituency.Proofs.Tree.Preorder
import Constituency.Tree.Chunk

/-!
# Chunks are the smallest phrases

Chunks are collected from the leaves upwards, by a rule that looks at what was found
below. What is found can be said without the rule: walk the tree in pre-order and keep
the phrases of the kind that hold no other phrase of the kind. Keeping these and
collecting those is the same, because below a phrase of the kind there is always a
smallest one. So a node with nothing found below it has no phrase of the kind there, and
a node with something found below it is none of the smallest.

Collecting visits a node after its children and the walk before them. That makes no
difference to the order, as of a node and what stands below it only one side is kept.

All this is about occurrences, which have a place. An occurrence lies inside another
when its address goes on from the address of the other.

## Main declarations

* `Tree.descend`, `Tree.occurrences` — the tree at an address; all of them, in order.
* `Tree.IsSmallest`           — the phrase holds no other of its kind.
* `chunksAt_eq_filter`        — what is collected is what is kept.
* `chunks_eq_filter_subtrees` — the same, with what follows for nested phrases.
-/

namespace Constituency

namespace Tree

-- ---------------------------------------------------------------------------
-- Occurrences
-- ---------------------------------------------------------------------------

/-- The tree that is reached along an address, if the address stays within the tree. -/
def descend (t : Tree) : List Nat → Option Tree
  | [] => some t
  | i :: address => (t.children[i]?).bind fun c => c.descend address

mutual
/-- The occurrences of all subtrees of a tree at an address, in pre-order. -/
def occurrencesAt (address : List Nat) : Tree → List Occurrence
  | .node l cs => ⟨address, node l cs⟩ :: occurrencesBelow address 0 cs
/-- The same for the children, from the `i`-th on, of a node at an address. -/
def occurrencesBelow (address : List Nat) (i : Nat) : List Tree → List Occurrence
  | [] => []
  | t :: ts => occurrencesAt (address ++ [i]) t ++ occurrencesBelow address (i + 1) ts
end

/-- The occurrences of all subtrees, in pre-order. -/
def occurrences (t : Tree) : List Occurrence :=
  occurrencesAt [] t

theorem descend_append (t : Tree) (address rest : List Nat) :
    t.descend (address ++ rest) = (t.descend address).bind fun u => u.descend rest := by
  induction address generalizing t with
  | nil => rfl
  | cons i address ih => simp [descend, ih, Option.bind_assoc]

mutual
theorem map_tree_occurrencesAt (address : List Nat) (t : Tree) :
    (occurrencesAt address t).map Occurrence.tree = t.subtrees := by
  match t with
  | .node l cs => rw [occurrencesAt, List.map_cons, map_tree_occurrencesBelow, subtrees_node]
theorem map_tree_occurrencesBelow (address : List Nat) (i : Nat) (ts : List Tree) :
    (occurrencesBelow address i ts).map Occurrence.tree = ts.flatMap subtrees := by
  match ts with
  | [] => rfl
  | t :: ts =>
    rw [occurrencesBelow, List.map_append, map_tree_occurrencesAt, map_tree_occurrencesBelow,
      List.flatMap_cons]
end

mutual
theorem mem_occurrencesAt {address : List Nat} {t : Tree} {o : Occurrence} :
    o ∈ occurrencesAt address t ↔
      ∃ rest, o.address = address ++ rest ∧ t.descend rest = some o.tree := by
  match t with
  | .node l cs =>
    rw [occurrencesAt, List.mem_cons, mem_occurrencesBelow]
    constructor
    · rintro (rfl | ⟨k, rest, haddress, hrest⟩)
      · exact ⟨[], (List.append_nil _).symm, rfl⟩
      · exact ⟨k :: rest, by simpa using haddress, hrest⟩
    · rintro ⟨rest, haddress, hrest⟩
      cases rest with
      | nil =>
        obtain ⟨address', tree⟩ := o
        obtain rfl : address' = address := by simpa using haddress
        obtain rfl := Option.some.inj hrest
        exact Or.inl rfl
      | cons k rest => exact Or.inr ⟨k, rest, by simpa using haddress, hrest⟩
theorem mem_occurrencesBelow {address : List Nat} {i : Nat} {ts : List Tree} {o : Occurrence} :
    o ∈ occurrencesBelow address i ts ↔
      ∃ k rest, o.address = address ++ (i + k) :: rest ∧
        ((ts[k]?).bind fun c => c.descend rest) = some o.tree := by
  match ts with
  | [] => simp [occurrencesBelow]
  | t :: ts =>
    rw [occurrencesBelow, List.mem_append, mem_occurrencesAt, mem_occurrencesBelow]
    constructor
    · rintro (⟨rest, haddress, hrest⟩ | ⟨k, rest, haddress, hrest⟩)
      · exact ⟨0, rest, by simpa using haddress, hrest⟩
      · exact ⟨k + 1, rest, by rw [haddress]; congr 2; omega, hrest⟩
    · rintro ⟨k, rest, haddress, hrest⟩
      cases k with
      | zero => exact Or.inl ⟨rest, by simpa using haddress, hrest⟩
      | succ k => exact Or.inr ⟨k, rest, by rw [haddress]; congr 2; omega, hrest⟩
end

theorem mem_occurrences {t : Tree} {o : Occurrence} :
    o ∈ t.occurrences ↔ t.descend o.address = some o.tree := by
  rw [occurrences, mem_occurrencesAt]
  simp

/-- At one place stands one tree. -/
theorem eq_of_address_eq {t : Tree} {o o' : Occurrence} (ho : o ∈ t.occurrences)
    (ho' : o' ∈ t.occurrences) (h : o.address = o'.address) : o = o' := by
  obtain ⟨address, tree⟩ := o
  obtain ⟨address', tree'⟩ := o'
  obtain rfl : address = address' := h
  have htree : some tree = some tree' := (mem_occurrences.1 ho).symm.trans (mem_occurrences.1 ho')
  rw [Option.some.inj htree]

mutual
theorem occurrencesAt_increasing (address : List Nat) (t : Tree) :
    (occurrencesAt address t).Pairwise fun o o' => o.address < o'.address := by
  match t with
  | .node l cs =>
    rw [occurrencesAt]
    refine .cons (fun o ho => ?_) (occurrencesBelow_increasing address 0 cs)
    obtain ⟨k, rest, haddress, -⟩ := mem_occurrencesBelow.1 ho
    have hlt : address ++ [] < address ++ (0 + k) :: rest := List.append_left_lt (List.nil_lt_cons _ _)
    simpa [haddress] using hlt
theorem occurrencesBelow_increasing (address : List Nat) (i : Nat) (ts : List Tree) :
    (occurrencesBelow address i ts).Pairwise fun o o' => o.address < o'.address := by
  match ts with
  | [] => exact .nil
  | t :: ts =>
    rw [occurrencesBelow, List.pairwise_append]
    refine ⟨occurrencesAt_increasing _ t, occurrencesBelow_increasing _ _ ts, ?_⟩
    intro o ho o' ho'
    obtain ⟨rest, haddress, -⟩ := mem_occurrencesAt.1 ho
    obtain ⟨k, rest', haddress', -⟩ := mem_occurrencesBelow.1 ho'
    rw [haddress, haddress', List.append_assoc]
    exact List.append_left_lt (List.cons_lt_cons_iff.2 (Or.inl (by omega)))
end

-- ---------------------------------------------------------------------------
-- The smallest phrases
-- ---------------------------------------------------------------------------

/-- The tree is a phrase of the kind `name` and holds no other one. -/
def IsSmallest (name : String) (t : Tree) : Prop :=
  t.hasLabel name = true ∧ ∀ u ∈ t.children.flatMap subtrees, u.hasLabel name = false

instance (name : String) : DecidablePred (IsSmallest name) := fun _ =>
  inferInstanceAs (Decidable (_ ∧ _))

/-- Where there is a phrase of the kind there is a smallest one. -/
theorem exists_isSmallest {name : String} {t u : Tree} (hu : u ∈ t.subtrees)
    (hlabel : u.hasLabel name = true) : ∃ v ∈ t.subtrees, v.IsSmallest name := by
  induction t generalizing u with
  | node l cs ih =>
    by_cases hbelow : ∃ c ∈ cs, ∃ u ∈ c.subtrees, u.hasLabel name = true
    · obtain ⟨c, hc, u, hu, hlabel⟩ := hbelow
      obtain ⟨v, hv, hsmallest⟩ := ih c hc hu hlabel
      exact ⟨v, mem_subtrees_node.2 (Or.inr ⟨c, hc, hv⟩), hsmallest⟩
    · rcases mem_subtrees_node.1 hu with rfl | ⟨c, hc, hu⟩
      · refine ⟨_, self_mem_subtrees _, hlabel, fun v hv => Bool.eq_false_iff.2 fun hv' => ?_⟩
        obtain ⟨c, hc, hv⟩ := List.mem_flatMap.1 hv
        exact hbelow ⟨c, hc, v, hv, hv'⟩
      · exact absurd ⟨c, hc, u, hu, hlabel⟩ hbelow

theorem filter_occurrencesBelow_eq_nil_iff {name : String} {address : List Nat} {i : Nat}
    {ts : List Tree} :
    (occurrencesBelow address i ts).filter (·.tree.IsSmallest name) = [] ↔
      ∀ u ∈ ts.flatMap subtrees, u.hasLabel name = false := by
  rw [List.filter_eq_nil_iff, ← map_tree_occurrencesBelow address i ts, List.forall_mem_map]
  constructor
  · intro h o ho
    refine Bool.eq_false_iff.2 fun hlabel => ?_
    have hmem : o.tree ∈ ts.flatMap subtrees := by
      rw [← map_tree_occurrencesBelow address i ts]
      exact List.mem_map_of_mem ho
    obtain ⟨t, ht, hsub⟩ := List.mem_flatMap.1 hmem
    obtain ⟨v, hv, hsmallest⟩ := exists_isSmallest hsub hlabel
    have hv : v ∈ (occurrencesBelow address i ts).map Occurrence.tree := by
      rw [map_tree_occurrencesBelow]
      exact List.mem_flatMap.2 ⟨t, ht, hv⟩
    obtain ⟨o', ho', rfl⟩ := List.mem_map.1 hv
    exact h o' ho' (decide_eq_true hsmallest)
  · intro h o ho hsmallest
    have hlabel := (of_decide_eq_true hsmallest).1
    rw [h o ho] at hlabel
    cases hlabel

mutual
/-- The phrases that are collected are the smallest ones. -/
theorem chunksAt_eq_filter (name : String) (address : List Nat) (t : Tree) :
    chunksAt name address t = (occurrencesAt address t).filter (·.tree.IsSmallest name) := by
  match t with
  | .node l cs =>
    rw [chunksAt, chunksBelow_eq_filter, occurrencesAt, List.filter_cons]
    by_cases hnone : ∀ u ∈ cs.flatMap subtrees, u.hasLabel name = false
    · -- nothing below has the label, so the label decides
      have hroot : (node l cs).IsSmallest name ↔ (node l cs).hasLabel name = true :=
        ⟨fun h => h.1, fun h => ⟨h, hnone⟩⟩
      rw [filter_occurrencesBelow_eq_nil_iff.2 hnone]
      simp [hroot]
    · -- the node is not one of the smallest, and by `hfound` the first case is ruled out
      have hroot : ¬(node l cs).IsSmallest name := fun h => hnone h.2
      have hfound : (occurrencesBelow address 0 cs).filter (·.tree.IsSmallest name) ≠ [] :=
        fun hnil => hnone (filter_occurrencesBelow_eq_nil_iff.1 hnil)
      simp only [hroot, decide_false, Bool.false_eq_true, if_false]
theorem chunksBelow_eq_filter (name : String) (address : List Nat) (i : Nat) (ts : List Tree) :
    chunksBelow name address i ts =
      (occurrencesBelow address i ts).filter (·.tree.IsSmallest name) := by
  match ts with
  | [] => rfl
  | t :: ts =>
    rw [chunksBelow, occurrencesBelow, List.filter_append, chunksAt_eq_filter,
      chunksBelow_eq_filter]
end

theorem mem_chunksAt {name : String} {t : Tree} {o : Occurrence} :
    o ∈ chunksAt name [] t ↔ o ∈ t.occurrences ∧ o.tree.IsSmallest name := by
  rw [chunksAt_eq_filter, List.mem_filter, decide_eq_true_iff, occurrences]

theorem mem_chunks {name : String} {t u : Tree} :
    u ∈ t.chunks name ↔ u ∈ t.subtrees ∧ u.IsSmallest name := by
  rw [chunks, chunksAt_eq_filter, ← map_tree_occurrencesAt [] t, List.mem_map, List.mem_map]
  constructor
  · rintro ⟨o, ho, rfl⟩
    obtain ⟨ho, hsmallest⟩ := List.mem_filter.1 ho
    exact ⟨⟨o, ho, rfl⟩, of_decide_eq_true hsmallest⟩
  · rintro ⟨⟨o, ho, rfl⟩, hsmallest⟩
    exact ⟨o, List.mem_filter.2 ⟨ho, decide_eq_true hsmallest⟩, rfl⟩

-- ---------------------------------------------------------------------------
-- Phrases inside phrases
-- ---------------------------------------------------------------------------

/-- A tree at an address other than the root's stands below a child. -/
theorem mem_flatMap_subtrees_of_descend {t u : Tree} {i : Nat} {address : List Nat}
    (h : t.descend (i :: address) = some u) : u ∈ t.children.flatMap subtrees := by
  obtain ⟨c, hc, hu⟩ := Option.bind_eq_some_iff.1 h
  have hmem : (⟨address, u⟩ : Occurrence) ∈ c.occurrences := mem_occurrences.2 hu
  refine List.mem_flatMap.2 ⟨c, List.mem_of_getElem? hc, ?_⟩
  rw [← map_tree_occurrencesAt []]
  exact List.mem_map_of_mem hmem

/-- No chunk holds another. -/
theorem eq_of_mem_chunksAt_of_prefix {name : String} {t : Tree} {o o' : Occurrence}
    (ho : o ∈ chunksAt name [] t) (ho' : o' ∈ chunksAt name [] t)
    (hinside : o.address <+: o'.address) : o = o' := by
  obtain ⟨hmem, hsmallest⟩ := mem_chunksAt.1 ho
  obtain ⟨hmem', hsmallest'⟩ := mem_chunksAt.1 ho'
  obtain ⟨rest, hrest⟩ := hinside
  cases rest with
  | nil => exact eq_of_address_eq hmem hmem' (by simpa using hrest)
  | cons i rest =>
    -- the inner one would be a phrase of the kind below the outer one
    have hat := mem_occurrences.1 hmem'
    rw [← hrest, descend_append, mem_occurrences.1 hmem] at hat
    have hfalse := hsmallest.2 o'.tree (mem_flatMap_subtrees_of_descend hat)
    rw [hsmallest'.1] at hfalse
    cases hfalse

/-- Every phrase of the kind holds a chunk or is one. -/
theorem exists_chunk_inside {name : String} {t : Tree} {o : Occurrence} (ho : o ∈ t.occurrences)
    (hlabel : o.tree.hasLabel name = true) :
    ∃ o' ∈ chunksAt name [] t, o.address <+: o'.address := by
  obtain ⟨v, hv, hsmallest⟩ := exists_isSmallest (self_mem_subtrees o.tree) hlabel
  rw [← map_tree_occurrencesAt []] at hv
  obtain ⟨inner, hinner, rfl⟩ := List.mem_map.1 hv
  refine ⟨⟨o.address ++ inner.address, inner.tree⟩, mem_chunksAt.2 ⟨?_, hsmallest⟩, ⟨_, rfl⟩⟩
  rw [mem_occurrences, descend_append, mem_occurrences.1 ho]
  exact mem_occurrences.1 hinner

/-- The chunks are the smallest phrases of their kind, in the order of the walk. They are
occurrences, each at a place of its own; no chunk lies inside another, and a phrase of the
kind that is no chunk has a chunk inside it. -/
theorem chunks_eq_filter_subtrees (name : String) (t : Tree) :
    t.chunks name = t.subtrees.filter (·.IsSmallest name) ∧
    t.chunks name = (chunksAt name [] t).map Occurrence.tree ∧
    t.subtrees = t.occurrences.map Occurrence.tree ∧
    (∀ o, o ∈ t.occurrences ↔ t.descend o.address = some o.tree) ∧
    t.occurrences.Pairwise (fun o o' => o.address < o'.address) ∧
    chunksAt name [] t = t.occurrences.filter (·.tree.IsSmallest name) ∧
    (∀ o ∈ chunksAt name [] t, ∀ o' ∈ chunksAt name [] t, o.address <+: o'.address → o = o') ∧
    ∀ o ∈ t.occurrences, o.tree.hasLabel name = true → o ∉ chunksAt name [] t →
      ∃ o' ∈ chunksAt name [] t, o.address <+: o'.address ∧ o.address ≠ o'.address := by
  have hsubtrees : t.subtrees = t.occurrences.map Occurrence.tree :=
    (map_tree_occurrencesAt [] t).symm
  have hfilter : chunksAt name [] t = t.occurrences.filter (·.tree.IsSmallest name) :=
    chunksAt_eq_filter name [] t
  refine ⟨?_, rfl, hsubtrees, fun _ => mem_occurrences, occurrencesAt_increasing [] t, hfilter,
    fun o ho o' ho' => eq_of_mem_chunksAt_of_prefix ho ho', fun o ho hlabel hno => ?_⟩
  · rw [chunks, hfilter, hsubtrees, List.filter_map]
    rfl
  · obtain ⟨o', ho', hinside⟩ := exists_chunk_inside ho hlabel
    refine ⟨o', ho', hinside, fun heq => hno ?_⟩
    rw [eq_of_address_eq ho (mem_chunksAt.1 ho').1 heq]
    exact ho'

end Tree

end Constituency
