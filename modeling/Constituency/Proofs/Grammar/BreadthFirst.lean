import Constituency.Proofs.Grammar.RuleTable
import Constituency.Proofs.Grammar.UnaryClosure

/-!
# The order of the unary closure

The closure of some phrase kinds starts with the kinds themselves, as they are given.
All further kinds follow in breadth-first order. Each of them is listed behind a child
that a unary rule makes it of. Of all such children on the list, the first one decides
about its place: what has an earlier first child comes earlier, and of the kinds with
the same first child, the one with the earlier rule.

The proof does away with the agenda. The visit goes through the list that it makes, and
what it adds is what the kinds on the list lead to, in turn and without repetitions
(`unaryVisits_eq`). So the order is that of first occurrences in one long row, block by
block, with a block for each kind on the list.

## Main declarations

* `LowestChild`, `ReachedBefore` — what decides about the place of a kind.
* `BreadthFirst`                 — the order of the kinds that are not given.
* `exists_breadthFirst`          — the closure is in this order.
-/

namespace Constituency

namespace Grammar

/-- The phrase kinds that the unary rules lead to from `b`, in rule order. -/
def parentKinds (g : Grammar) (b : String) : List String :=
  (g.unaryParents b).map (·.lhs)

/-- Of the kinds on the list from which a unary rule leads to `a`, `b` is the first. -/
structure LowestChild (g : Grammar) (kinds : List String) (a b : String) : Prop where
  mem    : b ∈ kinds
  rule   : ⟨a, [.nonterminal b]⟩ ∈ g.productions
  lowest : ∀ b' ∈ kinds, ⟨a, [.nonterminal b']⟩ ∈ g.productions → kinds.idxOf b ≤ kinds.idxOf b'

/-- The first child of `a` on the list comes before that of `a'`, or it is the same and
the rule for `a` comes before the rule for `a'`. -/
def ReachedBefore (g : Grammar) (kinds : List String) (a a' : String) : Prop :=
  ∃ b b', g.LowestChild kinds a b ∧ g.LowestChild kinds a' b' ∧
    (kinds.idxOf b < kinds.idxOf b' ∨ b = b' ∧
      g.productions.idxOf ⟨a, [.nonterminal b]⟩ < g.productions.idxOf ⟨a', [.nonterminal b']⟩)

/-- The kinds in `later` follow those in `found` in breadth-first order: each of them
behind its first child, and in the order of these children and then of the rules. -/
structure BreadthFirst (g : Grammar) (found later : List String) : Prop where
  behind  : ∀ a ∈ later, ∃ b, g.LowestChild (found ++ later) a b ∧
    (found ++ later).idxOf b < (found ++ later).idxOf a
  ordered : later.Pairwise (g.ReachedBefore (found ++ later))

variable {g : Grammar} {kinds : List String} {a a' b : String}

theorem mem_parentKinds : a ∈ g.parentKinds b ↔ ⟨a, [.nonterminal b]⟩ ∈ g.productions := by
  rw [parentKinds, List.mem_map]
  constructor
  · rintro ⟨⟨a, rhs⟩, hp, rfl⟩
    obtain ⟨hp, rfl⟩ := mem_unaryParents.1 hp
    exact hp
  · intro h
    exact ⟨_, mem_unaryParents.2 ⟨h, rfl⟩, rfl⟩

/-- The kinds that come of one child are in the order of their rules. -/
theorem parentKinds_increasing (g : Grammar) (b : String) :
    (g.parentKinds b).Pairwise fun a a' =>
      g.productions.idxOf ⟨a, [.nonterminal b]⟩ < g.productions.idxOf ⟨a', [.nonterminal b]⟩ := by
  have hrules : (g.unaryParents b).Pairwise fun p p' =>
      g.productions.idxOf p < g.productions.idxOf p' :=
    (pairwise_idxOf_lt g.productions_nodup).filter _
  rw [parentKinds, List.pairwise_map]
  refine hrules.imp_of_mem fun {p p'} hp hp' hlt => ?_
  obtain ⟨-, hrhs⟩ := mem_unaryParents.1 hp
  obtain ⟨-, hrhs'⟩ := mem_unaryParents.1 hp'
  rw [← hrhs]
  show g.productions.idxOf p < g.productions.idxOf ⟨p'.lhs, p.rhs⟩
  rw [hrhs, ← hrhs']
  exact hlt

-- ---------------------------------------------------------------------------
-- The visit goes through the list that it makes
-- ---------------------------------------------------------------------------

/-- What is visited is the agenda and then all that the visited kinds lead to, in turn,
as far as it was not known and each kind once. -/
theorem unaryVisits_eq (g : Grammar) (known agenda : List String) :
    g.unaryVisits known agenda =
      agenda ++ (((g.unaryVisits known agenda).flatMap g.parentKinds).removeAll known).eraseDups := by
  fun_induction unaryVisits g known agenda with
  | case1 => rfl
  | case2 known child agenda fresh ih =>
    -- what is fresh after one visit is removed from what the others lead to
    have hfresh (later : List String) :
        (((g.parentKinds child ++ later).removeAll known).eraseDups) =
          fresh ++ (later.removeAll (known ++ fresh)).eraseDups := by
      have hremove : (g.parentKinds child ++ later).removeAll known =
          (g.parentKinds child).removeAll known ++ later.removeAll known := List.filter_append ..
      rw [hremove, List.eraseDups_append, removeAll_removeAll]
      refine congrArg (fresh ++ ·.eraseDups) (removeAll_congr fun a => ?_)
      rw [List.mem_append, List.mem_append]
      exact or_congr_right List.mem_eraseDups.symm
    rw [List.flatMap_cons, hfresh, List.cons_append, ← List.append_assoc, ← ih]

/-- A kind that joins the agenda is listed behind the child that it comes of. -/
theorem exists_child_before {known agenda : List String}
    (ha : a ∈ g.unaryVisits known agenda) (hagenda : a ∉ agenda) :
    ∃ b, ⟨a, [.nonterminal b]⟩ ∈ g.productions ∧
      (g.unaryVisits known agenda).idxOf b < (g.unaryVisits known agenda).idxOf a := by
  fun_induction unaryVisits g known agenda with
  | case1 => exact absurd ha List.not_mem_nil
  | case2 known child agenda fresh ih =>
    rw [List.mem_cons, not_or] at hagenda
    obtain ⟨hne, hagenda⟩ := hagenda
    have ha := (List.mem_cons.1 ha).resolve_left hne
    rw [List.idxOf_cons_ne _ (Ne.symm hne)]
    by_cases hfresh : a ∈ fresh
    · obtain ⟨⟨p, hp, hlhs⟩, -⟩ := mem_freshParents.1 hfresh
      refine ⟨child, mem_parentKinds.1 (List.mem_map.2 ⟨p, hp, hlhs⟩), ?_⟩
      rw [List.idxOf_cons_self]
      exact Nat.succ_pos _
    · obtain ⟨b, hrule, hlt⟩ := ih ha fun h => (List.mem_append.1 h).elim hagenda hfresh
      refine ⟨b, hrule, ?_⟩
      by_cases hb : child = b
      · rw [hb, List.idxOf_cons_self]
        exact Nat.succ_pos _
      · rw [List.idxOf_cons_ne _ hb]
        exact Nat.succ_lt_succ hlt

-- ---------------------------------------------------------------------------
-- The first child on a list
-- ---------------------------------------------------------------------------

theorem lowestChild_cons_self (h : ⟨a, [.nonterminal b]⟩ ∈ g.productions) :
    g.LowestChild (b :: kinds) a b := by
  refine ⟨List.mem_cons_self, h, fun b' _ _ => ?_⟩
  rw [List.idxOf_cons_self]
  exact Nat.zero_le _

/-- A kind in front that is no child leaves the first child where it is. -/
theorem LowestChild.cons {child : String} (h : g.LowestChild kinds a b)
    (hchild : a ∉ g.parentKinds child) : g.LowestChild (child :: kinds) a b := by
  have hne {b' : String} (hrule : ⟨a, [.nonterminal b']⟩ ∈ g.productions) : child ≠ b' := by
    rintro rfl
    exact hchild (mem_parentKinds.2 hrule)
  refine ⟨List.mem_cons_of_mem _ h.mem, h.rule, fun b' hb' hrule => ?_⟩
  have hb' := (List.mem_cons.1 hb').resolve_left (hne hrule).symm
  rw [List.idxOf_cons_ne _ (hne h.rule), List.idxOf_cons_ne _ (hne hrule)]
  exact Nat.succ_le_succ (h.lowest b' hb' hrule)

theorem exists_lowestChild (hb : b ∈ kinds) (h : ⟨a, [.nonterminal b]⟩ ∈ g.productions) :
    ∃ b', g.LowestChild kinds a b' := by
  induction kinds with
  | nil => exact absurd hb List.not_mem_nil
  | cons child kinds ih =>
    by_cases hchild : a ∈ g.parentKinds child
    · exact ⟨child, lowestChild_cons_self (mem_parentKinds.1 hchild)⟩
    · have hne : b ≠ child := by
        rintro rfl
        exact hchild (mem_parentKinds.2 h)
      obtain ⟨b', hb'⟩ := ih ((List.mem_cons.1 hb).resolve_left hne)
      exact ⟨b', hb'.cons hchild⟩

theorem ReachedBefore.cons {child : String} (h : g.ReachedBefore kinds a a')
    (ha : a ∉ g.parentKinds child) (ha' : a' ∉ g.parentKinds child) :
    g.ReachedBefore (child :: kinds) a a' := by
  obtain ⟨b, b', hb, hb', hlt⟩ := h
  refine ⟨b, b', hb.cons ha, hb'.cons ha', hlt.imp_left fun hlt => ?_⟩
  have hne : child ≠ b := fun heq => ha (mem_parentKinds.2 (heq ▸ hb.rule))
  have hne' : child ≠ b' := fun heq => ha' (mem_parentKinds.2 (heq ▸ hb'.rule))
  rw [List.idxOf_cons_ne _ hne, List.idxOf_cons_ne _ hne']
  exact Nat.succ_lt_succ hlt

/-- What the kinds on a list lead to is reached in the order of first occurrence. -/
theorem pairwise_reachedBefore (kinds known : List String) :
    (((kinds.flatMap g.parentKinds).removeAll known).eraseDups).Pairwise
      (g.ReachedBefore kinds) := by
  induction kinds generalizing known with
  | nil => exact .nil
  | cons child kinds ih =>
    have hremove : ((child :: kinds).flatMap g.parentKinds).removeAll known =
        (g.parentKinds child).removeAll known ++ (kinds.flatMap g.parentKinds).removeAll known := by
      rw [List.flatMap_cons]
      exact List.filter_append ..
    have hsub {a : String} (h : a ∈ ((g.parentKinds child).removeAll known).eraseDups) :
        a ∈ g.parentKinds child := (List.mem_filter.1 (List.mem_eraseDups.1 h)).1
    -- what comes of a later kind does not come of the first one
    have hrest {a : String} (h : a ∈ (((kinds.flatMap g.parentKinds).removeAll known).removeAll
        ((g.parentKinds child).removeAll known)).eraseDups) :
        a ∉ g.parentKinds child ∧ ∃ b ∈ kinds, ⟨a, [.nonterminal b]⟩ ∈ g.productions := by
      obtain ⟨hmem, hnot⟩ := List.mem_filter.1 (List.mem_eraseDups.1 h)
      obtain ⟨hmem, hknown⟩ := List.mem_filter.1 hmem
      obtain ⟨b, hb, hab⟩ := List.mem_flatMap.1 hmem
      refine ⟨fun hchild => ?_, b, hb, mem_parentKinds.1 hab⟩
      have hremoved : a ∈ (g.parentKinds child).removeAll known := List.mem_filter.2 ⟨hchild, hknown⟩
      simp [hremoved] at hnot
    rw [hremove, List.eraseDups_append]
    refine List.pairwise_append.2 ⟨?_, ?_, fun a ha a' ha' => ?_⟩
    · -- the same child: the rules decide
      have hincreasing := (g.parentKinds_increasing child).filter fun a => !known.elem a
      have hnodup : ((g.parentKinds child).removeAll known).Nodup := by
        refine List.Pairwise.imp (fun {a a'} hlt heq => ?_) hincreasing
        rw [heq] at hlt
        exact Nat.lt_irrefl _ hlt
      rw [eraseDups_eq_self hnodup]
      refine hincreasing.imp_of_mem fun {a a'} ha ha' hlt => ?_
      have hrule := mem_parentKinds.1 (List.mem_filter.1 ha).1
      have hrule' := mem_parentKinds.1 (List.mem_filter.1 ha').1
      exact ⟨child, child, lowestChild_cons_self hrule, lowestChild_cons_self hrule',
        Or.inr ⟨rfl, hlt⟩⟩
    · have hlater := ih (known ++ (g.parentKinds child).removeAll known)
      rw [← removeAll_removeAll] at hlater
      exact hlater.imp_of_mem fun ha ha' hbefore => hbefore.cons (hrest ha).1 (hrest ha').1
    · obtain ⟨hnot, b, hb, hrule⟩ := hrest ha'
      obtain ⟨b', hb'⟩ := exists_lowestChild hb hrule
      refine ⟨child, b', lowestChild_cons_self (mem_parentKinds.1 (hsub ha)), hb'.cons hnot, ?_⟩
      have hne : child ≠ b' := fun heq => hnot (mem_parentKinds.2 (heq ▸ hb'.rule))
      rw [List.idxOf_cons_self, List.idxOf_cons_ne _ hne]
      exact Or.inl (Nat.succ_pos _)

-- ---------------------------------------------------------------------------
-- The closure
-- ---------------------------------------------------------------------------

/-- The closure lists what is found, and then what is not in breadth-first order. -/
theorem exists_breadthFirst (g : Grammar) (found : List String) :
    ∃ later, g.unaryClosure found = found ++ later ∧ g.BreadthFirst found later := by
  have heq := g.unaryVisits_eq found found
  refine ⟨_, heq, ?_, ?_⟩
  · rw [← heq]
    intro a ha
    obtain ⟨-, hnot⟩ := List.mem_filter.1 (List.mem_eraseDups.1 ha)
    have hmem : a ∈ g.unaryVisits found found := by
      rw [heq]
      exact List.mem_append_right _ ha
    obtain ⟨b, hrule, hlt⟩ := exists_child_before hmem (by simpa using hnot)
    have hb : b ∈ g.unaryVisits found found :=
      List.idxOf_lt_length_iff.1 (Nat.lt_trans hlt (List.idxOf_lt_length_iff.2 hmem))
    obtain ⟨b', hb'⟩ := exists_lowestChild hb hrule
    exact ⟨b', hb', Nat.lt_of_le_of_lt (hb'.lowest b hb hrule) hlt⟩
  · rw [← heq]
    exact pairwise_reachedBefore _ _

end Grammar

end Constituency
