import Constituency.Grammar.UnaryClosure

/-!
# What the unary closure contains

The closure of some phrase kinds under the unary rules is computed by visiting:
each kind visited reports its parents, and those not yet known join the agenda.
What the visit is *for* can be said without an agenda: a kind is raised from the
kinds found when it is one of them, or when a unary rule makes it of a kind that
is raised. `mem_unaryClosure_iff` says that the visit lists exactly those.

Raising is an inductive notion, so each kind of the closure comes with a finite
climb from a kind that was found. That is what keeps unary rules that run in
circles from supporting one another without any word below them.

The visit also comes to no kind twice. A kind joins the agenda when it is first
heard of, so what is known and no longer on the agenda has had its turn.

## Main results

* `mem_unaryClosure_iff` — the closure holds the kinds that are raised.
* `unaryClosure_nodup`   — the closure holds each kind once.
-/

namespace Constituency

namespace Grammar

/-- The phrase kinds that unary rules make of the kinds in `found`. -/
inductive Raised (g : Grammar) (found : List String) : String → Prop
  | found {a : String} (h : a ∈ found) : Raised g found a
  | unary {b : String} {p : Production} (hb : Raised g found b) (hp : p ∈ g.unaryParents b) :
      Raised g found p.lhs

variable {g : Grammar}

-- ---------------------------------------------------------------------------
-- The visit misses nothing
-- ---------------------------------------------------------------------------

theorem mem_unaryVisits_of_mem_agenda {known agenda : List String} {a : String}
    (h : a ∈ agenda) : a ∈ g.unaryVisits known agenda := by
  fun_induction unaryVisits g known agenda with
  | case1 => exact h
  | case2 known child agenda fresh ih =>
    rcases List.mem_cons.1 h with rfl | h
    · exact List.mem_cons_self
    · exact List.mem_cons_of_mem _ (ih (List.mem_append_left _ h))

/-- The parents of a kind visited are known from the start or visited as well. -/
theorem unaryVisits_closed {known agenda : List String} {b : String} {p : Production}
    (hb : b ∈ g.unaryVisits known agenda) (hp : p ∈ g.unaryParents b) :
    p.lhs ∈ known ∨ p.lhs ∈ g.unaryVisits known agenda := by
  fun_induction unaryVisits g known agenda with
  | case1 => exact absurd hb List.not_mem_nil
  | case2 known child agenda fresh ih =>
    -- a fresh parent joins the agenda, so it is visited later on
    have hfresh : p.lhs ∈ fresh → p.lhs ∈ child :: g.unaryVisits (known ++ fresh) (agenda ++ fresh) :=
      fun h => List.mem_cons_of_mem _ (mem_unaryVisits_of_mem_agenda (List.mem_append_right _ h))
    rcases List.mem_cons.1 hb with rfl | hb
    · by_cases hknown : p.lhs ∈ known
      · exact Or.inl hknown
      · exact Or.inr (hfresh (mem_freshParents.2 ⟨⟨p, hp, rfl⟩, hknown⟩))
    · rcases ih hb with h | h
      · rcases List.mem_append.1 h with h | h
        · exact Or.inl h
        · exact Or.inr (hfresh h)
      · exact Or.inr (List.mem_cons_of_mem _ h)

-- ---------------------------------------------------------------------------
-- The visit invents nothing
-- ---------------------------------------------------------------------------

theorem raised_of_mem_unaryVisits {found known agenda : List String}
    (hagenda : ∀ a ∈ agenda, g.Raised found a) {a : String}
    (h : a ∈ g.unaryVisits known agenda) : g.Raised found a := by
  fun_induction unaryVisits g known agenda with
  | case1 => exact absurd h List.not_mem_nil
  | case2 known child agenda fresh ih =>
    have hchild : g.Raised found child := hagenda child List.mem_cons_self
    rcases List.mem_cons.1 h with rfl | h
    · exact hchild
    · refine ih (fun b hb => ?_) h
      rcases List.mem_append.1 hb with hb | hb
      · exact hagenda b (List.mem_cons_of_mem _ hb)
      · obtain ⟨⟨p, hp, rfl⟩, -⟩ := mem_freshParents.1 hb
        exact .unary hchild hp

/-- The closure holds exactly the phrase kinds that are raised from those found. -/
theorem mem_unaryClosure_iff {found : List String} {a : String} :
    a ∈ g.unaryClosure found ↔ g.Raised found a := by
  constructor
  · exact raised_of_mem_unaryVisits fun _ => .found
  · intro h
    induction h with
    | found h => exact mem_unaryVisits_of_mem_agenda h
    | unary _ hp ih =>
      rcases unaryVisits_closed ih hp with h | h
      · exact mem_unaryVisits_of_mem_agenda h
      · exact h

-- ---------------------------------------------------------------------------
-- The visit comes to each kind once
-- ---------------------------------------------------------------------------

theorem mem_agenda_of_mem_unaryVisits {known agenda : List String} {a : String} (ha : a ∈ known)
    (h : a ∈ g.unaryVisits known agenda) : a ∈ agenda := by
  fun_induction unaryVisits g known agenda with
  | case1 => exact h
  | case2 known child agenda fresh ih =>
    rcases List.mem_cons.1 h with rfl | h
    · exact List.mem_cons_self
    · rcases List.mem_append.1 (ih (List.mem_append_left _ ha) h) with h | h
      · exact List.mem_cons_of_mem _ h
      · exact absurd ha (mem_freshParents.1 h).2

theorem unaryVisits_nodup {known agenda : List String} (hagenda : agenda.Nodup)
    (hknown : agenda ⊆ known) : (g.unaryVisits known agenda).Nodup := by
  fun_induction unaryVisits g known agenda with
  | case1 => exact List.nodup_nil
  | case2 known child agenda fresh ih =>
    obtain ⟨hchild, hagenda⟩ := List.nodup_cons.1 hagenda
    obtain ⟨hknown_child, hknown⟩ := List.cons_subset.1 hknown
    have hfresh : ∀ a ∈ fresh, a ∉ known := fun a ha => (mem_freshParents.1 ha).2
    have hnodup : (agenda ++ fresh).Nodup := by
      refine List.nodup_append.2 ⟨hagenda, g.freshParents_nodup known child, ?_⟩
      rintro a ha _ hfr rfl
      exact hfresh a hfr (hknown ha)
    have hsub : agenda ++ fresh ⊆ known ++ fresh :=
      List.append_subset.2 ⟨List.subset_append_of_subset_left _ hknown,
        List.subset_append_right _ _⟩
    refine List.nodup_cons.2 ⟨fun hmem => ?_, ih hnodup hsub⟩
    -- the kind just visited is known, so it would have to be on the agenda again
    rcases List.mem_append.1 (mem_agenda_of_mem_unaryVisits
      (List.mem_append_left _ hknown_child) hmem) with h | h
    · exact hchild h
    · exact hfresh child h hknown_child

/-- The closure holds each kind once. -/
theorem unaryClosure_nodup {found : List String} (h : found.Nodup) :
    (g.unaryClosure found).Nodup :=
  unaryVisits_nodup h (List.Subset.refl found)

end Grammar

end Constituency
