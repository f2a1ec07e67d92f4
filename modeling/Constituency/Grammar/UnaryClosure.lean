import Constituency.Distinct
import Constituency.Grammar.Basic

/-!
# Closing phrase kinds under unary rules

A phrase of the kind `B` is also a phrase of the kind `A` when there is a rule
`A -> B`, and the two cover the same words. So the phrase kinds found over a span
have to be closed under the unary rules. The closure is a breadth-first visit: a
kind that is visited reports the kinds its unary rules lead to, and those not yet
known join the end of the agenda. Every kind enters the agenda once, so the visit
ends even if the unary rules run in circles.

## Main declarations

* `Grammar.unaryVisits`  — the visit, as the list of the kinds visited in turn.
* `Grammar.unaryClosure` — the visit that starts from the kinds found.
-/

namespace Constituency

namespace Grammar

/-- The phrase kinds that the unary rules lead to from `child`, those in `known`
apart, each once and in rule order. -/
def freshParents (g : Grammar) (known : List String) (child : String) : List String :=
  (((g.unaryParents child).map (·.lhs)).removeAll known).eraseDups

theorem mem_freshParents {g : Grammar} {known : List String} {child a : String} :
    a ∈ g.freshParents known child ↔ (∃ p ∈ g.unaryParents child, p.lhs = a) ∧ a ∉ known := by
  simp [freshParents, List.removeAll]

theorem freshParents_nodup (g : Grammar) (known : List String) (child : String) :
    (g.freshParents known child).Nodup :=
  nodup_eraseDups _

/-- A fresh kind is one of the grammar's that is still missing. -/
theorem mem_missing_of_mem_freshParents {g : Grammar} {known : List String} {child a : String}
    (h : a ∈ g.freshParents known child) : a ∈ missing g.nonterminals known := by
  obtain ⟨⟨p, hp, rfl⟩, hnot⟩ := mem_freshParents.1 h
  exact mem_missing.2 ⟨lhs_mem_nonterminals (mem_unaryParents.1 hp).1, hnot⟩

/-- Visits the kinds on the agenda, first come first served; a kind that is not
`known` joins the agenda when a unary rule leads to it. The answer lists the
kinds in the order in which they are visited. Each visit takes one kind off the
agenda, and what it adds is missing no longer. -/
def unaryVisits (g : Grammar) (known : List String) : List String → List String
  | [] => []
  | child :: agenda =>
    let fresh := g.freshParents known child
    child :: g.unaryVisits (known ++ fresh) (agenda ++ fresh)
termination_by agenda => (missing g.nonterminals known).length + agenda.length
decreasing_by
  have := missing_append_add_length_le (g.freshParents_nodup known child) fun _ h =>
    mem_missing_of_mem_freshParents h
  simp only [List.length_append, List.length_cons]
  omega

/-- The phrase kinds in `found` and all that unary rules lead to from them, in
breadth-first order. -/
def unaryClosure (g : Grammar) (found : List String) : List String :=
  g.unaryVisits found found

end Grammar

end Constituency
