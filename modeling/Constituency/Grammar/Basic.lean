import Constituency.Grammar.Defect
import Constituency.Grammar.RuleTable

/-!
# Grammars

A grammar is a rule table with a start symbol in which every use is covered by a
definition and every rule consumes something. These conditions are part of the
type: whoever holds a `Grammar` need not check them again.

## Main declarations

* `Grammar`                — the type.
* `Grammar.ofProductions`  — the grammar of a list of productions, or every
  defect of the list.
* `mem_productions_of_ofProductions` — building a grammar neither loses nor
  invents a production.
-/

namespace Constituency

/-- A context-free grammar without empty right-hand sides and without undefined
nonterminals. -/
structure Grammar where
  /-- The phrase kind of whole sentences. -/
  start : String
  rules : RuleTable
  start_mem : start ∈ rules.names
  /-- Every rule consumes at least one symbol. -/
  rhs_ne_nil : ∀ p ∈ rules.productions, p.rhs ≠ []
  /-- Every nonterminal in use has a rule. -/
  closed : ∀ p ∈ rules.productions, ∀ b, Symbol.nonterminal b ∈ p.rhs → b ∈ rules.names
deriving DecidableEq

namespace Grammar

/-- The phrase kinds, in the order of first definition. -/
def nonterminals (g : Grammar) : List String :=
  g.rules.names

/-- The rules for the phrase kind `a`, in the order they were given; none if `a`
is not defined. -/
def rulesFor (g : Grammar) (a : String) : List Production :=
  g.rules.rulesFor a

/-- Every production, grouped by left-hand side in definition order. -/
def productions (g : Grammar) : List Production :=
  g.rules.productions

/-- The number of productions. -/
def size (g : Grammar) : Nat :=
  g.rules.size

/-- The rules `A -> child`, in production order. -/
def unaryParents (g : Grammar) (child : String) : List Production :=
  g.productions.filter fun p => p.unaryChild? = some child

/-- The grammar with the productions `ps` and the start symbol `start`, or every
defect that stands in its way. Alternatives keep the order they are given in, and
a repeated production counts once. -/
def ofProductions (start : String) (ps : List Production) : Except (List Defect) Grammar :=
  if h : defects start ps = [] then
    .ok {
      start
      rules := .ofList ps
      start_mem := RuleTable.mem_names_ofList.2 (defects_eq_nil_iff.1 h).2.1
      rhs_ne_nil := fun p hp =>
        ((defects_eq_nil_iff.1 h).2.2 p (RuleTable.mem_productions_ofList.1 hp)).1
      closed := fun p hp b hb => RuleTable.mem_names_ofList.2
        (((defects_eq_nil_iff.1 h).2.2 p (RuleTable.mem_productions_ofList.1 hp)).2 b hb)
    }
  else
    .error ((defects start ps).map (·.2))

/-- The start symbol of productions that name none: the first left-hand side.
Without productions it is the empty name, and what is reported then is that
there are none. -/
def defaultStart (ps : List Production) : String :=
  ((ps.head?).map (·.lhs)).getD ""

/-- The grammar that starts at the first left-hand side. -/
def ofProductionsFromFirst (ps : List Production) : Except (List Defect) Grammar :=
  ofProductions (defaultStart ps) ps

-- ---------------------------------------------------------------------------
-- Views
-- ---------------------------------------------------------------------------

/-- Productions that form a grammar are free of defects, and the grammar is the
start symbol with their rule table. -/
theorem ofProductions_eq_ok_iff {start : String} {ps : List Production} {g : Grammar} :
    ofProductions start ps = .ok g ↔
      defects start ps = [] ∧ g.start = start ∧ g.rules = .ofList ps := by
  unfold ofProductions
  split
  · next h =>
    constructor
    · rintro ⟨rfl⟩
      exact ⟨h, rfl, rfl⟩
    · rintro ⟨_, rfl, hr⟩
      cases g
      simp_all
  · next h => simp [h]

/-- Building a grammar neither loses nor invents a production. -/
theorem mem_productions_of_ofProductions {start : String} {ps : List Production} {g : Grammar}
    (h : ofProductions start ps = .ok g) {p : Production} : p ∈ g.productions ↔ p ∈ ps := by
  obtain ⟨_, _, hr⟩ := ofProductions_eq_ok_iff.1 h
  rw [productions, hr, RuleTable.mem_productions_ofList]

/-- The left-hand side of a production is a phrase kind of the grammar. -/
theorem lhs_mem_nonterminals {g : Grammar} {p : Production} (h : p ∈ g.productions) :
    p.lhs ∈ g.nonterminals := by
  obtain ⟨e, he, hp⟩ := List.mem_flatMap.1 h
  exact List.mem_map.2 ⟨e, he, (Entry.lhs_of_mem_productions hp).symm⟩

theorem mem_unaryParents {g : Grammar} {child : String} {p : Production} :
    p ∈ g.unaryParents child ↔ p ∈ g.productions ∧ p.rhs = [.nonterminal child] := by
  simp [unaryParents, Production.unaryChild?_eq_some]

end Grammar

end Constituency
