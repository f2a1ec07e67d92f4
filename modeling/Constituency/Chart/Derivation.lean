import Constituency.Production
import Constituency.Chart.Span

/-!
# Derivations

A derivation is one way of building a phrase over a span: the rule that is
applied and, for each symbol on its right-hand side, the place where that symbol
was found. A place is a reference and not a tree, so that all the trees that
share a part share its derivations.

The derivations found over one span make up a *cell*, in the order in which they
were found.
-/

namespace Constituency

/-- Where one symbol of a right-hand side was found. -/
inductive Part where
  /-- The word at a position. -/
  | leaf (position : Nat)
  /-- The phrase kind `symbol` over a span. -/
  | node (span : Span) (symbol : String)
deriving DecidableEq, Repr, Inhabited

/-- A rule together with the places where its right-hand side was found. -/
structure Derivation where
  /-- The rule. -/
  production : Production
  /-- One place for each symbol on the right-hand side of the rule. -/
  parts : List Part
deriving DecidableEq, Repr, Inhabited

/-- The phrase kind that a derivation builds. -/
def Derivation.symbol (d : Derivation) : String :=
  d.production.lhs

/-- The derivations over one span, in the order in which they were found. -/
abbrev Cell := List Derivation

namespace Cell

/-- The phrase kinds built in the cell, in the order in which they were found. -/
def symbols (c : Cell) : List String :=
  (c.map Derivation.symbol).eraseDups

/-- Whether the phrase kind `a` is built in the cell. -/
def has (c : Cell) (a : String) : Bool :=
  c.any fun d => d.symbol = a

/-- The derivations that build `a`, in the order in which they were found. -/
def derivationsOf (c : Cell) (a : String) : List Derivation :=
  c.filter fun d => d.symbol = a

theorem mem_symbols {c : Cell} {a : String} : a ∈ c.symbols ↔ ∃ d ∈ c, d.symbol = a := by
  simp [symbols]

theorem has_iff {c : Cell} {a : String} : c.has a = true ↔ a ∈ c.symbols := by
  simp [has, mem_symbols]

theorem mem_derivationsOf {c : Cell} {a : String} {d : Derivation} :
    d ∈ c.derivationsOf a ↔ d ∈ c ∧ d.symbol = a := by
  simp [derivationsOf]

/-- A phrase kind has a derivation exactly when the cell builds it. -/
theorem derivationsOf_ne_nil_iff {c : Cell} {a : String} :
    c.derivationsOf a ≠ [] ↔ a ∈ c.symbols := by
  simp [derivationsOf, mem_symbols]

end Cell

end Constituency
