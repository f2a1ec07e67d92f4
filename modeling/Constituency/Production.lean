import Constituency.Symbol

/-!
# Productions

A production `A -> X₁ … Xₙ` lets the phrase kind `A` be built from the symbols
on the right, in that order. Two shapes matter to the chart, because they never
cut a span in two: a *lexical* production has a single word on the right, a
*unary* one a single nonterminal.
-/

namespace Constituency

/-- One rule: a phrase of the kind `lhs` may consist of the symbols `rhs`. -/
structure Production where
  /-- The kind of phrase that the rule builds. -/
  lhs : String
  /-- What it is built from, left to right. -/
  rhs : List Symbol
deriving DecidableEq, Repr, Inhabited

namespace Production

/-- Whether the production has the form `A -> "word"`. -/
def isLexical (p : Production) : Bool :=
  match p.rhs with
  | [.terminal _] => true
  | _ => false

/-- The `B` of a production `A -> B`; no other form has one. -/
def unaryChild? (p : Production) : Option String :=
  match p.rhs with
  | [.nonterminal b] => some b
  | _ => none

/-- The names on the right-hand side, one for each occurrence. -/
def children (p : Production) : List String :=
  p.rhs.filterMap Symbol.nonterminal?

/-- The written form: the left-hand side, an arrow, and each symbol after a
blank. -/
def text (p : Production) : String :=
  p.lhs ++ " ->" ++ String.join (p.rhs.map fun s => " " ++ s.text)

theorem unaryChild?_eq_some {p : Production} {b : String} :
    p.unaryChild? = some b ↔ p.rhs = [.nonterminal b] := by
  unfold unaryChild?
  split <;> simp_all

theorem mem_children {p : Production} {a : String} :
    a ∈ p.children ↔ Symbol.nonterminal a ∈ p.rhs := by
  simp [children]

end Production

end Constituency
