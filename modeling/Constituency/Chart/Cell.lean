import Constituency.Chart.Derivation
import Constituency.Grammar.UnaryClosure

/-!
# Filling one cell

The derivations over a span come in two groups. First, in production order, the
rules that cut the span or consume it as a single word: a rule with several
symbols is tried on every split of the span, and looks its nonterminals up in the
cells of the parts, which are strictly shorter. Then the unary rules, which stay
within the span: every phrase kind of the cell is visited once, and is a
derivation of each phrase kind that a unary rule makes of it.

## Main declarations

* `matchSymbol`, `matchSymbols` — where symbols are found, given their spans.
* `Production.derivationsOver`  — the derivations of one rule that cut the span.
* `Grammar.unaryDerivations`    — the derivations of the unary rules over one
  phrase kind.
* `Grammar.cellOver`            — the whole cell.
-/

namespace Constituency

/-- Where a symbol is found over a span, if it is: a word has to be the only
word of the span, a phrase kind has to be built in the cell of the span. -/
def matchSymbol (tokens : List String) (cells : Span → Cell) (s : Symbol) (span : Span) :
    Option Part :=
  match s with
  | .terminal w =>
    if span.length = 1 ∧ tokens[span.start]? = some w then some (.leaf span.start) else none
  | .nonterminal a => if (cells span).has a then some (.node span a) else none

/-- Where the symbols are found over as many spans, if all of them are. -/
def matchSymbols (tokens : List String) (cells : Span → Cell) :
    List Symbol → List Span → Option (List Part)
  | [], [] => some []
  | s :: rest, span :: spans =>
    match matchSymbol tokens cells s span, matchSymbols tokens cells rest spans with
    | some part, some parts => some (part :: parts)
    | _, _ => none
  | _, _ => none

/-- The derivations of a rule that is not unary over a span. A rule with more
symbols than there are words is not even tried, and a unary rule has none. -/
def Production.derivationsOver (p : Production) (tokens : List String) (cells : Span → Cell)
    (span : Span) : List Derivation :=
  if p.isLexical then
    if span.length = 1 then
      (matchSymbols tokens cells p.rhs [span]).toList.map (⟨p, ·⟩)
    else []
  else if p.unaryChild?.isSome ∨ span.length < p.rhs.length then
    []
  else
    (span.splits p.rhs.length).filterMap fun spans =>
      (matchSymbols tokens cells p.rhs spans).map (⟨p, ·⟩)

namespace Grammar

/-- The derivations of the unary rules over the phrase kind `child`. -/
def unaryDerivations (g : Grammar) (span : Span) (child : String) : List Derivation :=
  (g.unaryParents child).map (⟨·, [.node span child]⟩)

/-- The derivations over a span by rules that are not unary, in rule order. -/
def splitCell (g : Grammar) (tokens : List String) (cells : Span → Cell) (span : Span) : Cell :=
  g.productions.flatMap fun p => p.derivationsOver tokens cells span

/-- Every derivation over a span, given the cells of the shorter spans: those by
rules that are not unary, then those by unary rules over each phrase kind of the
cell, in the order in which the kinds are found. -/
def cellOver (g : Grammar) (tokens : List String) (cells : Span → Cell) (span : Span) : Cell :=
  let cell := g.splitCell tokens cells span
  cell ++ (g.unaryClosure cell.symbols).flatMap (g.unaryDerivations span)

end Grammar

end Constituency
