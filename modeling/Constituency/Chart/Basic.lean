import Constituency.Chart.Cell

/-!
# Charts

The chart of a sentence holds the derivations over every span of it. It is
filled by growing length, so that a cell finds every cell it looks at in place:
level `k` holds the cells of the spans with `k + 1` words, by their start.

## Main declarations

* `fillLevels`        — the levels, shortest spans first.
* `Chart`             — the filled chart of a grammar and a sentence.
* `Chart.ofTokens`    — the chart, unless the sentence has no words.
* `Chart.derivations` — the ways in which a phrase kind covers a span.
* `Chart.roots`       — the ways in which the start symbol covers the sentence.
-/

namespace Constituency

/-- The cell of a span, where level `k` holds the cells of the spans with
`k + 1` words, by their start. A span without words has an empty cell, and so has
one that reaches beyond the levels. -/
def cellIn (levels : Array (Array Cell)) (span : Span) : Cell :=
  if span.start < span.stop then
    ((levels[span.length - 1]?).bind (·[span.start]?)).getD []
  else []

/-- The first `count` levels: the cells of all spans with up to `count` words.
Each level is made from the levels before it. -/
def fillLevels (g : Grammar) (tokens : List String) : Nat → Array (Array Cell)
  | 0 => #[]
  | count + 1 =>
    let shorter := fillLevels g tokens count
    shorter.push <| (Array.range (tokens.length - count)).map fun start =>
      g.cellOver tokens (cellIn shorter) ⟨start, start + count + 1⟩

/-- The derivations over every span of a sentence. The levels are determined by
the grammar and the words; they are stored because filling them is the work. -/
structure Chart where
  grammar : Grammar
  tokens : List String
  tokens_ne_nil : tokens ≠ []
  /-- The cells, by length and start. -/
  levels : Array (Array Cell)
  /-- The cells are those that filling gives. -/
  levels_eq : levels = fillLevels grammar tokens tokens.length

/-- Why a sentence is not parsed at all. -/
inductive ParseError where
  /-- The sentence has no words. Every rule consumes a word, so nothing can
  cover it. -/
  | emptyInput
deriving DecidableEq, Repr

/-- The message shown for a sentence that is not parsed. -/
def ParseError.message : ParseError → String
  | .emptyInput => "Nothing to parse: the sentence contains no words"

namespace Chart

/-- The filled chart of a sentence, unless it has no words. -/
def ofTokens (g : Grammar) (tokens : List String) : Except ParseError Chart :=
  if h : tokens = [] then
    .error .emptyInput
  else
    .ok ⟨g, tokens, h, fillLevels g tokens tokens.length, rfl⟩

/-- The cell of a span; empty for a span that is none of the sentence. -/
def cell (c : Chart) (span : Span) : Cell :=
  cellIn c.levels span

/-- The ways in which the phrase kind `a` covers exactly the words of a span. -/
def derivations (c : Chart) (span : Span) (a : String) : List Derivation :=
  (c.cell span).derivationsOf a

/-- The span of the whole sentence. -/
def whole (c : Chart) : Span :=
  ⟨0, c.tokens.length⟩

/-- The ways in which the start symbol covers the whole sentence. -/
def roots (c : Chart) : List Derivation :=
  c.derivations c.whole c.grammar.start

/-- Whether the start symbol covers the whole sentence. -/
def isAccepted (c : Chart) : Bool :=
  !c.roots.isEmpty

/-- The phrase kinds over each span that has any, with their derivations: by
growing length, then by start, then in the order of the grammar. -/
def entries (c : Chart) : List (Span × String × List Derivation) :=
  (List.range' 1 c.tokens.length).flatMap fun length =>
    (List.range (c.tokens.length - length + 1)).flatMap fun start =>
      let span : Span := ⟨start, start + length⟩
      c.grammar.nonterminals.filterMap fun a =>
        match c.derivations span a with
        | [] => none
        | ds => some (span, a, ds)

theorem mem_derivations {c : Chart} {span : Span} {a : String} {d : Derivation} :
    d ∈ c.derivations span a ↔ d ∈ c.cell span ∧ d.symbol = a :=
  Cell.mem_derivationsOf

end Chart

end Constituency
