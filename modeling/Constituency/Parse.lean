import Constituency.Chart.Expand

/-!
# Parsing

A sentence is parsed by filling its chart and expanding the start symbol over the
whole of it. Each tree is given once, at its first place in the order of the
expansion. A sentence outside the language has no tree, which is no error; only a
sentence without words is refused.
-/

namespace Constituency

/-- The different trees of a chart, in the order of their first occurrence. -/
def Chart.parses (c : Chart) : List Tree :=
  c.trees.eraseDups

namespace Grammar

/-- Every tree of a sentence. -/
def parse (g : Grammar) (tokens : List String) : Except ParseError (List Tree) :=
  (Chart.ofTokens g tokens).map Chart.parses

end Grammar

end Constituency
