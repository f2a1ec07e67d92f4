import Constituency.Production
import Constituency.Source.Token

/-!
# Rule lines

A rule line gives the alternatives of one phrase kind: a name, an arrow, and the
alternatives with bars between them. An alternative is a row of names and words
and may be empty; what an empty one means is not a question of form.

Lines without a rule are skipped: the ones that are blank and the ones whose first
visible character is `#`.

Two of the errors guard against mistakes in the reading and not in the line: a bar within
an alternative, when the alternatives have been cut at the bars, and a line without tokens,
when the blank ones have been skipped.

## Main declarations

* `Rule`              — a phrase kind with its alternatives.
* `RuleError`         — what can be wrong with the form of a line.
* `alternativesOf`    — the alternatives that a row of tokens spells.
* `Rule.ofTokens`     — the rule that a row of tokens spells.
* `Rule.ofLine`       — the rule on a line.
* `isRuleLine`        — whether a line is meant to hold a rule.
-/

namespace Constituency.Source

open Unicode

/-- A phrase kind with alternatives, as one line gives them. -/
structure Rule where
  /-- The phrase kind. -/
  lhs : String
  /-- The alternatives, left to right. -/
  alternatives : List (List Symbol)
deriving DecidableEq, Repr, Inhabited

/-- Why a line holds no rule. -/
inductive RuleError where
  /-- The line does not fall into tokens. -/
  | lexical (e : LexError)
  /-- The line does not begin with a name. -/
  | missingName
  /-- There is no arrow after the name. -/
  | missingArrow
  /-- There is an arrow among the alternatives. -/
  | unexpectedArrow
  /-- There is a bar within an alternative. -/
  | unsplitAlternatives
  /-- There is nothing on the line. -/
  | blankLine
deriving DecidableEq, Repr

/-- The message shown for a line without a rule. -/
def RuleError.message : RuleError → String
  | .lexical .strayDash => "Expected `>` after `-`"
  | .lexical .unmatchedQuote => "Unmatched quotes"
  | .missingName => "Tried to define something other than a nonterminal"
  | .missingArrow => "Expected `->` after nonterminal"
  | .unexpectedArrow => "Unexpected `->` encountered"
  | .unsplitAlternatives =>
    "Rewrite was not fully split (this is a problem with the loader, not the grammar)"
  | .blankLine =>
    "Blank line encountered in rule loader (this is a problem with the loader, not the grammar)"

/-- The symbol that a token spells. -/
def symbolOf : Token → Except RuleError Symbol
  | .arrow => .error .unexpectedArrow
  | .bar => .error .unsplitAlternatives
  | .name a => .ok (.nonterminal a)
  | .word w => .ok (.terminal w)

/-- The alternative that tokens spell. -/
def alternativeOf (ts : List Token) : Except RuleError (List Symbol) :=
  ts.mapM symbolOf

/-- The alternatives that tokens spell, one more than there are bars. -/
def alternativesOf (ts : List Token) : Except RuleError (List (List Symbol)) :=
  (ts.splitOn .bar).mapM alternativeOf

namespace Rule

/-- The rule that tokens spell. A missing name is reported before a missing arrow,
and that before a second one. -/
def ofTokens : List Token → Except RuleError Rule
  | [] => .error .blankLine
  | .name a :: .arrow :: rest => (alternativesOf rest).map (⟨a, ·⟩)
  | .name _ :: _ => .error .missingArrow
  | _ :: _ => .error .missingName

/-- The rule on a line. -/
def ofLine (line : List Char) : Except RuleError Rule :=
  match lexLine line with
  | .ok tokens => ofTokens tokens
  | .error e => .error (.lexical e)

/-- The productions that a rule stands for, one for each alternative. -/
def productions (r : Rule) : List Production :=
  r.alternatives.map (⟨r.lhs, ·⟩)

end Rule

/-- Whether a line is meant to hold a rule: it is not blank, and its first visible
character is no `#`. -/
def isRuleLine (line : List Char) : Bool :=
  match line.dropWhile isWhiteSpace with
  | [] => false
  | c :: _ => c ≠ '#'

end Constituency.Source
