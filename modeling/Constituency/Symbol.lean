/-!
# Symbols

A grammar is written over two kinds of symbol. A *terminal* is a word of the
language and stands for itself; a *nonterminal* is the name of a kind of phrase
and stands for whatever its rules derive. The kind is part of the symbol: the
word `N` and the phrase kind `N` are different symbols of the same name.

## Main declarations

* `Symbol`       — the two kinds.
* `Symbol.text`  — the written form: words in double quotes, names bare.
-/

namespace Constituency

/-- A word of the language or the name of a kind of phrase. -/
inductive Symbol where
  | terminal (word : String)
  | nonterminal (name : String)
deriving DecidableEq, Repr, Inhabited

namespace Symbol

/-- The word or the name, without its kind. -/
def name : Symbol → String
  | .terminal w => w
  | .nonterminal a => a

/-- Whether the symbol is a word. -/
def isTerminal : Symbol → Bool
  | .terminal _ => true
  | .nonterminal _ => false

/-- The name of a nonterminal; a word has none. -/
def nonterminal? : Symbol → Option String
  | .terminal _ => none
  | .nonterminal a => some a

/-- The written form: a word stands in double quotes, a name is bare. -/
def text : Symbol → String
  | .terminal w => "\"" ++ w ++ "\""
  | .nonterminal a => a

@[simp] theorem nonterminal?_eq_some {s : Symbol} {a : String} :
    s.nonterminal? = some a ↔ s = .nonterminal a := by
  cases s <;> simp [nonterminal?]

end Symbol

end Constituency
