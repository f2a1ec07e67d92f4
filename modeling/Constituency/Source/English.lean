import Constituency.Source.Load

/-!
# The English grammar

A small grammar of English, for use when no other is given: a few rules of
sentence structure over a vocabulary from detective stories. It is a source like
any other and is loaded like one.
-/

namespace Constituency.Source

/-- The lines of the English grammar. -/
def englishLines : List String := [
  "# Structural rules. The first rule's left-hand side is the start symbol.",
  "S -> NP VP | VP NP | S Conj S",
  "NP -> N | Det N | NP PP | Det AP N",
  "VP -> V | V NP | V PP | Adv VP | VP Adv",
  "AP -> Adj | Adj AP",
  "PP -> P NP",
  "",
  "# Vocabulary",
  "Adj -> 'country' | 'dreadful' | 'enigmatical' | 'little' | 'moist' | 'red'",
  "Adv -> 'down' | 'here' | 'never'",
  "Conj -> 'and' | 'until'",
  "Det -> 'a' | 'an' | 'his' | 'my' | 'the'",
  "N -> 'armchair' | 'companion' | 'day' | 'door' | 'hand' | 'he' | 'himself'",
  "N -> 'holmes' | 'home' | 'i' | 'mess' | 'paint' | 'palm' | 'pipe' | 'she'",
  "N -> 'smile' | 'thursday' | 'walk' | 'we' | 'word'",
  "P -> 'at' | 'before' | 'in' | 'of' | 'on' | 'to'",
  "V -> 'arrived' | 'came' | 'chuckled' | 'had' | 'lit' | 'said' | 'sat'",
  "V -> 'smiled' | 'tell' | 'were'"
]

/-- The name that the English grammar has in place of a file name. -/
def englishName : String := "<builtin>"

/-- The English grammar, with another start symbol if one is given. -/
def english (start : Option String) : Except (List LoadError) Grammar :=
  loadLines englishName start (englishLines.map some)

end Constituency.Source
