import Constituency.Unicode.CaseIgnorable
import Constituency.Unicode.Cased
import Constituency.Unicode.Lowercase

/-!
# Lower case of a text

A text is put into lower case character by character, with one exception that
looks at the context. A capital sigma becomes a final sigma at the end of a word,
that is, when a cased character comes before it and none comes after it, and the
ordinary small sigma elsewhere. Neither look stops at characters that casing
looks past.
-/

namespace Constituency.Text

open Unicode

/-- Whether a cased character comes first, once the characters that casing looks
past are left out. -/
def meetsCased (cs : List Char) : Bool :=
  match cs.dropWhile isCaseIgnorable with
  | [] => false
  | c :: _ => isCased c

/-- The small sigma between `before`, read backwards, and `after`. -/
def smallSigma (before after : List Char) : Char :=
  if meetsCased before && !meetsCased after then 'ς' else 'σ'

/-- The lower case of the characters that follow `before`, which is read
backwards. -/
def lowerAfter (before : List Char) : List Char → List Char
  | [] => []
  | c :: after =>
    (if c = 'Σ' then [smallSigma before after] else lowerChar c) ++ lowerAfter (c :: before) after

/-- The lower case of a text. -/
def lowercase (text : String) : String :=
  String.ofList (lowerAfter [] text.toList)

end Constituency.Text
