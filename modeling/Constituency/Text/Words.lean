import Constituency.Text.Lowercase
import Constituency.Unicode.Alphabetic
import Constituency.Unicode.Numeric
import Constituency.Unicode.WhiteSpace

/-!
# The words of a sentence

A text falls into runs of characters of one kind: word characters (letters,
numbers and the underscore), white space, and everything else, which counts as
punctuation. Its tokens are the runs that are not white space, so `Holmes's pipe.`
has the tokens `Holmes`, `'`, `s`, `pipe` and `.`. The words that a parser gets
are the tokens of the text in lower case that have a letter in them.

A run is known by the bytes that it takes, from the first byte of its first
character up to the last byte of its last one, and the token is the part of the
text between these two.

## Main declarations

* `Text.Kind`, `Text.kindOf` — the kinds of character.
* `Text.runs`                — the runs of characters that stand at known bytes.
* `Text.tokenExtents`        — the bytes of the runs that are not white space.
* `Text.tokens`              — the parts of the text that these bytes are.
* `Text.words`               — the tokens in lower case that have a letter.
-/

namespace Constituency.Text

open Unicode

/-- What a character contributes to. -/
inductive Kind where
  /-- A run of letters, numbers and underscores. -/
  | word
  /-- The white space between tokens. -/
  | space
  /-- A run of other signs. -/
  | punctuation
deriving DecidableEq, Repr

/-- The kind of a character. -/
def kindOf (c : Char) : Kind :=
  if isAlphabetic c || isNumeric c || c = '_' then .word
  else if isWhiteSpace c then .space
  else .punctuation

/-- The characters with the numbers of their first bytes, where the first character
begins at `offset`. -/
def withOffsets (offset : Nat) : List Char → List (Nat × Char)
  | [] => []
  | c :: cs => (offset, c) :: withOffsets (offset + c.utf8Size) cs

/-- The longest runs of characters of one kind. -/
def runs (cs : List (Nat × Char)) : List (List (Nat × Char)) :=
  cs.splitBy fun a b => kindOf a.2 = kindOf b.2

/-- The bytes that a run takes: where its first character begins, and where its last
one ends. -/
def extentOf : List (Nat × Char) → Option (Nat × Nat)
  | [] => none
  | first :: rest =>
    let last := rest.getLast?.getD first
    some (first.1, last.1 + last.2.utf8Size)

/-- The bytes that the tokens of a text take. -/
def tokenExtents (text : String) : List (Nat × Nat) :=
  ((runs (withOffsets 0 text.toList)).filter fun run =>
    run.all fun c => kindOf c.2 ≠ .space).filterMap extentOf

/-- The part of a text from one byte up to another. -/
def slice (text : String) (extent : Nat × Nat) : String :=
  String.Pos.Raw.extract text ⟨extent.1⟩ ⟨extent.2⟩

/-- The tokens of a text. -/
def tokens (text : String) : List String :=
  (tokenExtents text).map (slice text)

/-- The words of a sentence: in lower case, and without the tokens that have no
letter. -/
def words (sentence : String) : List String :=
  (tokens (lowercase sentence)).filter fun w => w.toList.any isAlphabetic

end Constituency.Text
