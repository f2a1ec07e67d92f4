import Constituency.Unicode.WhiteSpace

/-!
# Tokens of a rule line

A line of a grammar is a row of tokens: the arrow `->`, the bar `|`, names, and
words between quotes. A word may be quoted with either kind of quote and ends at
the next quote of the same kind, so it may hold the other kind. A name is a run of
characters that are neither white space, bar, dash nor quote. White space is only
needed between two names.

Two things can go wrong: a dash that is not part of an arrow, and a quote that is
not closed.

## Main declarations

* `Token`                 — the tokens.
* `lexWord`, `lexName`    — a single token at the beginning of a text.
* `lexLine`               — the tokens of a whole line.
-/

namespace Constituency.Source

open Unicode

/-- A token of a rule line. -/
inductive Token where
  /-- The arrow after the left-hand side. -/
  | arrow
  /-- The bar between alternatives. -/
  | bar
  /-- A bare name. -/
  | name (text : String)
  /-- A quoted word, without its quotes. -/
  | word (text : String)
deriving DecidableEq, Repr, Inhabited

/-- Why a line has no tokens. -/
inductive LexError where
  /-- A dash does not begin an arrow. -/
  | strayDash
  /-- A quote is not closed. -/
  | unmatchedQuote
deriving DecidableEq, Repr

/-- Whether a character opens and closes words. -/
def isQuote (c : Char) : Bool :=
  c = '"' || c = '\''

/-- Whether a character may stand in a name. -/
def isNameChar (c : Char) : Bool :=
  !isWhiteSpace c && c ≠ '|' && c ≠ '-' && !isQuote c

/-- The quoted word at the beginning of a text, and the text left after the
attempt: without a closing quote nothing is left, and without an opening quote
the first character is gone. -/
def lexWord : List Char → Except LexError Token × List Char
  | [] => (.error .unmatchedQuote, [])
  | quote :: cs =>
    if isQuote quote then
      match cs.dropWhile (· ≠ quote) with
      | [] => (.error .unmatchedQuote, [])
      | _ :: rest => (.ok (.word (String.ofList (cs.takeWhile (· ≠ quote)))), rest)
    else (.error .unmatchedQuote, cs)

/-- The name at the beginning of a text, which may be empty, and the text after
it. -/
def lexName (cs : List Char) : Token × List Char :=
  (.name (String.ofList (cs.takeWhile isNameChar)), cs.dropWhile isNameChar)

-- ---------------------------------------------------------------------------
-- Every token uses up some text
-- ---------------------------------------------------------------------------

theorem length_dropWhile_le (p : Char → Bool) (cs : List Char) :
    (cs.dropWhile p).length ≤ cs.length :=
  (List.dropWhile_sublist p).length_le

theorem length_lexWord_lt {c : Char} {cs : List Char} {t : Token} {rest : List Char}
    (h : lexWord (c :: cs) = (.ok t, rest)) : rest.length < (c :: cs).length := by
  simp only [lexWord] at h
  split at h
  · split at h
    · simp at h
    · next hdrop =>
      obtain ⟨_, rfl⟩ := Prod.mk.inj h
      have := length_dropWhile_le (· ≠ c) cs
      rw [hdrop] at this
      simp only [List.length_cons] at this ⊢
      omega
  · simp at h

theorem length_lexName_lt {c : Char} {cs : List Char} (h : isNameChar c = true) :
    (lexName (c :: cs)).2.length < (c :: cs).length := by
  have := length_dropWhile_le isNameChar cs
  simp only [lexName, List.dropWhile_cons, h, if_true, List.length_cons]
  omega

/-- The tokens of a line, or the first thing that is wrong with it. -/
def lexLine : List Char → Except LexError (List Token)
  | [] => .ok []
  | c :: cs =>
    if c = '-' then
      match cs with
      | '>' :: rest => (lexLine rest).map (.arrow :: ·)
      | _ => .error .strayDash
    else if c = '|' then
      (lexLine cs).map (.bar :: ·)
    else if isQuote c then
      match _h : lexWord (c :: cs) with
      | (.ok t, rest) => (lexLine rest).map (t :: ·)
      | (.error e, _) => .error e
    else if _h : isNameChar c then
      (lexLine (lexName (c :: cs)).2).map ((lexName (c :: cs)).1 :: ·)
    else
      lexLine cs
termination_by cs => cs.length
decreasing_by
  · simp only [List.length_cons]; omega
  · simp
  · exact length_lexWord_lt ‹_›
  · exact length_lexName_lt ‹_›
  · simp

end Constituency.Source
