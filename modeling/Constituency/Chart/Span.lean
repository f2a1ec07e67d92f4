/-!
# Spans and splits

A span is a stretch of the sentence, from the word at `start` up to but not
including the word at `stop`. A phrase with several parts cuts its span into as
many contiguous stretches, one for each part.

## Main declarations

* `Span`        — a stretch of the sentence.
* `Span.splits` — every way of cutting a span into a number of non-empty parts,
  the first cut varying slowest.
-/

namespace Constituency

/-- The stretch of a sentence from `start` up to `stop`. -/
structure Span where
  /-- The position of the first word. -/
  start : Nat
  /-- The position after the last word. -/
  stop : Nat
deriving DecidableEq, Repr, Inhabited

namespace Span

/-- The number of words. -/
def length (s : Span) : Nat :=
  s.stop - s.start

/-- Every way of cutting the words from `start` up to `stop` into `parts`
contiguous, non-empty spans. The first part ends as early as possible at first,
and never so late that too few words are left for the others. -/
def splitsFrom (start stop : Nat) : Nat → List (List Span)
  | 0 => if start = stop then [[]] else []
  | k + 1 =>
    (List.range' (start + 1) (stop - start - k)).flatMap fun cut =>
      (splitsFrom cut stop k).map (⟨start, cut⟩ :: ·)

/-- Every way of cutting a span into `parts` contiguous, non-empty spans, in the
lexicographic order of the cuts. -/
def splits (s : Span) (parts : Nat) : List (List Span) :=
  splitsFrom s.start s.stop parts

end Span

end Constituency
